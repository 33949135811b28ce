import Hysj.Symbolic.Places

set_option autoImplicit false

/- Where a party of the symbolic model stands, whatever it has been fed. -/
namespace Hysj.Symbolic

open Ratchet
open Crypto (CryptoError)

abbrev SymbolicState := RatchetState Term Term Term

/-- Alice stands behind an odd number of root steps, Bob behind an even one. -/
def turn : Party → Nat
  | .alice => 1
  | .bob => 0

/-- A party behind `depth` root steps sends on the chain of the last one, where it has
used `i` keys, and receives on the chain of the one before. Its private keys are its own,
numbered below `fresh`. -/
structure Standing (p : Party) (fresh depth i r : Nat) (s : SymbolicState) : Prop where
  turn : depth % 2 = turn p % 2
  root : s.rootKey.rootDepth = some depth
  sending : ∀ ck, s.sendingChainKey = some ck →
    1 ≤ depth ∧ ck.chainPlace = some (depth - 1, i)
  receiving : ∀ ck, s.receivingChainKey = some ck →
    2 ≤ depth ∧ ck.chainPlace = some (depth - 2, r)
  secret : ∃ n < fresh, s.dhSendSecret = .secret p n
  publicKey : s.dhSendPublic = .pub s.dhSendSecret
  store : StoreAt depth r s.skippedKeys

/-- A place on the sender's own chains whose key it has used. -/
def Spoken (depth i : Nat) (place : Nat × Nat) : Prop :=
  place.1 % 2 ≠ depth % 2 ∧ place.1 + 1 ≤ depth ∧ (place.1 + 1 = depth → place.2 < i)

/-- A call moves a party on: its cursors advance and what is spent stays spent. -/
structure Moves (s : SymbolicState) (depth i r : Nat) (s' : SymbolicState) (depth' i' r' : Nat) :
    Prop where
  onward : Onward s.skippedKeys depth r s'.skippedKeys depth' r'
  spoken : ∀ place, Spoken depth i place → Spoken depth' i' place

theorem Moves.refl (s : SymbolicState) (depth i r : Nat) : Moves s depth i r s depth i r :=
  ⟨Onward.refl _ _ _, fun _ spoken => spoken⟩

theorem Moves.trans {s s' s'' : SymbolicState} {depth depth' depth'' i i' i'' r r' r'' : Nat}
    (first : Moves s depth i r s' depth' i' r')
    (second : Moves s' depth' i' r' s'' depth'' i'' r'') :
    Moves s depth i r s'' depth'' i'' r'' where
  onward := first.onward.trans second.onward
  spoken place spoken := second.spoken place (first.spoken place spoken)

/-- `packet` was opened with a key that was available and now is spent. -/
def Spends (s : SymbolicState) (depth r : Nat) (s' : SymbolicState) (depth' r' : Nat)
    (ciphertext : Term) (header : MessageHeader Term) (plaintext : Term) : Prop :=
  ∃ key nonce place,
    ciphertext = .aead key nonce (symbolicOps.headerToBytes header) plaintext ∧
    key.keyPlace = some place ∧ Available s.skippedKeys depth r place ∧
    ¬ Available s'.skippedKeys depth' r' place

/-- What only a ratchet changes. -/
structure SameRoot (s s' : SymbolicState) : Prop where
  receivePublic : s'.dhReceivePublic = s.dhReceivePublic
  root : s'.rootKey = s.rootKey
  sending : s'.sendingChainKey = s.sendingChainKey

/-- A ratchet onto `theirs` with the fresh key: the second of its two root steps uses the
fresh key, and gives the root key and the sending chain. -/
def Ratcheted (p : Party) (fresh : Nat) (theirs : Term) (s s' : SymbolicState) : Prop :=
  s'.dhReceivePublic = some theirs ∧
    ∃ d, s'.rootKey = .rootKey (.rootKey s.rootKey d) (diffieHellman (.secret p fresh) theirs) ∧
      s'.sendingChainKey =
        some (.chainKey (.rootKey s.rootKey d) (diffieHellman (.secret p fresh) theirs))

theorem Standing.encrypt {p : Party} {fresh depth i r : Nat} {s s' : SymbolicState} {nonce : Nat}
    {plaintext ciphertext : Term} {header : MessageHeader Term}
    (standing : Standing p fresh depth i r s)
    (ok : RatchetState.encrypt symbolicOps nonce s plaintext = (s', .ok (ciphertext, header))) :
    Standing p fresh depth (i + 1) r s' ∧ Moves s depth i r s' depth (i + 1) r ∧
      s'.dhReceivePublic = s.dhReceivePublic ∧ s'.skippedKeys = s.skippedKeys ∧
      header.dhPublic = s.dhSendPublic ∧
      ∃ key place, ciphertext = .aead key nonce (symbolicOps.headerToBytes header) plaintext ∧
        key.keyPlace = some place ∧ Spoken depth (i + 1) place := by
  cases sending : s.sendingChainKey with
  | none =>
      simp only [RatchetState.encrypt, sending, Prod.mk.injEq, reduceCtorEq, and_false] at ok
  | some ck =>
      obtain ⟨started, place⟩ := standing.sending ck sending
      simp only [RatchetState.encrypt, sending] at ok
      cases ok
      refine ⟨⟨standing.turn, standing.root, ?_, standing.receiving, standing.secret,
        standing.publicKey, standing.store⟩, ⟨Onward.refl _ _ _, ?_⟩, rfl, rfl, rfl,
        .messageKey ck, _, rfl, place, ?_⟩
      · intro next present
        obtain rfl := Option.some.inj present
        exact ⟨started, chainPlace_chainKeyAt place 1⟩
      · intro place spoken
        unfold Spoken at spoken ⊢
        omega
      · unfold Spoken
        omega

/-- A failed `encrypt` has no sending chain and changes nothing. -/
theorem encrypt_error {s s' : SymbolicState} {nonce : Nat} {plaintext : Term} {e : CryptoError}
    (failed : RatchetState.encrypt symbolicOps nonce s plaintext = (s', .error e)) : s' = s := by
  cases sending : s.sendingChainKey with
  | none =>
      simp only [RatchetState.encrypt, sending, Prod.mk.injEq] at failed
      exact failed.1.symm
  | some ck =>
      simp only [RatchetState.encrypt, sending] at failed
      cases failed

/-- Skipping moves the receiver along its chain and touches nothing else. -/
theorem Standing.skip {p : Party} {fresh depth i r : Nat} {s : SymbolicState}
    (standing : Standing p fresh depth i r s) (until_ : UInt32) :
    ∃ s' r' result, RatchetState.skipMissedMessages symbolicOps s until_ = (s', result) ∧
      Standing p fresh depth i r' s' ∧ Moves s depth i r s' depth i r' ∧ SameRoot s s' := by
  rcases RatchetState.skip_cases symbolicOps s until_ with
    ⟨-, still⟩ | ⟨-, -, e, refused⟩ | ⟨-, -, ck, receiving, caught⟩
  · exact ⟨s, r, _, still, standing, Moves.refl s depth i r, ⟨rfl, rfl, rfl⟩⟩
  · exact ⟨s, r, _, refused, standing, Moves.refl s depth i r, ⟨rfl, rfl, rfl⟩⟩
  · obtain ⟨started, place⟩ := standing.receiving ck receiving
    obtain ⟨stored, onward⟩ := standing.store.skipLoop started
      ((s.dhReceivePublic.map symbolicOps.hexEncode).getD symbolicOps.emptyString)
      (until_ - s.recvMessageNumber).toNat (n := s.recvMessageNumber) place
    refine ⟨_, r + (until_ - s.recvMessageNumber).toNat, _, caught,
      ⟨standing.turn, standing.root, standing.sending, ?_, standing.secret, standing.publicKey,
        stored⟩, ⟨onward, fun _ spoken => spoken⟩, ⟨rfl, rfl, rfl⟩⟩
    intro next present
    obtain rfl := Option.some.inj present
    exact ⟨started, chainPlace_chainKeyAt place _⟩

/-- A ratchet takes two root steps and draws a fresh key, whatever key it is given. -/
theorem Standing.ratchet {p : Party} {fresh depth i r : Nat} {s : SymbolicState}
    (standing : Standing p fresh depth i r s) (theirs : Term) :
    ∃ s', RatchetState.dhRatchet symbolicOps (.secret p fresh) s theirs = some s' ∧
      Standing p (fresh + 1) (depth + 2) 0 0 s' ∧ Moves s depth i r s' (depth + 2) 0 0 ∧
      Ratcheted p fresh theirs s s' := by
  obtain ⟨stored, onward⟩ := standing.store.pass fun _ => passed_ratchet
  have first (d : Term) : (Term.rootKey s.rootKey d).rootDepth = some (depth + 1) := by
    show Option.map _ s.rootKey.rootDepth = _
    rw [standing.root]
    rfl
  have second (d d' : Term) : (Term.rootKey (.rootKey s.rootKey d) d').rootDepth =
      some (depth + 2) := by
    show Option.map _ (Term.rootKey s.rootKey d).rootDepth = _
    rw [first]
    rfl
  refine ⟨_, rfl, ⟨?_, second _ _, ?_, ?_, ⟨fresh, Nat.lt_succ_self fresh, rfl⟩, rfl, stored⟩,
    ⟨onward, ?_⟩, rfl, _, rfl, rfl⟩
  · have turn := standing.turn
    omega
  · intro ck present
    obtain rfl := Option.some.inj present
    refine ⟨by omega, ?_⟩
    show Option.map _ (Term.rootKey s.rootKey _).rootDepth = _
    rw [first]
    rfl
  · intro ck present
    obtain rfl := Option.some.inj present
    refine ⟨by omega, ?_⟩
    show Option.map _ s.rootKey.rootDepth = _
    rw [standing.root]
    rfl
  · intro place spoken
    unfold Spoken at spoken ⊢
    omega

theorem Standing.fresher {p : Party} {fresh depth i r : Nat} {s : SymbolicState}
    (standing : Standing p fresh depth i r s) : Standing p (fresh + 1) depth i r s := by
  obtain ⟨n, below, own⟩ := standing.secret
  exact ⟨standing.turn, standing.root, standing.sending, standing.receiving,
    ⟨n, Nat.lt_succ_of_lt below, own⟩, standing.publicKey, standing.store⟩

/-- Receiving on the current chain: if the packet opens, its key is spent. -/
theorem Standing.receive {p : Party} {fresh depth i r : Nat} {s : SymbolicState}
    (standing : Standing p fresh depth i r s) (ciphertext : Term) (header : MessageHeader Term) :
    ∃ s' r' result, RatchetState.receiveOnChain symbolicOps s ciphertext header = (s', result) ∧
      Standing p fresh depth i r' s' ∧ Moves s depth i r s' depth i r' ∧ SameRoot s s' ∧
      ∀ plaintext, result = .ok plaintext →
        Spends s depth r s' depth r' ciphertext header plaintext := by
  obtain ⟨caught, r₁, outcome, skipped, caughtAt, moved, same⟩ := standing.skip header.messageNumber
  cases outcome with
  | error e =>
      refine ⟨caught, r₁, .error e, by rw [RatchetState.receiveOnChain, skipped], caughtAt, moved,
        same, ?_⟩
      intro plaintext impossible
      cases impossible
  | ok _ =>
      cases receiving : caught.receivingChainKey with
      | none =>
          refine ⟨caught, r₁, _, by
            simp only [RatchetState.receiveOnChain, skipped, receiving]; rfl,
            caughtAt, moved, same, ?_⟩
          intro plaintext impossible
          cases impossible
      | some ck =>
          obtain ⟨started, place⟩ := caughtAt.receiving ck receiving
          obtain ⟨stored, onward⟩ := caughtAt.store.pass fun _ => passed_succ
          obtain ⟨ahead, spent⟩ := caughtAt.store.spend started
          have next : ∀ next', some (Term.nextChain ck) = some next' →
              2 ≤ depth ∧ next'.chainPlace = some (depth - 2, r₁ + 1) := by
            intro next' present
            obtain rfl := Option.some.inj present
            exact ⟨started, chainPlace_chainKeyAt place 1⟩
          cases opened : symbolicOps.cipherDecrypt ciphertext (symbolicOps.deriveChainKey ck).2
              (symbolicOps.headerToBytes header) with
          | error e =>
              refine ⟨{ caught with receivingChainKey := some (.nextChain ck) }, r₁ + 1, .error e,
                ?_, ⟨caughtAt.turn, caughtAt.root, caughtAt.sending, next, caughtAt.secret,
                  caughtAt.publicKey, stored⟩, moved.trans ⟨onward, fun _ spoken => spoken⟩,
                ⟨same.receivePublic, same.root, same.sending⟩, ?_⟩
              · simp only [RatchetState.receiveOnChain, skipped, receiving, opened]
                rfl
              · intro plaintext impossible
                cases impossible
          | ok plaintext =>
              refine ⟨{ caught with
                  receivingChainKey := some (.nextChain ck)
                  recvMessageNumber := caught.recvMessageNumber + 1 }, r₁ + 1, .ok plaintext,
                ?_, ⟨caughtAt.turn, caughtAt.root, caughtAt.sending, next, caughtAt.secret,
                  caughtAt.publicKey, stored⟩, moved.trans ⟨onward, fun _ spoken => spoken⟩,
                ⟨same.receivePublic, same.root, same.sending⟩, ?_⟩
              · simp only [RatchetState.receiveOnChain, skipped, receiving, opened]
                rfl
              · intro read same'
                cases same'
                obtain ⟨nonce, shape⟩ := cipherDecrypt_eq_ok opened
                exact ⟨_, nonce, _, shape, place, moved.onward.available _ ahead, spent⟩

/-- Whatever a party is fed, `decrypt` moves it on, and an accepted packet spends a key. -/
theorem Standing.decrypt {p : Party} {fresh depth i r : Nat} {s : SymbolicState}
    (standing : Standing p fresh depth i r s) (ciphertext : Term) (header : MessageHeader Term) :
    ∃ s' depth' i' r' result,
      RatchetState.decrypt symbolicOps (.secret p fresh) s ciphertext header =
        .returns s' result ∧
      Standing p (fresh + 1) depth' i' r' s' ∧ Moves s depth i r s' depth' i' r' ∧
      depth ≤ depth' ∧ (SameRoot s s' ∨ Ratcheted p fresh header.dhPublic s s') ∧
      ∀ plaintext, result = .ok plaintext →
        Spends s depth r s' depth' r' ciphertext header plaintext := by
  cases stored : s.skippedKeys.lookup
      (symbolicOps.hexEncode header.dhPublic, header.messageNumber) with
  | some key =>
      obtain ⟨taken, onward, place, keyPlace, available, spent⟩ := standing.store.take stored
      refine ⟨_, depth, i, r, _, RatchetState.decrypt_stored symbolicOps _ ciphertext stored,
        Standing.fresher ⟨standing.turn, standing.root, standing.sending, standing.receiving,
          standing.secret, standing.publicKey, taken⟩, ⟨onward, fun _ spoken => spoken⟩,
        Nat.le_refl _, Or.inl ⟨rfl, rfl, rfl⟩, ?_⟩
      intro plaintext opened
      obtain ⟨nonce, shape⟩ := cipherDecrypt_eq_ok opened
      exact ⟨key, nonce, place, shape, keyPlace, available, spent⟩
  | none =>
      cases newKey : s.needRatchet header with
      | false =>
          obtain ⟨s', r', result, received, receivedAt, moved, same, spends⟩ :=
            standing.receive ciphertext header
          refine ⟨s', depth, i, r', result, ?_, receivedAt.fresher, moved, Nat.le_refl _,
            Or.inl same, spends⟩
          simp only [RatchetState.decrypt, SkippedKeys.take_of_none stored, newKey,
            Bool.false_eq_true, ↓reduceIte, received]
      | true =>
          obtain ⟨closed, r₁, outcome, skipped, closedAt, closes, same⟩ :=
            standing.skip header.previousChainLength
          cases outcome with
          | error e =>
              refine ⟨closed, depth, i, r₁, .error e, ?_, closedAt.fresher, closes, Nat.le_refl _,
                Or.inl same, ?_⟩
              · simp only [RatchetState.decrypt, SkippedKeys.take_of_none stored, newKey,
                  ↓reduceIte, RatchetState.ratchetStep, skipped]
              · intro plaintext impossible
                cases impossible
          | ok _ =>
              obtain ⟨ratcheted, ratchets, ratchetedAt, steps, installed, d, root, sending⟩ :=
                closedAt.ratchet header.dhPublic
              obtain ⟨s', r', result, received, receivedAt, moved, kept, spends⟩ :=
                ratchetedAt.receive ciphertext header
              refine ⟨s', depth + 2, 0, r', result, ?_, receivedAt,
                (closes.trans steps).trans moved, by omega,
                Or.inr ⟨kept.receivePublic.trans installed, d, ?_, ?_⟩, ?_⟩
              · simp only [RatchetState.decrypt, SkippedKeys.take_of_none stored, newKey,
                  ↓reduceIte, RatchetState.ratchetStep, skipped, ratchets, received]
              · rw [kept.root, root, same.root]
              · rw [kept.sending, sending, same.root]
              · intro plaintext opened
                obtain ⟨key, nonce, place, shape, keyPlace, available, spent⟩ :=
                  spends plaintext opened
                exact ⟨key, nonce, place, shape, keyPlace,
                  (closes.trans steps).onward.available place available, spent⟩

/-- Every public key of the other side that a state keeps, as the current one or as the
label of a stored key, has property `P`. -/
structure TookIn (P : Term → Prop) (s : SymbolicState) : Prop where
  receivePublic : ∀ theirs, s.dhReceivePublic = some theirs → P theirs
  labels : ∀ index, s.skippedKeys.Mentions index → P index.1

theorem TookIn.imp {P Q : Term → Prop} {s : SymbolicState} (tookIn : TookIn P s)
    (weaker : ∀ t, P t → Q t) : TookIn Q s :=
  ⟨fun theirs current => weaker theirs (tookIn.receivePublic theirs current),
    fun index mentioned => weaker index.1 (tookIn.labels index mentioned)⟩

theorem TookIn.congr {P : Term → Prop} {s s' : SymbolicState} (tookIn : TookIn P s)
    (receivePublic : s'.dhReceivePublic = s.dhReceivePublic)
    (store : s'.skippedKeys = s.skippedKeys) : TookIn P s' :=
  ⟨fun theirs current => tookIn.receivePublic theirs (receivePublic ▸ current),
    fun index mentioned => tookIn.labels index (store ▸ mentioned)⟩

theorem TookIn.skip {P : Term → Prop} {s : SymbolicState} (tookIn : TookIn P s)
    (noLabel : P (.atom 0)) (until_ : UInt32) :
    TookIn P (RatchetState.skipMissedMessages symbolicOps s until_).1 := by
  rcases RatchetState.skip_cases symbolicOps s until_ with
    ⟨-, still⟩ | ⟨-, -, e, refused⟩ | ⟨-, -, ck, -, caught⟩
  · rw [still]
    exact tookIn
  · rw [refused]
    exact tookIn
  · rw [caught]
    refine ⟨tookIn.receivePublic, ?_⟩
    intro index mentioned
    rcases RatchetState.mentions_skipLoop symbolicOps _ _ mentioned with label | old
    · rw [label]
      cases current : s.dhReceivePublic with
      | none => exact noLabel
      | some theirs => exact tookIn.receivePublic theirs current
    · exact tookIn.labels index old

theorem TookIn.receive {P : Term → Prop} {s : SymbolicState} (tookIn : TookIn P s)
    (noLabel : P (.atom 0)) (ciphertext : Term) (header : MessageHeader Term) :
    TookIn P (RatchetState.receiveOnChain symbolicOps s ciphertext header).1 := by
  have caught := tookIn.skip noLabel header.messageNumber
  unfold RatchetState.receiveOnChain
  split
  · rename_i skipped
    rw [skipped] at caught
    exact caught
  · rename_i skipped
    rw [skipped] at caught
    split
    · exact caught
    · dsimp only
      split <;> exact caught.congr rfl rfl

theorem TookIn.decrypt {P : Term → Prop} {s s' : SymbolicState} (tookIn : TookIn P s)
    (noLabel : P (.atom 0)) {keypair ciphertext : Term} {header : MessageHeader Term}
    {result : Except CryptoError Term} (arrives : P header.dhPublic)
    (call : RatchetState.decrypt symbolicOps keypair s ciphertext header = .returns s' result) :
    TookIn P s' := by
  cases stored : s.skippedKeys.lookup
      (symbolicOps.hexEncode header.dhPublic, header.messageNumber) with
  | some key =>
      rw [RatchetState.decrypt_stored symbolicOps keypair ciphertext stored] at call
      obtain ⟨rfl, -⟩ := Call.returns.inj call
      exact ⟨tookIn.receivePublic,
        fun index mentioned => tookIn.labels index (SkippedKeys.mentions_take mentioned)⟩
  | none =>
      rw [RatchetState.decrypt, SkippedKeys.take_of_none stored] at call
      dsimp only at call
      split at call
      · unfold RatchetState.ratchetStep at call
        have closes := tookIn.skip noLabel header.previousChainLength
        cases skipped :
          RatchetState.skipMissedMessages symbolicOps s header.previousChainLength with
        | mk closed outcome =>
            rw [skipped] at call closes
            cases outcome with
            | error e =>
                obtain ⟨rfl, -⟩ := Call.returns.inj call
                exact closes
            | ok _ =>
                obtain ⟨rfl, -⟩ := Call.returns.inj call
                apply TookIn.receive ?_ noLabel
                refine ⟨?_, closes.labels⟩
                intro theirs current
                obtain rfl := Option.some.inj current
                exact arrives
      · obtain ⟨rfl, -⟩ := Call.returns.inj call
        exact tookIn.receive noLabel ciphertext header

end Hysj.Symbolic
