import Hysj.Ratchet.Conversation

set_option autoImplicit false

/- Where one party stands in the shared history of a session, and what each
ratchet operation does to that place. Chains are numbered in the order in which
they come into being: Alice sends on the odd ones and Bob on the even ones. -/
namespace Hysj.Ratchet

variable {β κ ν ℓ : Type} [DecidableEq ℓ]

/-- A root step of the session: the secret of the chain's sender, and the root key
and chain key it produced. Link 0 is Bob's pre-key and the shared secret. -/
structure Link (β κ : Type) where
  secret : κ
  root : β
  chain : β

/-- The public key in the headers of chain `d`. -/
def Link.publicKey (ops : Ops β κ ν ℓ) (link : Link β κ) : β :=
  ops.toVec (ops.publicKey link.secret)

/-- Link `d + 1` follows from link `d` by one root-key derivation. -/
def Linked (ops : Ops β κ ν ℓ) (links : Nat → Link β κ) (d : Nat) : Prop :=
  ops.deriveRootKey (links d).root
      (ops.toVec (ops.diffieHellman (links (d + 1)).secret (ops.publicKey (links d).secret))) =
    ((links (d + 1)).root, (links (d + 1)).chain)

/-- Message `n` of chain `e` lies behind a party that sends on chain `d` and has
received up to number `r` of chain `d - 1`. -/
def Seen (d r e n : Nat) : Prop := e + 1 < d ∨ (e + 1 = d ∧ n < r)

theorem Seen.lt {d r e n : Nat} (seen : Seen d r e n) : e < d := by
  unfold Seen at seen
  omega

theorem Seen.mono {d r r' e n : Nat} (seen : Seen d r e n) (further : r ≤ r') :
    Seen d r' e n := by
  unfold Seen at seen ⊢
  omega

/-- The state of a party that sends on chain `d` and has received up to number `r`
of chain `d - 1`. -/
structure PartyAt (ops : Ops β κ ν ℓ) (links : Nat → Link β κ) (sent : Nat → Nat) (d r : Nat)
    (s : RatchetState β κ ℓ) : Prop where
  rootKey : s.rootKey = (links d).root
  sending : s.sendingChainKey =
    if d = 0 then none else some (chainKeyAt ops (links d).chain (sent d))
  receiving : s.receivingChainKey =
    if d < 2 then none else some (chainKeyAt ops (links (d - 1)).chain r)
  secret : s.dhSendSecret = ops.toVec (links d).secret
  publicKey : s.dhSendPublic = (links d).publicKey ops
  peerPublic : s.dhReceivePublic =
    if d = 0 then none else some ((links (d - 1)).publicKey ops)
  sendNumber : s.sendMessageNumber.toNat = sent d
  recvNumber : s.recvMessageNumber.toNat = r
  previousLength : s.previousSendingChainLength.toNat = sent (d - 2)
  idle : d < 2 → r = 0
  received : r ≤ sent (d - 1)
  labels : ∀ index key, s.skippedKeys.lookup index = some key →
    ∃ e, index.1 = ops.hexEncode ((links e).publicKey ops) ∧ Seen d r e index.2.toNat

/-- The store holds the key of a message that the party has already passed. -/
def Holds (ops : Ops β κ ν ℓ) (links : Nat → Link β κ) (d r : Nat) (s : RatchetState β κ ℓ)
    (e : Nat) (n : UInt32) : Prop :=
  Seen d r e n.toNat →
    s.skippedKeys.lookup (ops.hexEncode ((links e).publicKey ops), n) =
      some (messageKeyAt ops (links e).chain n.toNat)

theorem PartyAt.congr {ops : Ops β κ ν ℓ} {links other : Nat → Link β κ} {sent : Nat → Nat}
    {d r : Nat} {s : RatchetState β κ ℓ} (at_ : PartyAt ops links sent d r s)
    (same : ∀ i ≤ d, other i = links i) : PartyAt ops other sent d r s := by
  have here := same d (Nat.le_refl d)
  have before := same (d - 1) (by omega)
  refine ⟨?_, ?_, ?_, ?_, ?_, ?_, at_.sendNumber, at_.recvNumber, at_.previousLength,
    at_.idle, at_.received, ?_⟩
  · rw [here, at_.rootKey]
  · rw [here, at_.sending]
  · rw [before, at_.receiving]
  · rw [here, at_.secret]
  · rw [here, at_.publicKey]
  · rw [before, at_.peerPublic]
  · intro index key present
    obtain ⟨e, label, seen⟩ := at_.labels index key present
    exact ⟨e, by rw [same e (Nat.le_of_lt seen.lt), label], seen⟩

theorem Holds.congr {ops : Ops β κ ν ℓ} {links other : Nat → Link β κ} {d r : Nat}
    {s : RatchetState β κ ℓ} {e : Nat} {n : UInt32} (holds : Holds ops links d r s e n)
    (same : other e = links e) : Holds ops other d r s e n := by
  intro seen
  rw [same]
  exact holds seen

/-- The keys of different chains have different labels. -/
def Distinct (ops : Ops β κ ν ℓ) (links : Nat → Link β κ) (top : Nat) : Prop :=
  ∀ i j, i ≤ top → j ≤ top → (links i).publicKey ops = (links j).publicKey ops → i = j

theorem PartyAt.lookup_ahead {ops : Ops β κ ν ℓ} {links : Nat → Link β κ} {sent : Nat → Nat}
    {d r top : Nat} {s : RatchetState β κ ℓ} (lawful : ops.Lawful)
    (at_ : PartyAt ops links sent d r s) (distinct : Distinct ops links top) (bound : d ≤ top)
    {e : Nat} {n : UInt32} (inside : e ≤ top) (ahead : ¬ Seen d r e n.toNat) :
    s.skippedKeys.lookup (ops.hexEncode ((links e).publicKey ops), n) = none := by
  cases present : s.skippedKeys.lookup (ops.hexEncode ((links e).publicKey ops), n) with
  | none => rfl
  | some key =>
      obtain ⟨e', label, seen⟩ := at_.labels _ key present
      have below := seen.lt
      have same := distinct e e' inside (by omega) (lawful.hexInjective label)
      subst same
      exact absurd seen ahead

/-- Skipping to a number the peer has reached moves the party there and stores the
keys it passes. -/
theorem PartyAt.skip {ops : Ops β κ ν ℓ} {links : Nat → Link β κ} {sent : Nat → Nat}
    {d r top : Nat} {s : RatchetState β κ ℓ} (lawful : ops.Lawful)
    (at_ : PartyAt ops links sent d r s) (distinct : Distinct ops links top) (bound : d ≤ top)
    (until_ : UInt32) (ahead : r ≤ until_.toNat) (reached : until_.toNat ≤ sent (d - 1))
    (narrow : Conversation.gap s until_ ≤ MAX_SKIP.toNat)
    (none_sent : d < 2 → sent (d - 1) = 0)
    (room : s.skippedKeys.len +
      (if s.receivingChainKey.isSome then Conversation.gap s until_ else 0) ≤ MAX_SKIPPED_KEYS) :
    ∃ s', RatchetState.skipMissedMessages ops s until_ = (s', .ok ()) ∧
      PartyAt ops links sent d until_.toNat s' ∧
      s'.skippedKeys.len ≤ s.skippedKeys.len +
        (if s.receivingChainKey.isSome then Conversation.gap s until_ else 0) ∧
      ∀ e n, e ≤ top → Holds ops links d r s e n → Holds ops links d until_.toNat s' e n := by
  have aheadWord : s.recvMessageNumber ≤ until_ := by
    rw [UInt32.le_iff_toNat_le, at_.recvNumber]
    exact ahead
  have difference : (until_ - s.recvMessageNumber).toNat = until_.toNat - r := by
    rw [UInt32.toNat_sub_of_le _ _ aheadWord, at_.recvNumber]
  have narrowWord : until_ - s.recvMessageNumber ≤ MAX_SKIP := by
    rw [UInt32.le_iff_toNat_le, difference]
    simpa only [Conversation.gap, at_.recvNumber] using narrow
  by_cases first : d < 2
  · have same : until_.toNat = r := by
      have zero := none_sent first
      have idle := at_.idle first
      omega
    have noChain : s.receivingChainKey = none := by rw [at_.receiving, if_pos first]
    refine ⟨s, RatchetState.skip_noChain ops aheadWord narrowWord noChain, ?_,
      by simp [noChain], ?_⟩
    · rw [same]
      exact at_
    · intro e n _ holds
      rw [same]
      exact holds
  · have chain : s.receivingChainKey = some (chainKeyAt ops (links (d - 1)).chain r) := by
      rw [at_.receiving, if_neg first]
    have peer : s.dhReceivePublic = some ((links (d - 1)).publicKey ops) := by
      rw [at_.peerPublic, if_neg (by omega)]
    have gapValue : Conversation.gap s until_ = until_.toNat - r := by
      simp only [Conversation.gap, at_.recvNumber]
    have roomWord : s.skippedKeys.len + (until_.toNat - r) ≤ MAX_SKIPPED_KEYS := by
      simpa only [chain, Option.isSome_some, ↓reduceIte, gapValue] using room
    have noWrap : s.recvMessageNumber.toNat + (until_.toNat - r) < 2 ^ 32 := by
      have small := until_.toNat_lt
      rw [at_.recvNumber]
      omega
    refine ⟨_, RatchetState.skip_onChain ops aheadWord narrowWord chain, ?_, ?_, ?_⟩
    · refine ⟨at_.rootKey, at_.sending, ?_, at_.secret, at_.publicKey, at_.peerPublic,
        at_.sendNumber, rfl, at_.previousLength, fun small => absurd small first, reached, ?_⟩
      · simp only [RatchetState.caughtUp, difference, if_neg first, chainKeyAt_add]
        rw [Nat.add_sub_of_le ahead]
      · intro index key present
        obtain ⟨hex, m⟩ := index
        simp only [RatchetState.caughtUp, difference] at present
        rw [RatchetState.lookup_skipLoop ops _ _ _ _ _ roomWord noWrap] at present
        split at present
        · rename_i passed
          refine ⟨d - 1, ?_, Or.inr ⟨by omega, ?_⟩⟩
          · simpa only [peer, Option.map_some, Option.getD_some] using passed.1
          · have upper := passed.2.2
            rw [at_.recvNumber] at upper
            dsimp only
            omega
        · obtain ⟨e, label, seen⟩ := at_.labels _ key present
          exact ⟨e, label, seen.mono ahead⟩
    · simp only [chain, Option.isSome_some, ↓reduceIte, gapValue, RatchetState.caughtUp, difference]
      exact RatchetState.len_skipLoop_le ops _ _ _ _ _ roomWord
    · intro e n inside holds seen
      simp only [RatchetState.caughtUp, difference]
      rw [RatchetState.lookup_skipLoop ops _ _ _ _ _ roomWord noWrap]
      simp only [peer, Option.map_some, Option.getD_some, at_.recvNumber]
      by_cases here : e + 1 = d ∧ r ≤ n.toNat
      · have small : n.toNat < until_.toNat := by
          rcases seen with below | ⟨_, small⟩
          · omega
          · exact small
        have index : e = d - 1 := by omega
        have covered : n.toNat < r + (until_.toNat - r) := by omega
        rw [if_pos ⟨by rw [index], here.2, covered⟩, messageKeyAt_add, index,
          Nat.add_sub_of_le here.2]
      · have old : Seen d r e n.toNat := by
          rcases seen with below | ⟨same, small⟩
          · exact Or.inl below
          · exact Or.inr ⟨same, by omega⟩
        have elsewhere : ¬ (ops.hexEncode ((links e).publicKey ops) =
            ops.hexEncode ((links (d - 1)).publicKey ops) ∧ r ≤ n.toNat ∧
              n.toNat < r + (until_.toNat - r)) := by
          rintro ⟨label, lower, _⟩
          have same := distinct e (d - 1) inside (by omega) (lawful.hexInjective label)
          exact here ⟨by omega, lower⟩
        rw [if_neg elsewhere]
        exact holds old

/-- The link that a party opens when it ratchets onto the chain `d` of its peer. -/
def nextLink (ops : Ops β κ ν ℓ) (links : Nat → Link β κ) (d : Nat) (keypair : κ) : Link β κ :=
  let derived := ops.deriveRootKey (links d).root
    (ops.toVec (ops.diffieHellman keypair (ops.publicKey (links d).secret)))
  ⟨keypair, derived.1, derived.2⟩

omit [DecidableEq ℓ] in
theorem linked_nextLink (ops : Ops β κ ν ℓ) (links : Nat → Link β κ) (d : Nat) (keypair : κ) :
    Linked ops (Function.update links (d + 1) (nextLink ops links d keypair)) d := by
  unfold Linked
  rw [Function.update_self, Function.update_of_ne (by omega)]
  rfl

omit [DecidableEq ℓ] in
theorem linked_extend {ops : Ops β κ ν ℓ} {links : Nat → Link β κ} {d : Nat} (keypair : κ)
    (linked : ∀ i < d, Linked ops links i) :
    ∀ i < d + 1, Linked ops (Function.update links (d + 1) (nextLink ops links d keypair)) i := by
  intro i below
  by_cases last : i = d
  · rw [last]
    exact linked_nextLink ops links d keypair
  · have link := linked i (by omega)
    unfold Linked at link ⊢
    rw [Function.update_of_ne (by omega), Function.update_of_ne (by omega)]
    exact link

omit [DecidableEq ℓ] in
theorem Distinct.extend {ops : Ops β κ ν ℓ} {links : Nat → Link β κ} {d : Nat} {keypair : κ}
    (distinct : Distinct ops links d)
    (fresh : ∀ i ≤ d, (links i).publicKey ops ≠ ops.toVec (ops.publicKey keypair)) :
    Distinct ops (Function.update links (d + 1) (nextLink ops links d keypair)) (d + 1) := by
  intro i j iBelow jBelow same
  by_cases iLast : i = d + 1
  · by_cases jLast : j = d + 1
    · rw [iLast, jLast]
    · rw [iLast, Function.update_self, Function.update_of_ne jLast] at same
      exact absurd same.symm (fresh j (by omega))
  · by_cases jLast : j = d + 1
    · rw [jLast, Function.update_self, Function.update_of_ne iLast] at same
      exact absurd same (fresh i (by omega))
    · rw [Function.update_of_ne iLast, Function.update_of_ne jLast] at same
      exact distinct i j (by omega) (by omega) same

/-- What `dh_ratchet` leaves when it derives the peer's link `d + 1`. -/
def ratcheted (ops : Ops β κ ν ℓ) (links : Nat → Link β κ) (d : Nat) (s : RatchetState β κ ℓ)
    (keypair : κ) : RatchetState β κ ℓ :=
  let next := nextLink ops links (d + 1) keypair
  { rootKey := next.root
    sendingChainKey := some next.chain
    receivingChainKey := some (links (d + 1)).chain
    dhSendSecret := ops.toVec keypair
    dhSendPublic := next.publicKey ops
    dhReceivePublic := some ((links (d + 1)).publicKey ops)
    sendMessageNumber := 0
    recvMessageNumber := 0
    previousSendingChainLength := s.sendMessageNumber
    skippedKeys := s.skippedKeys }

/-- A DH ratchet onto chain `d + 1` derives the peer's link `d + 1` and opens link
`d + 2`; the store is not touched. -/
theorem PartyAt.ratchet {ops : Ops β κ ν ℓ} {links : Nat → Link β κ} {sent : Nat → Nat}
    {d : Nat} {s : RatchetState β κ ℓ} (lawful : ops.Lawful)
    (at_ : PartyAt ops links sent d (sent (d - 1)) s) (linked : Linked ops links d)
    (unsent : sent (d + 2) = 0) (keypair : κ) :
    ∃ s', RatchetState.dhRatchet ops keypair s ((links (d + 1)).publicKey ops) = some s' ∧
      PartyAt ops (Function.update links (d + 2) (nextLink ops links (d + 1) keypair)) sent
        (d + 2) 0 s' ∧
      s'.skippedKeys = s.skippedKeys := by
  have agreed : ops.deriveRootKey s.rootKey (ops.toVec
      (ops.diffieHellman (links d).secret (ops.publicKey (links (d + 1)).secret))) =
      ((links (d + 1)).root, (links (d + 1)).chain) := by
    rw [at_.rootKey, lawful.commutes]
    exact linked
  refine ⟨ratcheted ops links d s keypair, ?_, ?_, rfl⟩
  · simp only [RatchetState.dhRatchet, Link.publicKey, lawful.copy32_toVec, at_.secret,
      Option.bind_eq_bind, Option.bind_some, agreed]
    rfl
  · refine ⟨?_, ?_, ?_, ?_, ?_, ?_, ?_, rfl, at_.sendNumber, fun _ => rfl, Nat.zero_le _, ?_⟩
    · rw [Function.update_self]
      rfl
    · rw [Function.update_self, unsent]
      rfl
    · rw [if_neg (by omega), Function.update_of_ne (by omega)]
      rfl
    · rw [Function.update_self]
      rfl
    · rw [Function.update_self]
      rfl
    · rw [if_neg (by omega), Function.update_of_ne (by omega)]
      rfl
    · rw [unsent]
      rfl
    · intro index key present
      obtain ⟨e, label, seen⟩ := at_.labels index key present
      have below := seen.lt
      refine ⟨e, ?_, Or.inl (by omega)⟩
      rw [Function.update_of_ne (by omega), label]

/-- Receiving message `n` of the current chain: everything before it is skipped, its
own key opens it, and the chain moves one past it. -/
theorem PartyAt.receive {ops : Ops β κ ν ℓ} {links : Nat → Link β κ} {sent : Nat → Nat}
    {d r top : Nat} {s : RatchetState β κ ℓ} {packet : Packet β} (lawful : ops.Lawful)
    (at_ : PartyAt ops links sent d r s) (distinct : Distinct ops links top) (bound : d ≤ top)
    (started : 2 ≤ d) (ahead : r ≤ packet.header.messageNumber.toNat)
    (reached : packet.header.messageNumber.toNat < sent (d - 1)) (bounded : sent (d - 1) < 2 ^ 32)
    (narrow : Conversation.gap s packet.header.messageNumber ≤ MAX_SKIP.toNat)
    (room : s.skippedKeys.len + Conversation.gap s packet.header.messageNumber ≤ MAX_SKIPPED_KEYS)
    (opens : ops.cipherDecrypt packet.ciphertext
      (messageKeyAt ops (links (d - 1)).chain packet.header.messageNumber.toNat)
      (ops.headerToBytes packet.header) = .ok packet.plaintext) :
    ∃ s', RatchetState.receiveOnChain ops s packet.ciphertext packet.header =
        (s', .ok packet.plaintext) ∧
      PartyAt ops links sent d (packet.header.messageNumber.toNat + 1) s' ∧
      ∀ e n, e ≤ top → ¬ (e = d - 1 ∧ n = packet.header.messageNumber) →
        Holds ops links d r s e n →
          Holds ops links d (packet.header.messageNumber.toNat + 1) s' e n := by
  have chain : s.receivingChainKey.isSome := by
    rw [at_.receiving, if_neg (by omega)]
    rfl
  obtain ⟨caught, skipped, caughtAt, -, kept⟩ := at_.skip lawful distinct bound
    packet.header.messageNumber ahead (by omega) narrow (by omega) (by simpa [chain] using room)
  have current : caught.receivingChainKey =
      some (chainKeyAt ops (links (d - 1)).chain packet.header.messageNumber.toNat) := by
    rw [caughtAt.receiving, if_neg (by omega)]
  have next : (caught.recvMessageNumber + 1).toNat = packet.header.messageNumber.toNat + 1 := by
    rw [RatchetState.toNat_succ (by rw [caughtAt.recvNumber]; omega), caughtAt.recvNumber]
  refine ⟨{ caught with
      receivingChainKey := some (chainKeyAt ops (links (d - 1)).chain
        (packet.header.messageNumber.toNat + 1))
      recvMessageNumber := caught.recvMessageNumber + 1 }, ?_, ?_, ?_⟩
  · simp only [RatchetState.receiveOnChain, skipped, current, chainKeyAt_succ]
    rw [show (ops.deriveChainKey (chainKeyAt ops (links (d - 1)).chain
      packet.header.messageNumber.toNat)).2 = messageKeyAt ops (links (d - 1)).chain
        packet.header.messageNumber.toNat from rfl, opens]
  · refine ⟨caughtAt.rootKey, caughtAt.sending, ?_, caughtAt.secret, caughtAt.publicKey,
      caughtAt.peerPublic, caughtAt.sendNumber, next, caughtAt.previousLength,
      fun small => absurd small (by omega), reached, ?_⟩
    · rw [if_neg (by omega)]
    · intro index key present
      obtain ⟨e, label, seen⟩ := caughtAt.labels index key present
      exact ⟨e, label, seen.mono (Nat.le_succ _)⟩
  · intro e n inside other holds seen
    apply kept e n inside holds
    rcases seen with below | ⟨here, small⟩
    · exact Or.inl below
    · refine Or.inr ⟨here, ?_⟩
      have different : n.toNat ≠ packet.header.messageNumber.toNat :=
        fun same => other ⟨by omega, UInt32.toNat.inj same⟩
      omega

/-- Using a stored key takes it out of the store and changes nothing else. -/
theorem PartyAt.take {ops : Ops β κ ν ℓ} {links : Nat → Link β κ} {sent : Nat → Nat}
    {d r top e : Nat} {n : UInt32} {s : RatchetState β κ ℓ} (lawful : ops.Lawful)
    (at_ : PartyAt ops links sent d r s) (distinct : Distinct ops links top) (inside : e ≤ top) :
    let left := { s with
      skippedKeys := (s.skippedKeys.take (ops.hexEncode ((links e).publicKey ops), n)).2 }
    PartyAt ops links sent d r left ∧
      ∀ e' n', e' ≤ top → ¬ (e' = e ∧ n' = n) → Holds ops links d r s e' n' →
        Holds ops links d r left e' n' := by
  constructor
  · refine ⟨at_.rootKey, at_.sending, at_.receiving, at_.secret, at_.publicKey, at_.peerPublic,
      at_.sendNumber, at_.recvNumber, at_.previousLength, at_.idle, at_.received, ?_⟩
    intro index key present
    rw [SkippedKeys.lookup_take] at present
    split at present
    · cases present
    · exact at_.labels index key present
  · intro e' n' inside' other holds seen
    have different : (ops.hexEncode ((links e').publicKey ops), n') ≠
        (ops.hexEncode ((links e).publicKey ops), n) := by
      intro same
      have label := lawful.hexInjective (congrArg Prod.fst same)
      exact other ⟨distinct e' e inside' inside label, congrArg Prod.snd same⟩
    rw [SkippedKeys.lookup_take, if_neg different]
    exact holds seen

/-- The place of a party does not change when the peer sends more. -/
theorem PartyAt.mono {ops : Ops β κ ν ℓ} {links : Nat → Link β κ} {sent more : Nat → Nat}
    {d r : Nat} {s : RatchetState β κ ℓ} (at_ : PartyAt ops links sent d r s)
    (own : more d = sent d) (peers : sent (d - 1) ≤ more (d - 1))
    (previous : more (d - 2) = sent (d - 2)) : PartyAt ops links more d r s := by
  refine ⟨at_.rootKey, ?_, at_.receiving, at_.secret, at_.publicKey, at_.peerPublic, ?_,
    at_.recvNumber, ?_, at_.idle, Nat.le_trans at_.received peers, at_.labels⟩
  · rw [own, at_.sending]
  · rw [own, at_.sendNumber]
  · rw [previous, at_.previousLength]

/-- A party that encrypts holds a sending chain and uses the next key of it. -/
theorem PartyAt.encrypts {ops : Ops β κ ν ℓ} {links : Nat → Link β κ} {sent : Nat → Nat}
    {d r : Nat} {s s' : RatchetState β κ ℓ} {nonce : ν} {plaintext ciphertext : β}
    {header : MessageHeader β} (at_ : PartyAt ops links sent d r s)
    (room : s.sendMessageNumber.toNat + 1 < 2 ^ 32)
    (ok : RatchetState.encrypt ops nonce s plaintext = (s', .ok (ciphertext, header))) :
    d ≠ 0 ∧
      header = ⟨(links d).publicKey ops, s.previousSendingChainLength, s.sendMessageNumber⟩ ∧
      ops.cipherEncrypt nonce plaintext (messageKeyAt ops (links d).chain (sent d))
        (ops.headerToBytes header) = .ok ciphertext ∧
      PartyAt ops links (Function.update sent d (sent d + 1)) d r s' ∧
      s'.skippedKeys = s.skippedKeys := by
  by_cases first : d = 0
  · simp only [RatchetState.encrypt, at_.sending, if_pos first, Prod.mk.injEq, reduceCtorEq,
      and_false] at ok
  · simp only [RatchetState.encrypt, at_.sending, if_neg first] at ok
    split at ok
    · cases ok
    · rename_i sealed success
      simp only [Prod.mk.injEq, Except.ok.injEq] at ok
      obtain ⟨rfl, rfl, rfl⟩ := ok
      refine ⟨first, by rw [at_.publicKey], success, ?_, rfl⟩
      refine ⟨at_.rootKey, ?_, at_.receiving, at_.secret, at_.publicKey, at_.peerPublic, ?_,
        at_.recvNumber, ?_, at_.idle, ?_, at_.labels⟩
      · rw [if_neg first, Function.update_self, chainKeyAt_succ]
      · rw [Function.update_self, RatchetState.toNat_succ room, at_.sendNumber]
      · rw [Function.update_of_ne (by omega), at_.previousLength]
      · rw [Function.update_of_ne (by omega)]
        exact at_.received

end Hysj.Ratchet
