import Hysj.Symbolic.World

set_option autoImplicit false

/- The invariant of every run under attack, and what it says about accepted packets. -/
namespace Hysj.Symbolic

open Ratchet
open Crypto (CryptoError)

/-- The packet is sealed under the key of `place`, with its own header as associated data. -/
def SealedAt (packet : Packet Term) (place : Nat × Nat) : Prop :=
  ∃ key nonce,
    packet.ciphertext = .aead key nonce (symbolicOps.headerToBytes packet.header)
      packet.plaintext ∧ key.keyPlace = some place

theorem SealedAt.unique {packet other : Packet Term} {place place' : Nat × Nat}
    (first : SealedAt packet place) (second : SealedAt other place')
    (same : packet.ciphertext = other.ciphertext) : packet = other ∧ place = place' := by
  obtain ⟨key, nonce, shape, keyPlace⟩ := first
  obtain ⟨key', nonce', shape', keyPlace'⟩ := second
  rw [shape, shape', Term.aead.injEq] at same
  obtain ⟨rfl, rfl, headers, plaintexts⟩ := same
  refine ⟨?_, Option.some.inj (keyPlace.symm.trans keyPlace')⟩
  have header := headerToBytes_injective headers
  cases packet
  cases other
  simp only at shape shape' header plaintexts
  simp only [Packet.mk.injEq]
  exact ⟨by rw [shape, shape', header, plaintexts], header, plaintexts⟩

/-- What holds of one party: its place, the packets it has sent and accepted, and that it
has taken in nothing but terms within the adversary's reach. -/
structure Guarded (observed : Set Term) (p : Party) (fresh depth i r : Nat) (s : SymbolicState)
    (sent accepted : List (Packet Term)) : Prop where
  standing : Standing p fresh depth i r s
  sealed : ∀ packet ∈ sent, ∃ place, SealedAt packet place ∧ Spoken depth i place
  headers : ∀ packet ∈ sent, ∃ n, packet.header.dhPublic = .pub (.secret p n)
  chosen : ∀ packet ∈ sent, Exposed ∅ observed packet.plaintext
  spent : ∀ packet ∈ accepted,
    ∃ place, SealedAt packet place ∧ ¬ Available s.skippedKeys depth r place
  tookIn : TookIn (Exposed ∅ observed) s

theorem Guarded.widen {observed wider : Set Term} {p : Party} {fresh depth i r : Nat}
    {s : SymbolicState} {sent accepted : List (Packet Term)}
    (guarded : Guarded observed p fresh depth i r s sent accepted) (widens : observed ⊆ wider) :
    Guarded wider p fresh depth i r s sent accepted where
  standing := guarded.standing
  sealed := guarded.sealed
  headers := guarded.headers
  chosen packet member := (guarded.chosen packet member).mono (Set.Subset.refl ∅) widens
  spent := guarded.spent
  tookIn := guarded.tookIn.imp (Exposed.mono (Set.Subset.refl ∅) widens)

/-- The invariant of a world: both parties are guarded, and what one accepted the other
sent, no packet twice. -/
structure Secure (w : World) : Prop where
  parties : ∀ p, ∃ depth i r,
    Guarded w.observed p (w.fresh p) depth i r (w.state p) (w.sent p) (w.accepted p)
  once : ∀ p, (w.accepted p).Nodup
  matched : ∀ p, w.accepted p ⊆ w.sent p.peer

theorem Secure.knowledge {w : World} (secure : Secure w) (leaked : Set Term) :
    ∀ t ∈ w.knowledge, Exposed leaked w.observed t := by
  rintro t (⟨p, n, rfl⟩ | ⟨p, packet, member, rfl | rfl⟩)
  · trivial
  · obtain ⟨depth, i, r, guarded⟩ := secure.parties p
    obtain ⟨place, ⟨key, nonce, shape, -⟩, -⟩ := guarded.sealed packet member
    rw [shape]
    refine ⟨(guarded.chosen packet member).mono (Set.empty_subset leaked) (Set.Subset.refl _),
      Or.inl ⟨p, packet, member, shape.symm⟩⟩
  · obtain ⟨depth, i, r, guarded⟩ := secure.parties p
    obtain ⟨n, own⟩ := guarded.headers packet member
    show Exposed leaked w.observed packet.header.dhPublic
    rw [own]
    trivial

theorem Guarded.silent {observed : Set Term} {p : Party} {fresh depth i r : Nat}
    {s : SymbolicState} (standing : Standing p fresh depth i r s)
    (tookIn : TookIn (Exposed ∅ observed) s) : Guarded observed p fresh depth i r s [] [] :=
  ⟨standing, List.forall_mem_nil _, List.forall_mem_nil _, List.forall_mem_nil _,
    List.forall_mem_nil _, tookIn⟩

theorem Secure.start : Secure World.start where
  parties p := by
    cases p with
    | alice =>
        refine ⟨1, 0, 0, Guarded.silent
          ⟨rfl, rfl, ?_, ?_, ⟨0, Nat.one_pos, rfl⟩, rfl, StoreAt.new 1 0⟩
          ⟨?_, fun index mentioned => absurd mentioned (SkippedKeys.not_mentions_new index)⟩⟩
        · intro ck present
          obtain rfl := Option.some.inj present
          exact ⟨Nat.le_refl 1, rfl⟩
        · intro ck present
          cases present
        · intro theirs current
          obtain rfl := Option.some.inj current
          trivial
    | bob =>
        refine ⟨0, 0, 0, Guarded.silent
          ⟨rfl, rfl, ?_, ?_, ⟨0, Nat.one_pos, rfl⟩, rfl, StoreAt.new 0 0⟩
          ⟨?_, fun index mentioned => absurd mentioned (SkippedKeys.not_mentions_new index)⟩⟩
        · intro ck present
          cases present
        · intro ck present
          cases present
        · intro theirs current
          cases current
  once _ := List.nodup_nil
  matched _ := List.Subset.refl _

theorem Guarded.encrypt {observed : Set Term} {p : Party} {fresh depth i r : Nat}
    {s s' : SymbolicState} {sent accepted : List (Packet Term)} {nonce : Nat}
    {plaintext ciphertext : Term} {header : MessageHeader Term}
    (guarded : Guarded observed p fresh depth i r s sent accepted)
    (reach : Exposed ∅ observed plaintext)
    (ok : RatchetState.encrypt symbolicOps nonce s plaintext = (s', .ok (ciphertext, header))) :
    Guarded observed p fresh depth (i + 1) r s' (⟨ciphertext, header, plaintext⟩ :: sent)
      accepted := by
  obtain ⟨standing, moves, sameReceive, sameStore, own, key, place, shape, keyPlace, spoken⟩ :=
    guarded.standing.encrypt ok
  refine ⟨standing, ?_, ?_, ?_, ?_, guarded.tookIn.congr sameReceive sameStore⟩
  · intro packet member
    rcases List.mem_cons.mp member with rfl | old
    · exact ⟨place, ⟨key, nonce, shape, keyPlace⟩, spoken⟩
    · obtain ⟨place', sealedAt, before⟩ := guarded.sealed packet old
      exact ⟨place', sealedAt, moves.spoken place' before⟩
  · intro packet member
    rcases List.mem_cons.mp member with rfl | old
    · obtain ⟨n, -, secret⟩ := guarded.standing.secret
      exact ⟨n, by rw [own, guarded.standing.publicKey, secret]⟩
    · exact guarded.headers packet old
  · intro packet member
    rcases List.mem_cons.mp member with rfl | old
    · exact reach
    · exact guarded.chosen packet old
  · intro packet member
    obtain ⟨place', sealedAt, gone⟩ := guarded.spent packet member
    exact ⟨place', sealedAt, fun available => gone (moves.onward.available place' available)⟩

/-- A party that is fed something within the adversary's reach stays guarded. What it
accepts is sealed under a key that was available and is spent now. -/
theorem Guarded.feed {observed : Set Term} {p : Party} {fresh depth i r : Nat}
    {s s' : SymbolicState} {sent accepted : List (Packet Term)} {ciphertext : Term}
    {header : MessageHeader Term} {result : Except CryptoError Term}
    (guarded : Guarded observed p fresh depth i r s sent accepted)
    (reach : Exposed ∅ observed header.dhPublic)
    (call : RatchetState.decrypt symbolicOps (.secret p fresh) s ciphertext header =
      .returns s' result) :
    ∃ depth' i' r', Guarded observed p (fresh + 1) depth' i' r' s' sent accepted ∧
      ∀ plaintext, result = .ok plaintext → ∃ place,
        SealedAt ⟨ciphertext, header, plaintext⟩ place ∧
        Available s.skippedKeys depth r place ∧ ¬ Available s'.skippedKeys depth' r' place := by
  obtain ⟨left, depth', i', r', outcome, returned, standing, moves, -, -, spends⟩ :=
    guarded.standing.decrypt ciphertext header
  obtain ⟨rfl, rfl⟩ := Call.returns.inj (call.symm.trans returned)
  refine ⟨depth', i', r', ⟨standing, ?_, guarded.headers, guarded.chosen, ?_,
    guarded.tookIn.decrypt trivial reach call⟩, ?_⟩
  · intro packet member
    obtain ⟨place, sealedAt, spoken⟩ := guarded.sealed packet member
    exact ⟨place, sealedAt, moves.spoken place spoken⟩
  · intro packet member
    obtain ⟨place, sealedAt, gone⟩ := guarded.spent packet member
    exact ⟨place, sealedAt, fun available => gone (moves.onward.available place available)⟩
  · intro plaintext accepts
    obtain ⟨key, nonce, place, shape, keyPlace, available, gone⟩ := spends plaintext accepts
    exact ⟨place, ⟨key, nonce, shape, keyPlace⟩, available, gone⟩

theorem Guarded.accept {observed : Set Term} {p : Party} {fresh depth i r : Nat}
    {s s' : SymbolicState} {sent accepted : List (Packet Term)} {ciphertext plaintext : Term}
    {header : MessageHeader Term}
    (guarded : Guarded observed p fresh depth i r s sent accepted)
    (reach : Exposed ∅ observed header.dhPublic)
    (call : RatchetState.decrypt symbolicOps (.secret p fresh) s ciphertext header =
      .returns s' (.ok plaintext)) :
    ∃ depth' i' r', Guarded observed p (fresh + 1) depth' i' r' s' sent
      (⟨ciphertext, header, plaintext⟩ :: accepted) := by
  obtain ⟨depth', i', r', after, spends⟩ := guarded.feed reach call
  obtain ⟨place, sealedAt, -, gone⟩ := spends plaintext rfl
  refine ⟨depth', i', r', after.standing, after.sealed, after.headers, after.chosen, ?_,
    after.tookIn⟩
  intro packet member
  rcases List.mem_cons.mp member with rfl | old
  · exact ⟨place, sealedAt, gone⟩
  · exact after.spent packet old

/-- A packet sealed under a key of the session that the adversary can derive is a packet
that one of the parties sent. -/
theorem Secure.origin {w : World} (secure : Secure w) {packet : Packet Term} {place : Nat × Nat}
    (sealedAt : SealedAt packet place) (derivable : Derivable w.knowledge packet.ciphertext) :
    ∃ q, packet ∈ w.sent q := by
  have exposed := derivable.exposed (secure.knowledge ∅)
  obtain ⟨key, nonce, shape, keyPlace⟩ := sealedAt
  rw [shape] at exposed
  rcases exposed.2 with ⟨q, other, member, same⟩ | ⟨known, -⟩
  · obtain ⟨depth, i, r, guarded⟩ := secure.parties q
    obtain ⟨place', otherSealed, -⟩ := guarded.sealed other member
    have equal := (SealedAt.unique ⟨key, nonce, shape, keyPlace⟩ otherSealed
      (shape.trans same)).1
    exact ⟨q, equal ▸ member⟩
  · exact absurd known (unexposed_key keyPlace (fun _ none => absurd none (Set.notMem_empty _))
      (fun _ none => absurd none (Set.notMem_empty _))
      (fun _ none => absurd none (Set.notMem_empty _)))

theorem Secure.encrypt {w : World} (secure : Secure w) {p : Party} {nonce : Nat}
    {plaintext ciphertext : Term} {s : SymbolicState} {header : MessageHeader Term}
    (chosen : Derivable w.knowledge plaintext)
    (call : RatchetState.encrypt symbolicOps nonce (w.state p) plaintext =
      (s, .ok (ciphertext, header))) :
    Secure (w.said p s ⟨ciphertext, header, plaintext⟩) := by
  have widens := w.observed_said p s ⟨ciphertext, header, plaintext⟩
  refine ⟨?_, secure.once, fun q => List.Subset.trans (secure.matched q) (w.sent_said p s _ q.peer)⟩
  intro q
  obtain ⟨depth, i, r, guarded⟩ := secure.parties q
  rcases Party.eq_or_eq_peer p q with rfl | rfl
  · have after := guarded.encrypt (chosen.exposed (secure.knowledge ∅)) call
    refine ⟨depth, i + 1, r, ?_⟩
    simp only [World.said, Function.update_self] at widens ⊢
    exact after.widen widens
  · refine ⟨depth, i, r, ?_⟩
    have still := guarded.widen widens
    simp only [World.said, Function.update_of_ne (Party.peer_ne p)] at still ⊢
    exact still

/-- What a party accepts from the adversary is a packet of its peer, and a new one: its key
was available, while the keys of all it accepted before are spent. -/
theorem Secure.accepted {w : World} (secure : Secure w) {p : Party} {ciphertext plaintext : Term}
    {header : MessageHeader Term} {s : SymbolicState}
    (forged : World.Forged w p ciphertext header)
    (call : RatchetState.decrypt symbolicOps (.secret p (w.fresh p)) (w.state p) ciphertext
      header = .returns s (.ok plaintext)) :
    ⟨ciphertext, header, plaintext⟩ ∈ w.sent p.peer ∧
      (⟨ciphertext, header, plaintext⟩ : Packet Term) ∉ w.accepted p := by
  obtain ⟨depth, i, r, guarded⟩ := secure.parties p
  obtain ⟨depth', i', r', after, spends⟩ :=
    guarded.feed (forged.2.exposed (secure.knowledge ∅)) call
  obtain ⟨place, sealedAt, available, gone⟩ := spends plaintext rfl
  constructor
  · obtain ⟨q, member⟩ := secure.origin sealedAt forged.1
    rcases Party.eq_or_eq_peer p q with rfl | rfl
    · -- its own packets stand on chains it sends on, not on those it receives on
      obtain ⟨place', ownSealed, spoken⟩ := guarded.sealed _ member
      obtain rfl := (sealedAt.unique ownSealed rfl).2
      have passed : Passed depth' r' place := by
        by_contra ahead
        exact gone fun passed => absurd passed ahead
      have before := guarded.standing.turn
      have behind := after.standing.turn
      exact absurd passed.1 (by have other := spoken.1; omega)
    · exact member
  · intro again
    obtain ⟨place', oldSealed, spent⟩ := guarded.spent _ again
    obtain rfl := (sealedAt.unique oldSealed rfl).2
    exact spent available

theorem Secure.fed_parties {w : World} (secure : Secure w) {p : Party} {s : SymbolicState}
    {accepted : List (Packet Term)}
    (fed : ∃ depth i r,
      Guarded w.observed p (w.fresh p + 1) depth i r s (w.sent p) accepted) :
    ∀ q, ∃ depth i r, Guarded w.observed q ((w.fed p s accepted).fresh q) depth i r
      ((w.fed p s accepted).state q) (w.sent q) ((w.fed p s accepted).accepted q) := by
  intro q
  rcases Party.eq_or_eq_peer p q with rfl | rfl
  · simp only [World.fed, Function.update_self]
    exact fed
  · simp only [World.fed, Function.update_of_ne (Party.peer_ne p)]
    exact secure.parties p.peer

theorem Secure.accept {w : World} (secure : Secure w) {p : Party} {ciphertext plaintext : Term}
    {header : MessageHeader Term} {s : SymbolicState}
    (forged : World.Forged w p ciphertext header)
    (call : RatchetState.decrypt symbolicOps (.secret p (w.fresh p)) (w.state p) ciphertext
      header = .returns s (.ok plaintext)) :
    Secure (w.fed p s (⟨ciphertext, header, plaintext⟩ :: w.accepted p)) := by
  obtain ⟨fromPeer, fresh⟩ := secure.accepted forged call
  refine ⟨?_, ?_, ?_⟩
  · apply secure.fed_parties
    obtain ⟨depth, i, r, guarded⟩ := secure.parties p
    exact guarded.accept (forged.2.exposed (secure.knowledge ∅)) call
  · intro q
    show (Function.update w.accepted p _ q).Nodup
    by_cases same : q = p
    · rw [same, Function.update_self, List.nodup_cons]
      exact ⟨fresh, secure.once p⟩
    · rw [Function.update_of_ne same]
      exact secure.once q
  · intro q packet member
    show packet ∈ w.sent q.peer
    replace member : packet ∈ Function.update w.accepted p _ q := member
    by_cases same : q = p
    · rw [same, Function.update_self] at member
      rcases List.mem_cons.mp member with rfl | old
      · rw [same]
        exact fromPeer
      · rw [same]
        exact secure.matched p old
    · rw [Function.update_of_ne same] at member
      exact secure.matched q member

theorem Secure.reject {w : World} (secure : Secure w) {p : Party} {ciphertext : Term}
    {header : MessageHeader Term} {s : SymbolicState} {e : CryptoError}
    (forged : World.Forged w p ciphertext header)
    (call : RatchetState.decrypt symbolicOps (.secret p (w.fresh p)) (w.state p) ciphertext
      header = .returns s (.error e)) :
    Secure (w.fed p s (w.accepted p)) := by
  refine ⟨?_, ?_, ?_⟩
  · apply secure.fed_parties
    obtain ⟨depth, i, r, guarded⟩ := secure.parties p
    obtain ⟨depth', i', r', after, -⟩ :=
      guarded.feed (forged.2.exposed (secure.knowledge ∅)) call
    exact ⟨depth', i', r', after⟩
  · simp only [World.fed, Function.update_eq_self]
    exact secure.once
  · simp only [World.fed, Function.update_eq_self]
    exact secure.matched

theorem Secure.step {w w' : World} (secure : Secure w) (step : World.Step World.Forged w w') :
    Secure w' := by
  cases step with
  | encrypt p nonce plaintext s ciphertext header chosen call =>
      exact secure.encrypt chosen call
  | encryptError p nonce plaintext s e call =>
      rw [encrypt_error call, Function.update_eq_self]
      exact secure
  | accept p ciphertext header plaintext s forged call => exact secure.accept forged call
  | reject p ciphertext header s e forged call => exact secure.reject forged call

theorem Secure.run {w w' : World} (secure : Secure w) (run : World.Attack w w') : Secure w' := by
  induction run with
  | refl => exact secure
  | tail _ step ih => exact ih.step step

/-- Whatever the adversary feeds to the parties, no packet is accepted twice, and the
packets one party has accepted are, one for one, packets that the other had sent: the same
ciphertext, header and plaintext. -/
theorem accepted_subperm_sent {w : World} (run : World.Attack World.start w) (p : Party) :
    (w.accepted p).Nodup ∧ (w.accepted p).Subperm (w.sent p.peer) := by
  have secure := Secure.start.run run
  exact ⟨secure.once p, List.subperm_of_subset (secure.once p) (secure.matched p)⟩

/-- Alice sends one message, and Bob accepts it. -/
theorem accepted_subperm_sent_first :
    ∃ w, World.Attack World.start w ∧ w.accepted .bob = [firstPacket] ∧
      (w.accepted .bob).Nodup ∧ (w.accepted .bob).Subperm (w.sent .alice) := by
  obtain ⟨s, call, -⟩ := decrypt_first
  have forged := World.forged_of_delivered _ _ _ _ World.delivered_first
  have run := (Relation.ReflTransGen.single (World.step_first World.Forged)).tail
    (.accept .bob firstPacket.ciphertext firstPacket.header (.atom 7) s forged call)
  exact ⟨_, run, rfl, accepted_subperm_sent run .bob⟩

end Hysj.Symbolic
