import Hysj.Symbolic.Authenticity

set_option autoImplicit false

/- What a stolen state gives away, and that the keys already used are not part of it. -/
namespace Hysj.Symbolic

open Ratchet

/-- Every term of a state: keys, ratchet keys, and the store with its labels. -/
def leak (s : SymbolicState) : Set Term :=
  {t | t = s.rootKey ∨ s.sendingChainKey = some t ∨ s.receivingChainKey = some t ∨
    t = s.dhSendSecret ∨ t = s.dhSendPublic ∨ s.dhReceivePublic = some t ∨
    (∃ index, s.skippedKeys.lookup index = some t) ∨ ∃ n, s.skippedKeys.Mentions (t, n)}

theorem places_of_root {t : Term} {k : Nat} (root : t.rootDepth = some k) :
    t.chainPlace = none ∧ t.keyPlace = none := by
  cases t with
  | sharedSecret => exact ⟨rfl, rfl⟩
  | rootKey rk d => exact ⟨rfl, rfl⟩
  | _ => cases root

theorem places_of_chain {t : Term} {place : Nat × Nat} (chain : t.chainPlace = some place) :
    t.rootDepth = none ∧ t.keyPlace = none := by
  cases t with
  | chainKey rk d => exact ⟨rfl, rfl⟩
  | nextChain ck => exact ⟨rfl, rfl⟩
  | _ => cases chain

theorem places_of_key {t : Term} {place : Nat × Nat} (key : t.keyPlace = some place) :
    t.rootDepth = none ∧ t.chainPlace = none := by
  cases t with
  | messageKey ck => exact ⟨rfl, rfl⟩
  | _ => cases key

theorem places_of_exposed {observed : Set Term} {t : Term} (exposed : Exposed ∅ observed t) :
    t.rootDepth = none ∧ t.chainPlace = none ∧ t.keyPlace = none := by
  refine ⟨?_, ?_, ?_⟩
  · by_contra some_root
    obtain ⟨k, root⟩ := Option.ne_none_iff_exists'.mp some_root
    exact unexposed_root root (fun _ none => absurd none (Set.notMem_empty _)) exposed
  · by_contra some_chain
    obtain ⟨place, chain⟩ := Option.ne_none_iff_exists'.mp some_chain
    exact unexposed_chain chain (fun _ none => absurd none (Set.notMem_empty _))
      (fun _ none => absurd none (Set.notMem_empty _)) exposed
  · by_contra some_key
    obtain ⟨place, key⟩ := Option.ne_none_iff_exists'.mp some_key
    exact unexposed_key key (fun _ none => absurd none (Set.notMem_empty _))
      (fun _ none => absurd none (Set.notMem_empty _))
      (fun _ none => absurd none (Set.notMem_empty _)) exposed

theorem exposed_of_root {leaked observed : Set Term} {t : Term} {k : Nat}
    (root : t.rootDepth = some k) (member : t ∈ leaked) : Exposed leaked observed t := by
  cases t with
  | sharedSecret => exact member
  | rootKey rk d => exact Or.inl member
  | _ => cases root

theorem exposed_of_chain {leaked observed : Set Term} {t : Term} {place : Nat × Nat}
    (chain : t.chainPlace = some place) (member : t ∈ leaked) : Exposed leaked observed t := by
  cases t with
  | chainKey rk d => exact Or.inl member
  | nextChain ck => exact Or.inl member
  | _ => cases chain

theorem exposed_of_key {leaked observed : Set Term} {t : Term} {place : Nat × Nat}
    (key : t.keyPlace = some place) (member : t ∈ leaked) : Exposed leaked observed t := by
  cases t with
  | messageKey ck => exact Or.inl member
  | _ => cases key

/-- The keys in a stolen state: the current root key, the current chain keys, the stored
keys, and one private key. Everything else in it is public. -/
inductive Leaked (observed : Set Term) (p : Party) (fresh depth i r : Nat) (s : SymbolicState)
    (t : Term) : Prop where
  | root (root : t.rootDepth = some depth)
  | sending (started : 1 ≤ depth) (chain : t.chainPlace = some (depth - 1, i))
  | receiving (started : 2 ≤ depth) (chain : t.chainPlace = some (depth - 2, r))
  | stored (index : Term × UInt32) (present : s.skippedKeys.lookup index = some t)
      (place : Nat × Nat) (key : t.keyPlace = some place) (passed : Passed depth r place)
  | secret (n : Nat) (own : t = .secret p n) (drawn : n < fresh)
  | open_ (exposed : Exposed ∅ observed t)

theorem Guarded.leaked {observed : Set Term} {p : Party} {fresh depth i r : Nat}
    {s : SymbolicState} {sent accepted : List (Packet Term)}
    (guarded : Guarded observed p fresh depth i r s sent accepted) {t : Term}
    (member : t ∈ leak s) : Leaked observed p fresh depth i r s t := by
  have standing := guarded.standing
  rcases member with rfl | sending | receiving | rfl | rfl | current | ⟨index, present⟩ |
    ⟨n, mentioned⟩
  · exact .root standing.root
  · obtain ⟨started, chain⟩ := standing.sending t sending
    exact .sending started chain
  · obtain ⟨started, chain⟩ := standing.receiving t receiving
    exact .receiving started chain
  · obtain ⟨n, drawn, own⟩ := standing.secret
    exact .secret n own drawn
  · apply Leaked.open_
    rw [standing.publicKey]
    trivial
  · exact .open_ (guarded.tookIn.receivePublic t current)
  · obtain ⟨place, key, passed⟩ := standing.store.stocked index t present
    exact .stored index present place key passed
  · exact .open_ (guarded.tookIn.labels (t, n) mentioned)

theorem Guarded.exposed_leak {observed : Set Term} {p : Party} {fresh depth i r : Nat}
    {s : SymbolicState} {sent accepted : List (Packet Term)}
    (guarded : Guarded observed p fresh depth i r s sent accepted) :
    ∀ t ∈ leak s, Exposed (leak s) observed t := by
  intro t member
  cases guarded.leaked member with
  | root root => exact exposed_of_root root member
  | sending started chain => exact exposed_of_chain chain member
  | receiving started chain => exact exposed_of_chain chain member
  | stored index present place key passed => exact exposed_of_key key member
  | secret n own drawn =>
      rw [own] at member ⊢
      exact member
  | open_ exposed => exact exposed.mono (Set.empty_subset _) (Set.Subset.refl _)

theorem Leaked.rootDepth {observed : Set Term} {p : Party} {fresh depth i r k : Nat}
    {s : SymbolicState} {t : Term} (leaked : Leaked observed p fresh depth i r s t)
    (root : t.rootDepth = some k) : k = depth := by
  cases leaked with
  | root here => exact Option.some.inj (root.symm.trans here)
  | sending _ chain => rw [(places_of_chain chain).1] at root; cases root
  | receiving _ chain => rw [(places_of_chain chain).1] at root; cases root
  | stored _ _ _ key _ => rw [(places_of_key key).1] at root; cases root
  | secret n own _ => rw [own] at root; cases root
  | open_ exposed => rw [(places_of_exposed exposed).1] at root; cases root

theorem Leaked.chainPlace {observed : Set Term} {p : Party} {fresh depth i r k j : Nat}
    {s : SymbolicState} {t : Term} (leaked : Leaked observed p fresh depth i r s t)
    (place : t.chainPlace = some (k, j)) : (k + 1 = depth ∧ j = i) ∨ (k + 2 = depth ∧ j = r) := by
  cases leaked with
  | root root => rw [(places_of_root root).1] at place; cases place
  | sending started chain =>
      obtain ⟨rfl, rfl⟩ := Prod.mk.inj (Option.some.inj (chain.symm.trans place))
      exact Or.inl ⟨by omega, rfl⟩
  | receiving started chain =>
      obtain ⟨rfl, rfl⟩ := Prod.mk.inj (Option.some.inj (chain.symm.trans place))
      exact Or.inr ⟨by omega, rfl⟩
  | stored _ _ _ key _ => rw [(places_of_key key).2] at place; cases place
  | secret n own _ => rw [own] at place; cases place
  | open_ exposed => rw [(places_of_exposed exposed).2.1] at place; cases place

theorem Leaked.keyPlace {observed : Set Term} {p : Party} {fresh depth i r : Nat}
    {place : Nat × Nat} {s : SymbolicState} {t : Term}
    (leaked : Leaked observed p fresh depth i r s t) (key : t.keyPlace = some place) :
    Passed depth r place ∧ ∃ index, s.skippedKeys.lookup index = some t := by
  cases leaked with
  | root root => rw [(places_of_root root).2] at key; cases key
  | sending _ chain => rw [(places_of_chain chain).2] at key; cases key
  | receiving _ chain => rw [(places_of_chain chain).2] at key; cases key
  | stored index present place' here passed =>
      obtain rfl := Option.some.inj (here.symm.trans key)
      exact ⟨passed, index, present⟩
  | secret n own _ => rw [own] at key; cases key
  | open_ exposed => rw [(places_of_exposed exposed).2.2] at key; cases key

/-- A key is out of reach that lies behind both chains and is in no store. -/
theorem Guarded.unexposed {observed : Set Term} {p : Party} {fresh depth i r k j : Nat}
    {s : SymbolicState} {sent accepted : List (Packet Term)} {key : Term}
    (guarded : Guarded observed p fresh depth i r s sent accepted)
    (keyPlace : key.keyPlace = some (k, j)) (before : k + 1 ≤ depth)
    (behind : (k + 1 = depth → j < i) ∧ (k + 2 = depth → j < r))
    (unstored : ∀ t ∈ leak s, t.keyPlace ≠ some (k, j)) : ¬ Exposed (leak s) observed key := by
  apply unexposed_key keyPlace
  · intro t member k' root
    have depthHere := (guarded.leaked member).rootDepth root
    omega
  · intro t member j' chain
    rcases (guarded.leaked member).chainPlace chain with own | theirs <;> omega
  · exact unstored

/-- The keys of the packets a party has sent lie behind its sending chain, those of the
packets it has accepted are spent; its state gives away neither. -/
theorem Guarded.forward {observed : Set Term} {p : Party} {fresh depth i r : Nat}
    {s : SymbolicState} {sent accepted : List (Packet Term)}
    (guarded : Guarded observed p fresh depth i r s sent accepted) {packet : Packet Term}
    (used : packet ∈ sent ∨ packet ∈ accepted) :
    ∃ key nonce,
      packet.ciphertext = .aead key nonce (symbolicOps.headerToBytes packet.header)
        packet.plaintext ∧ ¬ Exposed (leak s) observed key := by
  rcases used with wasSent | wasAccepted
  · obtain ⟨⟨k, j⟩, ⟨key, nonce, shape, keyPlace⟩, spoken⟩ := guarded.sealed packet wasSent
    unfold Spoken at spoken
    refine ⟨key, nonce, shape, guarded.unexposed keyPlace (by omega) (by omega) ?_⟩
    intro t member key'
    have passed := ((guarded.leaked member).keyPlace key').1
    unfold Passed at passed
    omega
  · obtain ⟨⟨k, j⟩, ⟨key, nonce, shape, keyPlace⟩, gone⟩ := guarded.spent packet wasAccepted
    have passed : Passed depth r (k, j) := by
      by_contra ahead
      exact gone fun passed => absurd passed ahead
    have behind := passed
    unfold Passed at behind
    refine ⟨key, nonce, shape, guarded.unexposed keyPlace (by omega) (by omega) ?_⟩
    intro t member key'
    obtain ⟨index, present⟩ := ((guarded.leaked member).keyPlace key').2
    exact gone fun _ => ⟨index, t, present, key'⟩

/-- Whoever has seen the whole network and steals the state of a party cannot derive the
key of any packet that the party has sent or accepted. -/
theorem used_keys_underivable {w : World} (run : World.Attack World.start w) {p : Party}
    {packet : Packet Term} (used : packet ∈ w.sent p ∨ packet ∈ w.accepted p) :
    ∃ key nonce,
      packet.ciphertext = .aead key nonce (symbolicOps.headerToBytes packet.header)
        packet.plaintext ∧ ¬ Derivable (w.knowledge ∪ leak (w.state p)) key := by
  have secure := Secure.start.run run
  obtain ⟨depth, i, r, guarded⟩ := secure.parties p
  obtain ⟨key, nonce, shape, secret⟩ := guarded.forward used
  refine ⟨key, nonce, shape, ?_⟩
  intro derivable
  apply secret
  apply derivable.exposed
  rintro t (seen | stolen)
  · exact secure.knowledge (leak (w.state p)) t seen
  · exact guarded.exposed_leak t stolen

/-- Bob's state after he accepted a packet no longer gives its key away. -/
theorem used_keys_underivable_first :
    ∃ w, World.Attack World.start w ∧ firstPacket ∈ w.accepted .bob ∧
      ∃ key nonce,
        firstPacket.ciphertext = .aead key nonce (symbolicOps.headerToBytes firstPacket.header)
          firstPacket.plaintext ∧ ¬ Derivable (w.knowledge ∪ leak (w.state .bob)) key := by
  obtain ⟨s, call, -⟩ := decrypt_first
  have forged := World.forged_of_delivered _ _ _ _ World.delivered_first
  have run := (Relation.ReflTransGen.single (World.step_first World.Forged)).tail
    (.accept .bob firstPacket.ciphertext firstPacket.header (.atom 7) s forged call)
  have member : firstPacket ∈ (World.first.fed .bob s [firstPacket]).accepted .bob :=
    List.mem_cons_self
  exact ⟨_, run, member, used_keys_underivable run (Or.inr member)⟩

end Hysj.Symbolic
