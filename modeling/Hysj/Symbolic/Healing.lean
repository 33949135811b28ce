import Hysj.Symbolic.ForwardSecrecy

set_option autoImplicit false

/- How a party recovers from a stolen state: the second root step of its next ratchet uses
a private key that is drawn afterwards. -/
namespace Hysj.Symbolic

open Ratchet

/-- The root steps behind any key of the session. -/
def Term.level : Term → Option Nat
  | .sharedSecret => some 0
  | .rootKey rk _ => rk.level.map fun level => level + 1
  | .chainKey rk _ => rk.level
  | .nextChain ck => ck.level
  | .messageKey ck => ck.level
  | _ => none

theorem level_of_root {t : Term} {k : Nat} (root : t.rootDepth = some k) : t.level = some k := by
  induction t generalizing k with
  | sharedSecret => exact root
  | rootKey rk d ih _ =>
      obtain ⟨k', inner, rfl⟩ := Option.map_eq_some_iff.mp root
      rw [Term.level, ih inner, Option.map_some]
  | _ => cases root

theorem level_of_chain {t : Term} {k j : Nat} (chain : t.chainPlace = some (k, j)) :
    t.level = some k := by
  induction t generalizing j with
  | chainKey rk d _ _ =>
      obtain ⟨k', root, same⟩ := Option.map_eq_some_iff.mp chain
      obtain ⟨rfl, -⟩ := Prod.mk.inj same
      show rk.level = _
      exact level_of_root root
  | nextChain ck ih =>
      obtain ⟨⟨k', j'⟩, inner, same⟩ := Option.map_eq_some_iff.mp chain
      obtain ⟨rfl, -⟩ := Prod.mk.inj same
      exact ih inner
  | _ => cases chain

theorem level_of_key {t : Term} {place : Nat × Nat} (key : t.keyPlace = some place) :
    t.level = some place.1 := by
  cases t with
  | messageKey ck =>
      show ck.level = _
      exact level_of_chain key
  | _ => cases key

/-- A term in the adversary's reach does not descend from the shared secret. -/
theorem level_of_exposed {observed : Set Term} {t : Term} (exposed : Exposed ∅ observed t) :
    t.level = none := by
  induction t with
  | sharedSecret => exact absurd exposed (Set.notMem_empty _)
  | rootKey rk d ih _ =>
      rcases exposed with none | ⟨known, -⟩
      · exact absurd none (Set.notMem_empty _)
      · rw [Term.level, ih known, Option.map_none]
  | chainKey rk d ih _ =>
      rcases exposed with none | ⟨known, -⟩
      · exact absurd none (Set.notMem_empty _)
      · exact ih known
  | nextChain ck ih =>
      rcases exposed with none | known
      · exact absurd none (Set.notMem_empty _)
      · exact ih known
  | messageKey ck ih =>
      rcases exposed with none | known
      · exact absurd none (Set.notMem_empty _)
      · exact ih known
  | _ => rfl

theorem Leaked.level_le {observed : Set Term} {p : Party} {fresh depth i r l : Nat}
    {s : SymbolicState} {t : Term} (leaked : Leaked observed p fresh depth i r s t)
    (level : t.level = some l) : l ≤ depth := by
  cases leaked with
  | root root =>
      obtain rfl := Option.some.inj (level.symm.trans (level_of_root root))
      exact Nat.le_refl _
  | sending started chain =>
      obtain rfl := Option.some.inj (level.symm.trans (level_of_chain chain))
      omega
  | receiving started chain =>
      obtain rfl := Option.some.inj (level.symm.trans (level_of_chain chain))
      omega
  | stored index present place key passed =>
      obtain rfl := Option.some.inj (level.symm.trans (level_of_key key))
      unfold Passed at passed
      omega
  | secret n own drawn =>
      rw [own] at level
      cases level
  | open_ exposed =>
      rw [level_of_exposed exposed] at level
      cases level

theorem Leaked.secret_iff {observed : Set Term} {p q : Party} {fresh depth i r n : Nat}
    {s : SymbolicState} (leaked : Leaked observed p fresh depth i r s (.secret q n)) :
    q = p ∧ n < fresh := by
  cases leaked with
  | root root => cases root
  | sending _ chain => cases chain
  | receiving _ chain => cases chain
  | stored _ _ _ key _ => cases key
  | secret m own drawn =>
      obtain ⟨rfl, rfl⟩ := Term.secret.inj own
      exact ⟨rfl, drawn⟩
  | open_ exposed => exact absurd exposed (Set.notMem_empty _)

/-- Everything the key schedule can derive from `base`, with whatever other inputs. -/
inductive Descends (base : Term) : Term → Prop where
  | refl : Descends base base
  | rootKey {rk : Term} (d : Term) : Descends base rk → Descends base (.rootKey rk d)
  | chainKey {rk : Term} (d : Term) : Descends base rk → Descends base (.chainKey rk d)
  | nextChain {ck : Term} : Descends base ck → Descends base (.nextChain ck)
  | messageKey {ck : Term} : Descends base ck → Descends base (.messageKey ck)

/-- What descends from an unexposed key of a later level than all that leaked is unexposed. -/
theorem Descends.unexposed {leaked observed : Set Term} {base t : Term} {top level : Nat}
    (bounded : ∀ t ∈ leaked, ∀ l, t.level = some l → l ≤ top) (above : top < level)
    (here : base.level = some level) (hidden : ¬ Exposed leaked observed base)
    (descends : Descends base t) :
    ¬ Exposed leaked observed t ∧ ∃ l, t.level = some l ∧ level ≤ l := by
  have missing : ∀ t l, t.level = some l → level ≤ l → t ∉ leaked := by
    intro t l here' beyond member
    have below := bounded t member l here'
    omega
  induction descends with
  | refl => exact ⟨hidden, level, here, Nat.le_refl _⟩
  | rootKey d _ ih =>
      obtain ⟨unexposed, l, inner, beyond⟩ := ih
      have outer : (Term.rootKey _ d).level = some (l + 1) := congrArg (Option.map _) inner
      refine ⟨?_, l + 1, outer, by omega⟩
      rintro (member | ⟨known, -⟩)
      · exact missing _ _ outer (by omega) member
      · exact unexposed known
  | chainKey d _ ih =>
      obtain ⟨unexposed, l, inner, beyond⟩ := ih
      refine ⟨?_, l, inner, beyond⟩
      rintro (member | ⟨known, -⟩)
      · exact missing (.chainKey _ d) l inner beyond member
      · exact unexposed known
  | nextChain _ ih =>
      obtain ⟨unexposed, l, inner, beyond⟩ := ih
      refine ⟨?_, l, inner, beyond⟩
      rintro (member | known)
      · exact missing (.nextChain _) l inner beyond member
      · exact unexposed known
  | messageKey _ ih =>
      obtain ⟨unexposed, l, inner, beyond⟩ := ih
      refine ⟨?_, l, inner, beyond⟩
      rintro (member | known)
      · exact missing (.messageKey _) l inner beyond member
      · exact unexposed known

namespace World

/-- The root steps behind a party. -/
def depth (w : World) (p : Party) : Nat := ((w.state p).rootKey.rootDepth).getD 0

/-- Nothing that is on record goes away, and no party goes back. -/
structure Later (w w' : World) : Prop where
  observed : w.observed ⊆ w'.observed
  fresh : ∀ p, w.fresh p ≤ w'.fresh p
  depth : ∀ p, w.depth p ≤ w'.depth p

theorem Later.refl (w : World) : Later w w :=
  ⟨Set.Subset.refl _, fun _ => Nat.le_refl _, fun _ => Nat.le_refl _⟩

theorem Later.trans {w w' w'' : World} (first : Later w w') (second : Later w' w'') :
    Later w w'' where
  observed := first.observed.trans second.observed
  fresh p := (first.fresh p).trans (second.fresh p)
  depth p := (first.depth p).trans (second.depth p)

end World

theorem depth_of_root {w : World} {p : Party} {k : Nat}
    (root : (w.state p).rootKey.rootDepth = some k) : w.depth p = k := by
  rw [World.depth, root, Option.getD_some]

theorem World.later_fed {w : World} (secure : Secure w) {p : Party} {ciphertext : Term}
    {header : MessageHeader Term} {s : SymbolicState} {result : Except Crypto.CryptoError Term}
    (call : RatchetState.decrypt symbolicOps (.secret p (w.fresh p)) (w.state p) ciphertext
      header = .returns s result) (log : List (Packet Term)) : w.Later (w.fed p s log) where
  observed := Set.Subset.refl _
  fresh q := by
    show w.fresh q ≤ Function.update w.fresh p (w.fresh p + 1) q
    by_cases same : q = p
    · rw [same, Function.update_self]
      exact Nat.le_succ _
    · rw [Function.update_of_ne same]
  depth q := by
    obtain ⟨depth, i, r, guarded⟩ := secure.parties p
    obtain ⟨left, depth', i', r', outcome, returned, standing, -, deeper, -⟩ :=
      guarded.standing.decrypt ciphertext header
    obtain ⟨rfl, -⟩ := Call.returns.inj (call.symm.trans returned)
    by_cases same : q = p
    · subst same
      have after : (w.fed q s log).depth q = depth' := by
        apply depth_of_root
        show (Function.update w.state q s q).rootKey.rootDepth = _
        rw [Function.update_self, standing.root]
      rw [after, depth_of_root guarded.standing.root]
      exact deeper
    · show w.depth q ≤ ((Function.update w.state p s q).rootKey.rootDepth).getD 0
      rw [Function.update_of_ne same]
      exact Nat.le_refl _

theorem Secure.later {w w' : World} (secure : Secure w) (step : World.Step World.Forged w w') :
    w.Later w' := by
  cases step with
  | encrypt p nonce plaintext s ciphertext header chosen call =>
      refine ⟨w.observed_said p s _, fun _ => Nat.le_refl _, ?_⟩
      · intro q
        show w.depth q ≤ ((Function.update w.state p s q).rootKey.rootDepth).getD 0
        by_cases same : q = p
        · subst same
          obtain ⟨depth, i, r, guarded⟩ := secure.parties q
          rw [Function.update_self, (guarded.standing.encrypt call).1.root,
            depth_of_root guarded.standing.root, Option.getD_some]
        · rw [Function.update_of_ne same]
          exact Nat.le_refl _
  | encryptError p nonce plaintext s e call =>
      rw [encrypt_error call, Function.update_eq_self]
      exact World.Later.refl w
  | accept p ciphertext header plaintext s forged call => exact World.later_fed secure call _
  | reject p ciphertext header s e forged call => exact World.later_fed secure call _

theorem Secure.later_run {w w' : World} (secure : Secure w) (run : World.Attack w w') :
    w.Later w' := by
  induction run with
  | refl => exact World.Later.refl w
  | tail before step ih => exact ih.trans ((secure.run before).later step)

/-- A step that changes a party's receiving key is a ratchet of that party onto a key of its
peer. -/
theorem ratchet_of_step {w w' : World} (secure : Secure w) {p : Party}
    (step : World.Step World.Delivered w w')
    (ratchets : (w'.state p).dhReceivePublic ≠ (w.state p).dhReceivePublic) :
    ∃ n, Ratcheted p (w.fresh p) (.pub (.secret p.peer n)) (w.state p) (w'.state p) := by
  have fed : ∀ {q : Party} {ciphertext : Term} {header : MessageHeader Term} {s : SymbolicState}
      {result : Except Crypto.CryptoError Term} (log : List (Packet Term)),
      World.Delivered w q ciphertext header →
      RatchetState.decrypt symbolicOps (.secret q (w.fresh q)) (w.state q) ciphertext header =
        .returns s result →
      ((w.fed q s log).state p).dhReceivePublic ≠ (w.state p).dhReceivePublic →
      ∃ n, Ratcheted p (w.fresh p) (.pub (.secret p.peer n)) (w.state p)
        ((w.fed q s log).state p) := by
    intro q ciphertext header s result log delivered call changed
    by_cases same : p = q
    · subst same
      have here : (w.fed p s log).state p = s := Function.update_self _ _ _
      rw [here] at changed ⊢
      obtain ⟨packet, member, -, rfl⟩ := delivered
      obtain ⟨depth, i, r, guarded⟩ := secure.parties p
      obtain ⟨peerDepth, peerI, peerR, peerGuarded⟩ := secure.parties p.peer
      obtain ⟨n, own⟩ := peerGuarded.headers packet member
      obtain ⟨left, -, -, -, outcome, returned, -, -, -, root, -⟩ :=
        guarded.standing.decrypt ciphertext packet.header
      obtain ⟨rfl, -⟩ := Call.returns.inj (call.symm.trans returned)
      rcases root with unchanged | ratcheted
      · exact absurd unchanged.receivePublic changed
      · exact ⟨n, own ▸ ratcheted⟩
    · have other : (w.fed q s log).state p = w.state p := Function.update_of_ne same _ _
      rw [other] at changed
      exact absurd rfl changed
  cases step with
  | encrypt q nonce plaintext s ciphertext header chosen call =>
      exfalso
      apply ratchets
      show (Function.update w.state q s p).dhReceivePublic = _
      by_cases same : p = q
      · subst same
        obtain ⟨depth, i, r, guarded⟩ := secure.parties p
        rw [Function.update_self]
        exact (guarded.standing.encrypt call).2.2.1
      · rw [Function.update_of_ne same]
  | encryptError q nonce plaintext s e call =>
      rw [encrypt_error call, Function.update_eq_self] at ratchets
      exact absurd rfl ratchets
  | accept q ciphertext header plaintext s delivered call => exact fed _ delivered call ratchets
  | reject q ciphertext header s e delivered call => exact fed _ delivered call ratchets

/-- The adversary learns the whole state of a party at `w₁` and from then on only watches.
Once the party ratchets onto a new key of its peer, its root key and its sending chain, and
all that the key schedule derives from them, are out of reach for good. -/
theorem healed_after_ratchet {w₁ w₂ w₃ w₄ : World} {p : Party}
    (before : World.Honest World.start w₁) (watched : World.Honest w₁ w₂)
    (step : World.Step World.Delivered w₂ w₃)
    (ratchets : (w₃.state p).dhReceivePublic ≠ (w₂.state p).dhReceivePublic)
    (after : World.Honest w₃ w₄) {base t : Term}
    (renewed : base = (w₃.state p).rootKey ∨ (w₃.state p).sendingChainKey = some base)
    (descends : Descends base t) :
    ¬ Derivable (w₄.knowledge ∪ leak (w₁.state p)) t := by
  have secure₁ := Secure.start.run (World.attack_of_honest before)
  have secure₂ := secure₁.run (World.attack_of_honest watched)
  have forged := step.mono World.forged_of_delivered
  have secure₄ := (secure₂.step forged).run (World.attack_of_honest after)
  have later₂ := secure₁.later_run (World.attack_of_honest watched)
  have later₄ := (later₂.trans (secure₂.later forged)).trans
    ((secure₂.step forged).later_run (World.attack_of_honest after))
  obtain ⟨depth₁, i₁, r₁, guarded₁⟩ := secure₁.parties p
  obtain ⟨depth₂, i₂, r₂, guarded₂⟩ := secure₂.parties p
  obtain ⟨n, -, d, root, sending⟩ := ratchet_of_step secure₂ step ratchets
  have deeper : depth₁ ≤ depth₂ := by
    rw [← depth_of_root guarded₁.standing.root, ← depth_of_root guarded₂.standing.root]
    exact later₂.depth p
  -- neither private key of the second root step leaked
  have ownHidden : Term.secret p (w₂.fresh p) ∉ leak (w₁.state p) := by
    intro member
    have drawn := (guarded₁.leaked member).secret_iff.2
    have later := later₂.fresh p
    omega
  have theirsHidden : Term.secret p.peer n ∉ leak (w₁.state p) := by
    intro member
    exact Party.peer_ne p (guarded₁.leaked member).secret_iff.1
  have shared : ¬ Exposed (leak (w₁.state p)) w₄.observed
      (diffieHellman (.secret p (w₂.fresh p)) (.pub (.secret p.peer n))) := by
    rcases diffieHellman_pub_cases (.secret p (w₂.fresh p)) (.secret p.peer n) with
      shape | shape <;> rw [shape]
    · rintro (own | theirs)
      · exact ownHidden own
      · exact theirsHidden theirs
    · rintro (theirs | own)
      · exact theirsHidden theirs
      · exact ownHidden own
  have bounded : ∀ t ∈ leak (w₁.state p), ∀ l, t.level = some l → l ≤ depth₁ :=
    fun t member l level => (guarded₁.leaked member).level_le level
  have first : (Term.rootKey (w₂.state p).rootKey d).level = some (depth₂ + 1) := by
    rw [Term.level, level_of_root guarded₂.standing.root, Option.map_some]
  have hidden : ∃ level, base.level = some level ∧ depth₁ < level ∧
      ¬ Exposed (leak (w₁.state p)) w₄.observed base := by
    rcases renewed with rfl | chain
    · have level : (w₃.state p).rootKey.level = some (depth₂ + 2) := by
        rw [root, Term.level, first, Option.map_some]
      refine ⟨depth₂ + 2, level, by omega, ?_⟩
      intro exposed
      have small := bounded (w₃.state p).rootKey
      rw [root] at exposed small level
      rcases exposed with member | ⟨-, known⟩
      · have below := small member _ level
        omega
      · exact shared known
    · obtain rfl := Option.some.inj (sending.symm.trans chain)
      refine ⟨depth₂ + 1, first, by omega, ?_⟩
      rintro (member | ⟨-, known⟩)
      · have below := bounded _ member _ first
        omega
      · exact shared known
  obtain ⟨level, here, above, unexposed⟩ := hidden
  intro derivable
  apply (descends.unexposed bounded above here unexposed).1
  apply derivable.exposed
  rintro t (seen | stolen)
  · exact secure₄.knowledge (leak (w₁.state p)) t seen
  · exact (guarded₁.exposed_leak t stolen).mono (Set.Subset.refl _) later₄.observed

/-- Bob's state is stolen before Alice writes; the first packet of Alice heals it. -/
theorem healed_after_ratchet_first :
    ∃ w, World.Honest World.start w ∧
      ¬ Derivable (w.knowledge ∪ leak (World.start.state .bob)) (w.state .bob).rootKey := by
  obtain ⟨s, call, receivePublic⟩ := decrypt_first
  have watched := Relation.ReflTransGen.single (World.step_first World.Delivered)
  have step : World.Step World.Delivered World.first (World.first.fed .bob s [firstPacket]) :=
    .accept .bob firstPacket.ciphertext firstPacket.header (.atom 7) s World.delivered_first call
  have ratchets : s.dhReceivePublic ≠ (World.first.state .bob).dhReceivePublic := by
    rw [receivePublic]
    exact Option.some_ne_none _
  exact ⟨_, watched.tail step, healed_after_ratchet (p := .bob) .refl watched step ratchets
    .refl (Or.inl rfl) .refl⟩

end Hysj.Symbolic
