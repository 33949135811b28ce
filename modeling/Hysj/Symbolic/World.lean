import Hysj.Symbolic.Standing

set_option autoImplicit false

/- Two honest parties on a network, what they have sent and accepted, and the invariant
that every run of them keeps. -/
namespace Hysj.Symbolic

open Ratchet
open Crypto (CryptoError)

/-- The parties, how many private keys each has drawn, and what each has sent with
`encrypt` and accepted with `decrypt`, the latest packet first. -/
structure World where
  state : Party → SymbolicState
  fresh : Party → Nat
  sent : Party → List (Packet Term)
  accepted : Party → List (Packet Term)

namespace World

def start : World where
  state
    | .alice =>
        (RatchetState.initSender symbolicOps (.secret .alice 0) .sharedSecret
          (.pub (.secret .bob 0))).get rfl
    | .bob => RatchetState.initReceiver .sharedSecret (.secret .bob 0) (.pub (.secret .bob 0))
  fresh _ := 1
  sent _ := []
  accepted _ := []

/-- What the network shows: all public keys, and the packets of both parties. -/
def knowledge (w : World) : Set Term :=
  {t | (∃ p n, t = .pub (.secret p n)) ∨
    ∃ p, ∃ packet ∈ w.sent p, t = packet.ciphertext ∨ t = symbolicOps.headerToBytes packet.header}

def observed (w : World) : Set Term := {t | ∃ p, ∃ packet ∈ w.sent p, t = packet.ciphertext}

/-- The world after `p` encrypted `packet`. -/
def said (w : World) (p : Party) (s : SymbolicState) (packet : Packet Term) : World :=
  { w with
    state := Function.update w.state p s
    sent := Function.update w.sent p (packet :: w.sent p) }

/-- The world after `p` was fed a packet and ended in `s`, with what it accepted. -/
def fed (w : World) (p : Party) (s : SymbolicState) (accepted : List (Packet Term)) : World :=
  { w with
    state := Function.update w.state p s
    fresh := Function.update w.fresh p (w.fresh p + 1)
    accepted := Function.update w.accepted p accepted }

theorem sent_said (w : World) (p : Party) (s : SymbolicState) (packet : Packet Term)
    (q : Party) : w.sent q ⊆ (w.said p s packet).sent q := by
  intro old member
  show old ∈ Function.update w.sent p _ q
  by_cases same : q = p
  · rw [same, Function.update_self]
    exact List.mem_cons_of_mem _ (same ▸ member)
  · rw [Function.update_of_ne same]
    exact member

theorem observed_said (w : World) (p : Party) (s : SymbolicState) (packet : Packet Term) :
    w.observed ⊆ (w.said p s packet).observed := by
  rintro t ⟨q, old, member, shape⟩
  exact ⟨q, old, w.sent_said p s packet q member, shape⟩

/-- One call by one party. Plaintexts are chosen by the adversary; `feed` says which
packets can arrive. -/
inductive Step (feed : World → Party → Term → MessageHeader Term → Prop) :
    World → World → Prop where
  | encrypt {w : World} (p : Party) (nonce : Nat) (plaintext : Term) (s : SymbolicState)
      (ciphertext : Term) (header : MessageHeader Term)
      (chosen : Derivable w.knowledge plaintext)
      (call : RatchetState.encrypt symbolicOps nonce (w.state p) plaintext =
        (s, .ok (ciphertext, header))) :
      Step feed w (w.said p s ⟨ciphertext, header, plaintext⟩)
  | encryptError {w : World} (p : Party) (nonce : Nat) (plaintext : Term) (s : SymbolicState)
      (e : CryptoError)
      (call : RatchetState.encrypt symbolicOps nonce (w.state p) plaintext = (s, .error e)) :
      Step feed w { w with state := Function.update w.state p s }
  | accept {w : World} (p : Party) (ciphertext : Term) (header : MessageHeader Term)
      (plaintext : Term) (s : SymbolicState) (arrives : feed w p ciphertext header)
      (call : RatchetState.decrypt symbolicOps (.secret p (w.fresh p)) (w.state p) ciphertext
        header = .returns s (.ok plaintext)) :
      Step feed w (w.fed p s (⟨ciphertext, header, plaintext⟩ :: w.accepted p))
  | reject {w : World} (p : Party) (ciphertext : Term) (header : MessageHeader Term)
      (s : SymbolicState) (e : CryptoError) (arrives : feed w p ciphertext header)
      (call : RatchetState.decrypt symbolicOps (.secret p (w.fresh p)) (w.state p) ciphertext
        header = .returns s (.error e)) :
      Step feed w (w.fed p s (w.accepted p))

/-- The adversary is the network: whatever it can derive can arrive. -/
def Forged (w : World) (_ : Party) (ciphertext : Term) (header : MessageHeader Term) : Prop :=
  Derivable w.knowledge ciphertext ∧ Derivable w.knowledge header.dhPublic

/-- The network only carries packets of the peer, in any order and any number of times. -/
def Delivered (w : World) (p : Party) (ciphertext : Term) (header : MessageHeader Term) : Prop :=
  ∃ packet ∈ w.sent p.peer, packet.ciphertext = ciphertext ∧ packet.header = header

/-- Runs under attack. -/
abbrev Attack : World → World → Prop := Relation.ReflTransGen (Step Forged)

/-- Runs over a network that the adversary only watches. -/
abbrev Honest : World → World → Prop := Relation.ReflTransGen (Step Delivered)

theorem Step.mono {feed wider : World → Party → Term → MessageHeader Term → Prop}
    (widens : ∀ w p ciphertext header, feed w p ciphertext header → wider w p ciphertext header)
    {w w' : World} (step : Step feed w w') : Step wider w w' := by
  cases step with
  | encrypt p nonce plaintext s ciphertext header chosen call =>
      exact .encrypt p nonce plaintext s ciphertext header chosen call
  | encryptError p nonce plaintext s e call => exact .encryptError p nonce plaintext s e call
  | accept p ciphertext header plaintext s arrives call =>
      exact .accept p ciphertext header plaintext s (widens _ _ _ _ arrives) call
  | reject p ciphertext header s e arrives call =>
      exact .reject p ciphertext header s e (widens _ _ _ _ arrives) call

theorem forged_of_delivered (w : World) (p : Party) (ciphertext : Term)
    (header : MessageHeader Term) (delivered : Delivered w p ciphertext header) :
    Forged w p ciphertext header := by
  obtain ⟨packet, member, rfl, rfl⟩ := delivered
  constructor
  · exact .known (Or.inr ⟨p.peer, packet, member, Or.inl rfl⟩)
  · have seen : Derivable w.knowledge (symbolicOps.headerToBytes packet.header) :=
      .known (Or.inr ⟨p.peer, packet, member, Or.inr rfl⟩)
    exact seen.dhPublic

theorem attack_of_honest {w w' : World} (run : Honest w w') : Attack w w' := by
  induction run with
  | refl => exact .refl
  | tail _ step ih => exact ih.tail (step.mono forged_of_delivered)

end World

/-- A root key is out of reach when only deeper ones are known. -/
theorem unexposed_root {leaked observed : Set Term} {t : Term} {k : Nat}
    (depth : t.rootDepth = some k)
    (deeper : ∀ t' ∈ leaked, ∀ k', t'.rootDepth = some k' → k < k') :
    ¬ Exposed leaked observed t := by
  induction t generalizing k with
  | sharedSecret =>
      intro exposed
      exact Nat.lt_irrefl k (deeper _ exposed k depth)
  | rootKey rk d ihr _ =>
      obtain ⟨k', inner, rfl⟩ := Option.map_eq_some_iff.mp depth
      rintro (member | ⟨exposed, -⟩)
      · exact Nat.lt_irrefl _ (deeper _ member _ depth)
      · refine ihr inner (fun t' member k'' root => ?_) exposed
        have further := deeper t' member k'' root
        omega
  | _ => cases depth

/-- A chain key is out of reach when, of its chain, only later keys are known. -/
theorem unexposed_chain {leaked observed : Set Term} {ck : Term} {k i : Nat}
    (place : ck.chainPlace = some (k, i))
    (deeper : ∀ t' ∈ leaked, ∀ k', t'.rootDepth = some k' → k < k')
    (later : ∀ t' ∈ leaked, ∀ j, t'.chainPlace = some (k, j) → i < j) :
    ¬ Exposed leaked observed ck := by
  induction ck generalizing i with
  | chainKey rk d _ _ =>
      obtain ⟨k', inner, same⟩ := Option.map_eq_some_iff.mp place
      obtain ⟨rfl, rfl⟩ := Prod.mk.inj same
      rintro (member | ⟨exposed, -⟩)
      · exact Nat.lt_irrefl _ (later _ member _ place)
      · exact unexposed_root inner deeper exposed
  | nextChain ck ih =>
      obtain ⟨⟨k', i'⟩, inner, same⟩ := Option.map_eq_some_iff.mp place
      obtain ⟨rfl, rfl⟩ := Prod.mk.inj same
      rintro (member | exposed)
      · exact Nat.lt_irrefl _ (later _ member _ place)
      · refine ih inner (fun t' member j here => ?_) exposed
        have further := later t' member j here
        omega
  | _ => cases place

theorem unexposed_key {leaked observed : Set Term} {key : Term} {k i : Nat}
    (place : key.keyPlace = some (k, i))
    (deeper : ∀ t' ∈ leaked, ∀ k', t'.rootDepth = some k' → k < k')
    (later : ∀ t' ∈ leaked, ∀ j, t'.chainPlace = some (k, j) → i < j)
    (other : ∀ t' ∈ leaked, t'.keyPlace ≠ some (k, i)) : ¬ Exposed leaked observed key := by
  cases key with
  | messageKey ck =>
      rintro (member | exposed)
      · exact other _ member place
      · exact unexposed_chain place deeper later exposed
  | _ => cases place

def firstPacket : Packet Term :=
  let messageKey : Term := .messageKey
    (.chainKey .sharedSecret (diffieHellman (.secret .alice 0) (.pub (.secret .bob 0))))
  let header : MessageHeader Term := ⟨.pub (.secret .alice 0), 0, 0⟩
  ⟨.aead messageKey 0 (symbolicOps.headerToBytes header) (.atom 7), header, .atom 7⟩

/-- The world after Alice sent her first packet. -/
def World.first : World :=
  World.start.said .alice
    (RatchetState.encrypt symbolicOps 0 (World.start.state .alice) (.atom 7)).1 firstPacket

theorem World.step_first (feed : World → Party → Term → MessageHeader Term → Prop) :
    Step feed start first :=
  .encrypt .alice 0 (.atom 7) _ firstPacket.ciphertext firstPacket.header (.atom 7) rfl

theorem World.delivered_first :
    Delivered first .bob firstPacket.ciphertext firstPacket.header :=
  ⟨firstPacket, List.mem_cons_self, rfl, rfl⟩

theorem decrypt_first : ∃ s, RatchetState.decrypt symbolicOps (.secret .bob 1)
    (World.first.state .bob) firstPacket.ciphertext firstPacket.header =
      .returns s (.ok (.atom 7)) ∧ s.dhReceivePublic = some (.pub (.secret .alice 0)) :=
  ⟨_, rfl, rfl⟩

end Hysj.Symbolic
