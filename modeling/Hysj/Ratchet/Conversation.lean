import Mathlib.Logic.Function.Basic
import Mathlib.Logic.Relation
import Hysj.Ratchet.Chains

set_option autoImplicit false

namespace Hysj.Ratchet

inductive Party where
  | alice
  | bob
  deriving DecidableEq

def Party.peer : Party → Party
  | .alice => .bob
  | .bob => .alice

@[simp] theorem Party.peer_peer (p : Party) : p.peer.peer = p := by cases p <;> rfl

@[simp] theorem Party.peer_ne (p : Party) : p.peer ≠ p := by cases p <;> decide

theorem Party.eq_or_eq_peer (p q : Party) : q = p ∨ q = p.peer := by
  cases p <;> cases q <;> decide

/-- What one `encrypt` puts on the network, with the plaintext it was given. -/
structure Packet (β : Type) where
  ciphertext : β
  header : MessageHeader β
  plaintext : β

variable {β κ ν ℓ : Type} [DecidableEq ℓ]

/-- Two parties and the packets between them. `inFlight p` is addressed to `p`;
`publics` are the ratchet public keys in use so far. -/
structure Conversation (β κ ℓ : Type) [DecidableEq ℓ] where
  state : Party → RatchetState β κ ℓ
  inFlight : Party → List (Packet β)
  publics : List β

namespace Conversation

/-- `init_sender(ss, B.public)` on one side, `init_receiver(ss, B)` on the other. -/
def start (ops : Ops β κ ν ℓ) (sharedSecret : β) (bobSecret aliceSecret : κ) :
    Option (Conversation β κ ℓ) := do
  let bobPublic := ops.toVec (ops.publicKey bobSecret)
  let alice ← RatchetState.initSender ops aliceSecret sharedSecret bobPublic
  some
    { state := fun
        | .alice => alice
        | .bob => RatchetState.initReceiver sharedSecret (ops.toVec bobSecret) bobPublic
      inFlight := fun _ => []
      publics := [ops.toVec (ops.publicKey aliceSecret), bobPublic] }

/-- How far `skip_missed_messages` has to go; nothing when the chain is past it. -/
def gap (s : RatchetState β κ ℓ) (until_ : UInt32) : Nat :=
  until_.toNat - s.recvMessageNumber.toNat

/-- The limits of a delivery. A key in the store needs no skipping; otherwise each
skip gap is at most `MAX_SKIP`, and the skipped keys fit the store. -/
def WithinLimits [DecidableEq β] (ops : Ops β κ ν ℓ) (s : RatchetState β κ ℓ)
    (header : MessageHeader β) : Prop :=
  if (s.skippedKeys.lookup (ops.hexEncode header.dhPublic, header.messageNumber)).isSome then True
  else if s.needRatchet header then
    gap s header.previousChainLength ≤ MAX_SKIP.toNat ∧
    header.messageNumber.toNat ≤ MAX_SKIP.toNat ∧
    s.skippedKeys.len +
      (if s.receivingChainKey.isSome then gap s header.previousChainLength else 0) +
      header.messageNumber.toNat ≤ MAX_SKIPPED_KEYS
  else
    gap s header.messageNumber ≤ MAX_SKIP.toNat ∧
    s.skippedKeys.len + gap s header.messageNumber ≤ MAX_SKIPPED_KEYS

instance [DecidableEq β] (ops : Ops β κ ν ℓ) (s : RatchetState β κ ℓ)
    (header : MessageHeader β) : Decidable (WithinLimits ops s header) := by
  unfold WithinLimits
  infer_instance

/-- One event of a session: a party encrypts, the network delivers a packet to its
addressee and forgets it, or the network loses a packet. A delivery keeps whatever
state `decrypt` leaves, successful or not. -/
inductive Step [DecidableEq β] (ops : Ops β κ ν ℓ) :
    Conversation β κ ℓ → Conversation β κ ℓ → Prop where
  | encrypt {w : Conversation β κ ℓ} (p : Party) (nonce : ν) (plaintext : β)
      (s : RatchetState β κ ℓ) (ciphertext : β) (header : MessageHeader β)
      (room : (w.state p).sendMessageNumber.toNat + 1 < 2 ^ 32)
      (ok : RatchetState.encrypt ops nonce (w.state p) plaintext = (s, .ok (ciphertext, header))) :
      Step ops w
        { w with
          state := Function.update w.state p s
          inFlight := Function.update w.inFlight p.peer
            (⟨ciphertext, header, plaintext⟩ :: w.inFlight p.peer) }
  | deliver {w : Conversation β κ ℓ} (p : Party) (before after : List (Packet β))
      (packet : Packet β) (keypair : κ) (s : RatchetState β κ ℓ)
      (result : Except Crypto.CryptoError β)
      (arrives : w.inFlight p = before ++ packet :: after)
      (limits : WithinLimits ops (w.state p) packet.header)
      (fresh : (w.state p).needRatchet packet.header = true →
        ops.toVec (ops.publicKey keypair) ∉ w.publics)
      (call : RatchetState.decrypt ops keypair (w.state p) packet.ciphertext packet.header =
        .returns s result) :
      Step ops w
        { state := Function.update w.state p s
          inFlight := Function.update w.inFlight p (before ++ after)
          publics := s.dhSendPublic :: w.publics }
  | lose {w : Conversation β κ ℓ} (p : Party) (before after : List (Packet β))
      (packet : Packet β) (lost : w.inFlight p = before ++ packet :: after) :
      Step ops w { w with inFlight := Function.update w.inFlight p (before ++ after) }

/-- Any number of events. -/
def Run [DecidableEq β] (ops : Ops β κ ν ℓ) :
    Conversation β κ ℓ → Conversation β κ ℓ → Prop :=
  Relation.ReflTransGen (Step ops)

end Conversation

/-- What a session relies on: both sides of a key exchange agree, the AEAD opens
what it sealed, and the conversions lose nothing. -/
structure Ops.Lawful (ops : Ops β κ ν ℓ) : Prop where
  copy32_toVec : ∀ k, ops.copy32 (ops.toVec k) = some k
  commutes : ∀ a b, ops.diffieHellman a (ops.publicKey b) = ops.diffieHellman b (ops.publicKey a)
  opens : ∀ nonce plaintext key aad ciphertext,
    ops.cipherEncrypt nonce plaintext key aad = .ok ciphertext →
      ops.cipherDecrypt ciphertext key aad = .ok plaintext
  hexInjective : Function.Injective ops.hexEncode

end Hysj.Ratchet
