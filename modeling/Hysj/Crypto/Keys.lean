import Hysj.Crypto.Primitives

set_option autoImplicit false

namespace Hysj.Crypto

/-- The `ed25519_dalek` crate. A signing key is its 32-byte seed, a verifying key its
encoding. -/
structure Ed25519 where
  /-- `SigningKey::from_bytes(seed)` and its `verifying_key()` -/
  verifyingKey : (seed : ByteArr 32) → ByteArr 32
  /-- `VerifyingKey::from_bytes(key)` is `Ok` -/
  decodes : (key : ByteArr 32) → Bool
  sign : (seed : ByteArr 32) → (message : Bytes) → ByteArr 64
  /-- `key.verify(message, signature)` is `Ok` -/
  verify : (key : ByteArr 32) → (message : Bytes) → (signature : ByteArr 64) → Bool

namespace Ed25519

variable (ed : Ed25519)

/-- A signature verifies under the key of its seed. -/
def Correct : Prop :=
  ∀ seed message, ed.verify (ed.verifyingKey seed) message (ed.sign seed message) = true

/-- `signature` is a signature of `message` under the key encoded by `key`. -/
def Valid (key message signature : Bytes) : Prop :=
  ∃ (vk : ByteArr 32) (sig : ByteArr 64), key = vk.toList ∧ signature = sig.toList ∧
    ed.decodes vk = true ∧ ed.verify vk message sig = true

end Ed25519

namespace Keys

/-- Sign a message with an Ed25519 key pair. -/
def sign (ed : Ed25519) (seed : ByteArr 32) (message : Bytes) : Bytes :=
  (ed.sign seed message).toList

/-- Verify an Ed25519 signature. Returns true if valid. -/
def verify (ed : Ed25519) (publicKey : ByteArr 32) (message signature : Bytes) : Bool :=
  match tryInto 64 signature with
  | none => false
  | some sig => ed.verify publicKey message sig

theorem verify_eq_true {ed : Ed25519} {publicKey : ByteArr 32} {message signature : Bytes} :
    verify ed publicKey message signature = true ↔
      ∃ sig : ByteArr 64, signature = sig.toList ∧ ed.verify publicKey message sig = true := by
  constructor
  · intro accepted
    unfold verify at accepted
    split at accepted
    · cases accepted
    · rename_i sig exact_
      exact ⟨sig, tryInto_eq_some.mp exact_, accepted⟩
  · rintro ⟨sig, rfl, accepted⟩
    simp only [verify, tryInto_toList, accepted]

end Keys

/-- A stand-in that signs with a checksum under the seed itself. -/
def Ed25519.sample : Ed25519 where
  verifyingKey seed := seed
  decodes _ := true
  sign := tag
  verify key message signature := signature = tag key message
where
  tag (seed : ByteArr 32) (message : Bytes) : ByteArr 64 :=
    .ofFn fun i => seed.toList.getD i 0 + message.foldl (fun sum b => 31 * sum + b) 7

theorem Ed25519.sample_correct : Ed25519.sample.Correct :=
  fun _ _ => decide_eq_true rfl

end Hysj.Crypto
