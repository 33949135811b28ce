import Mathlib.Data.Vector.Basic
import Hysj.Base.Json
import Hysj.Base.Utf8

set_option autoImplicit false

namespace Hysj.Crypto

/-- `Vec<u8>` and `&[u8]`. -/
abbrev Bytes := List UInt8

/-- `[u8; n]`. -/
abbrev ByteArr (n : Nat) := List.Vector UInt8 n

/-- `str::as_bytes`. -/
def strBytes (s : String) : Bytes := Json.utf8 s.toList

theorem strBytes_injective : Function.Injective strBytes :=
  Json.utf8_injective.comp fun _ _ same => String.toList_inj.mp same

theorem fromUtf8_strBytes (s : String) : Utf8.fromUtf8 (strBytes s) = some s := by
  rw [strBytes, Json.utf8, Utf8.fromUtf8_utf8, String.ofList_toList]

inductive CryptoError where
  | encryptionFailed (message : String)
  | decryptionFailed (message : String)
  | invalidKeyLength (expected actual : Nat)
  | invalidSignature
  | kdfError (message : String)
  | serializationError (message : String)
  | deserializationError (message : String)
  | invalidInput (message : String)
  | x3dhError (message : String)
  | ratchetError (message : String)
  | sealedSenderError (message : String)
  | onionError (message : String)
  | postQuantumError (message : String)
  deriving DecidableEq

/-- The `Display` text. -/
def CryptoError.display : CryptoError → String
  | .encryptionFailed message => "encryption failed: " ++ message
  | .decryptionFailed message => "decryption failed: " ++ message
  | .invalidKeyLength expected actual =>
      s!"invalid key length: expected {expected}, got {actual}"
  | .invalidSignature => "invalid signature"
  | .kdfError message => "key derivation failed: " ++ message
  | .serializationError message => "serialization failed: " ++ message
  | .deserializationError message => "deserialization failed: " ++ message
  | .invalidInput message => "invalid input: " ++ message
  | .x3dhError message => "x3dh handshake failed: " ++ message
  | .ratchetError message => "ratchet error: " ++ message
  | .sealedSenderError message => "sealed sender error: " ++ message
  | .onionError message => "onion routing error: " ++ message
  | .postQuantumError message => "post-quantum error: " ++ message

/-- `arr.copy_from_slice(&bytes[..32])`; `none` is the panic of a shorter slice. -/
def copy32 (bytes : Bytes) : Option (ByteArr 32) :=
  if long : 32 ≤ bytes.length then some ⟨bytes.take 32, by simp [long]⟩ else none

/-- `<[u8; n]>::try_from(bytes)`. -/
def tryInto (n : Nat) (bytes : Bytes) : Option (ByteArr n) :=
  if exact : bytes.length = n then some ⟨bytes, exact⟩ else none

@[simp] theorem copy32_toList (array : ByteArr 32) : copy32 array.toList = some array := by
  have long : 32 ≤ array.toList.length := by simp
  simp only [copy32, long, ↓reduceDIte]
  exact congrArg some (Subtype.ext (List.take_of_length_le (by simp)))

@[simp] theorem tryInto_toList (n : Nat) (array : ByteArr n) :
    tryInto n array.toList = some array := by
  have exact_ : array.toList.length = n := by simp
  simp only [tryInto, exact_, ↓reduceDIte]
  rfl

theorem tryInto_eq_some {n : Nat} {bytes : Bytes} {array : ByteArr n} :
    tryInto n bytes = some array ↔ bytes = array.toList := by
  constructor
  · intro made
    unfold tryInto at made
    split at made
    · exact congrArg List.Vector.toList (Option.some.inj made)
    · cases made
  · rintro rfl
    exact tryInto_toList n array

/-- The functions of the cryptographic crates. The code relies on nothing but
their types here; what a result assumes of them stands in its hypotheses. -/
structure Primitives where
  /-- `PublicKey::from(&secret)` -/
  x25519Public : ByteArr 32 → ByteArr 32
  /-- `secret.diffie_hellman(&public)` -/
  x25519 : ByteArr 32 → ByteArr 32 → ByteArr 32
  /-- `Hkdf::<Sha256>::new(Some(salt), ikm)` expanded with `info` to `n` bytes -/
  hkdfSha256 : (salt ikm info : Bytes) → (n : Nat) → ByteArr n
  /-- HMAC-SHA256 of `data` under `key` -/
  hmacSha256 : (key data : Bytes) → ByteArr 32
  /-- `XChaCha20Poly1305::encrypt`: ciphertext and tag, or the opaque error -/
  xchachaEncrypt : (key : ByteArr 32) → (nonce : ByteArr 24) → (aad msg : Bytes) → Option Bytes
  xchachaDecrypt : (key : ByteArr 32) → (nonce : ByteArr 24) → (aad msg : Bytes) → Option Bytes

variable (p : Primitives)

namespace Kdf

def hkdfDerive (ikm salt info : Bytes) (outputLen : Nat) : ByteArr outputLen :=
  p.hkdfSha256 salt ikm info outputLen

/-- `(new_root_key, chain_key)`, the halves of one 64-byte expansion. -/
def deriveRootKey (rootKey dhOutput : Bytes) : Bytes × Bytes :=
  let output := p.hkdfSha256 rootKey dhOutput (strBytes "hysj-ratchet-root") 64
  (output.toList.take 32, output.toList.drop 32)

/-- `(new_chain_key, message_key)`. -/
def deriveChainKey (chainKey : Bytes) : Bytes × ByteArr 32 :=
  let newChainKey := p.hmacSha256 chainKey [0x02]
  let messageKey := p.hmacSha256 chainKey [0x01]
  (newChainKey.toList, messageKey)

end Kdf

namespace Cipher

/-- `nonce || ciphertext || tag`; the nonce is the draw of the caller's `OsRng`. -/
def encrypt (nonce : ByteArr 24) (plaintext : Bytes) (key : ByteArr 32) (aad : Bytes) :
    Except CryptoError Bytes :=
  match p.xchachaEncrypt key nonce aad plaintext with
  | none => .error (.encryptionFailed "aead::Error")
  | some ciphertext => .ok (nonce.toList ++ ciphertext)

def decrypt (ciphertextWithNonce : Bytes) (key : ByteArr 32) (aad : Bytes) :
    Except CryptoError Bytes :=
  if short : ciphertextWithNonce.length < 24 + 16 then
    .error (.decryptionFailed "ciphertext too short")
  else
    let nonce : ByteArr 24 := ⟨ciphertextWithNonce.take 24, by simp; omega⟩
    match p.xchachaDecrypt key nonce aad (ciphertextWithNonce.drop 24) with
    | none => .error (.decryptionFailed "aead::Error")
    | some plaintext => .ok plaintext

end Cipher

/-- The AEAD opens what it sealed and appends a 16-byte tag. -/
structure AeadOpens : Prop where
  opens : ∀ key nonce aad msg ciphertext,
    p.xchachaEncrypt key nonce aad msg = some ciphertext →
      p.xchachaDecrypt key nonce aad ciphertext = some msg
  tagged : ∀ key nonce aad msg ciphertext,
    p.xchachaEncrypt key nonce aad msg = some ciphertext → 16 ≤ ciphertext.length

/-- Both sides of a key exchange compute the same secret. -/
def DhCommutes : Prop :=
  ∀ a b, p.x25519 a (p.x25519Public b) = p.x25519 b (p.x25519Public a)

/-- A private key yields different secrets with different public keys. -/
def DhInjective : Prop :=
  ∀ secret, Function.Injective (p.x25519 secret)

variable {p}

theorem Cipher.of_encrypt {nonce : ByteArr 24} {plaintext : Bytes} {key : ByteArr 32}
    {aad ciphertext : Bytes} (sealed : Cipher.encrypt p nonce plaintext key aad = .ok ciphertext) :
    ∃ body, p.xchachaEncrypt key nonce aad plaintext = some body ∧
      ciphertext = nonce.toList ++ body := by
  unfold Cipher.encrypt at sealed
  split at sealed
  · cases sealed
  · rename_i body encrypted
    cases sealed
    exact ⟨body, encrypted, rfl⟩

theorem Cipher.length_of_encrypt (aead : AeadOpens p) {nonce : ByteArr 24} {plaintext : Bytes}
    {key : ByteArr 32} {aad ciphertext : Bytes}
    (sealed : Cipher.encrypt p nonce plaintext key aad = .ok ciphertext) :
    24 + 16 ≤ ciphertext.length := by
  obtain ⟨body, encrypted, rfl⟩ := Cipher.of_encrypt sealed
  have tag := aead.tagged key nonce aad plaintext body encrypted
  simp only [List.length_append, List.Vector.toList_length]
  omega

theorem Cipher.decrypt_encrypt (aead : AeadOpens p) {nonce : ByteArr 24} {plaintext : Bytes}
    {key : ByteArr 32} {aad ciphertext : Bytes}
    (sealed : Cipher.encrypt p nonce plaintext key aad = .ok ciphertext) :
    Cipher.decrypt p ciphertext key aad = .ok plaintext := by
  have tagged := Cipher.length_of_encrypt aead sealed
  obtain ⟨body, encrypted, rfl⟩ := Cipher.of_encrypt sealed
  have long : ¬ (nonce.toList ++ body).length < 24 + 16 := Nat.not_lt.mpr tagged
  have front : (⟨(nonce.toList ++ body).take 24, by simp⟩ : ByteArr 24) = nonce :=
    Subtype.ext (List.take_left' (by simp))
  have back : (nonce.toList ++ body).drop 24 = body := List.drop_left' (by simp)
  simp only [Cipher.decrypt, long, ↓reduceDIte, front, back, aead.opens key nonce aad _ _ encrypted]

/-- A stand-in whose every law is checked by evaluation. It is no cipher: the key
exchange adds, the hashes mix bytewise, and the AEAD appends a checksum. -/
def Primitives.sample : Primitives where
  x25519Public secret := secret
  x25519 secret their := .ofFn fun i => secret.get i + their.get i
  hkdfSha256 salt ikm _ _ :=
    .ofFn fun i => salt.getD (i % 32) 0 + 3 * ikm.getD (i % 32) 0 + UInt8.ofNat i
  hmacSha256 key data := .ofFn fun i => key.getD i 0 + 7 * data.getD 0 0
  xchachaEncrypt key nonce aad msg := some (msg ++ checksum key nonce aad msg)
  xchachaDecrypt key nonce aad msg :=
    let body := msg.take (msg.length - 16)
    if msg.drop (msg.length - 16) = checksum key nonce aad body then some body else none
where
  checksum (key : ByteArr 32) (nonce : ByteArr 24) (aad msg : Bytes) : Bytes :=
    List.ofFn fun i : Fin 16 =>
      key.toList.getD i 0 + nonce.toList.getD i 0 + (aad ++ msg).foldl (· + ·) 0

theorem Primitives.sample_aead : AeadOpens Primitives.sample where
  opens key nonce aad msg ciphertext sealed := by
    obtain rfl := Option.some.inj sealed
    have body : (msg ++ sample.checksum key nonce aad msg).length - 16 = msg.length := by
      simp [sample.checksum]
    show (if _ then _ else _) = _
    rw [body, List.take_left, List.drop_left, if_pos rfl]
  tagged key nonce aad msg ciphertext sealed := by
    obtain rfl := Option.some.inj sealed
    simp [sample.checksum]

theorem Primitives.sample_commutes : DhCommutes Primitives.sample := by
  intro a b
  exact congrArg List.Vector.ofFn (funext fun i => UInt8.add_comm (a.get i) (b.get i))

theorem Primitives.sample_injective : DhInjective Primitives.sample := by
  intro secret left right same
  apply List.Vector.ext
  intro i
  have sums := congrArg (fun shared : ByteArr 32 => shared.get i) same
  simp only [sample, List.Vector.get_ofFn] at sums
  exact (UInt8.add_right_inj (secret.get i)).mp sums

end Hysj.Crypto
