import Hysj.Base.Serde
import Hysj.Crypto.Keys

set_option autoImplicit false

namespace Hysj.Crypto

/-- Content extracted from a sealed sender message. -/
structure SealedContent where
  senderId : String
  senderCertificate : Bytes
  plaintext : Bytes
  deriving DecidableEq

namespace Sealed

open Kdf (hkdfDerive)

/-- Inner payload that gets encrypted inside the sealed sender envelope. -/
structure SealedInner where
  senderId : String
  senderCert : Bytes
  plaintext : Bytes
  deriving DecidableEq

def SealedInner.toJson (inner : SealedInner) : Json.Value :=
  .obj
    [("sender_id", .str inner.senderId), ("sender_cert", Serde.bytes inner.senderCert),
      ("plaintext", Serde.bytes inner.plaintext)]

def SealedInner.ofJson (value : Json.Value) : Option SealedInner := do
  match ← Serde.fields ["sender_id", "sender_cert", "plaintext"] value with
  | [senderId, senderCert, plaintext] =>
      some
        { senderId := ← Serde.required Serde.readStr senderId
          senderCert := ← Serde.required Serde.readBytes senderCert
          plaintext := ← Serde.required Serde.readBytes plaintext }
  | _ => none

variable (p : Primitives) (ed : Ed25519) (serde : SerdeJson)

/-- Seal a message so the server cannot identify the sender. `ephemeral` is the secret drawn
by `generate_x25519_keypair`. -/
def seal_ (ephemeral : ByteArr 32) (nonce : ByteArr 24) (plaintext : Bytes) (senderId : String)
    (senderCert recipientIdentityPublic : Bytes) : Except CryptoError Bytes :=
  match tryInto 32 recipientIdentityPublic with
  | none => .error (.invalidKeyLength 32 recipientIdentityPublic.length)
  | some recipientPublic =>
      let dhShared := p.x25519 ephemeral recipientPublic
      let encKey := hkdfDerive p dhShared.toList [] (strBytes "hysj-sealed-enc") 32
      let inner : SealedInner := ⟨senderId, senderCert, plaintext⟩
      match Cipher.encrypt p nonce (Json.toVec inner.toJson) encKey [] with
      | .error e => .error e
      | .ok encryptedInner => .ok ((p.x25519Public ephemeral).toList ++ encryptedInner)

/-- Steps 1 to 5 of `open`: the envelope inside a blob. -/
def openInner (sealedBlob myIdentitySecret : Bytes) : Except CryptoError SealedInner :=
  if short : sealedBlob.length < 32 + 24 + 16 then
    .error (.sealedSenderError "sealed blob too short")
  else
    match tryInto 32 myIdentitySecret with
    | none => .error (.invalidKeyLength 32 myIdentitySecret.length)
    | some mySecret =>
        let ephemeralPublic : ByteArr 32 := ⟨sealedBlob.take 32, by simp; omega⟩
        let dhShared := p.x25519 mySecret ephemeralPublic
        let encKey := hkdfDerive p dhShared.toList [] (strBytes "hysj-sealed-enc") 32
        match Cipher.decrypt p (sealedBlob.drop 32) encKey [] with
        | .error e => .error e
        | .ok innerBytes =>
            match serde.fromSlice innerBytes with
            | .error text => .error (.deserializationError text)
            | .ok value =>
                match SealedInner.ofJson value with
                | none => .error (.deserializationError (serde.mismatch innerBytes))
                | some inner => .ok inner

/-- Step 6: the certificate is expected to be a signature over the sender id. It is looked
at only when key and certificate have their lengths. -/
def checkCertificate (certVerificationKey : Bytes) (inner : SealedInner) :
    Except CryptoError Unit :=
  if certVerificationKey ≠ [] ∧ certVerificationKey.length = 32 then
    if inner.senderCert.length = 64 then
      match tryInto 32 certVerificationKey with
      | none => .error (.sealedSenderError "invalid verification key")
      | some vk =>
          if ed.decodes vk then
            if Keys.verify ed vk (strBytes inner.senderId) inner.senderCert then .ok ()
            else .error (.sealedSenderError "sender certificate verification failed")
          else .error (.sealedSenderError "invalid verification key format")
    else .ok ()
  else .ok ()

/-- Open a sealed sender message. -/
def open_ (sealedBlob myIdentitySecret certVerificationKey : Bytes) :
    Except CryptoError SealedContent :=
  match openInner p serde sealedBlob myIdentitySecret with
  | .error e => .error e
  | .ok inner =>
      match checkCertificate ed certVerificationKey inner with
      | .error e => .error e
      | .ok () => .ok ⟨inner.senderId, inner.senderCert, inner.plaintext⟩

variable {p ed serde}

theorem open_eq_ok {sealedBlob myIdentitySecret certVerificationKey : Bytes}
    {content : SealedContent} :
    open_ p ed serde sealedBlob myIdentitySecret certVerificationKey = .ok content ↔
      ∃ inner, openInner p serde sealedBlob myIdentitySecret = .ok inner ∧
        checkCertificate ed certVerificationKey inner = .ok () ∧
        content = ⟨inner.senderId, inner.senderCert, inner.plaintext⟩ := by
  unfold open_
  cases openInner p serde sealedBlob myIdentitySecret with
  | error e => simp
  | ok inner =>
      cases checked : checkCertificate ed certVerificationKey inner with
      | error e => simp [checked]
      | ok done => simp [checked, eq_comm]

/-- `serde_json` reads back what `seal` writes. -/
def ReadsBack (serde : SerdeJson) : Prop :=
  ∀ inner : SealedInner, serde.fromSlice (Json.toVec inner.toJson) = .ok inner.toJson

theorem sample_readsBack : ReadsBack .sample :=
  fun inner => SerdeJson.sample_fromSlice inner.toJson

theorem SealedInner.ofJson_toJson (inner : SealedInner) : ofJson inner.toJson = some inner := by
  have found (a b c : Json.Value) : Serde.fields ["sender_id", "sender_cert", "plaintext"]
      (.obj [("sender_id", a), ("sender_cert", b), ("plaintext", c)]) =
        some [some a, some b, some c] := by
    simp [Serde.fields]
  have senderId : Serde.required Serde.readStr (some (.str inner.senderId)) =
      some inner.senderId := rfl
  rw [ofJson, toJson, found]
  simp only [Option.bind_eq_bind, Option.bind_some, Serde.required_bytes, senderId]

theorem openInner_seal (commutes : DhCommutes p) (aead : AeadOpens p) (reads : ReadsBack serde)
    {ephemeral secret : ByteArr 32} {nonce : ByteArr 24} {plaintext senderCert blob : Bytes}
    {senderId : String}
    (sealed : seal_ p ephemeral nonce plaintext senderId senderCert
      (p.x25519Public secret).toList = .ok blob) :
    openInner p serde blob secret.toList = .ok ⟨senderId, senderCert, plaintext⟩ := by
  simp only [seal_, tryInto_toList] at sealed
  split at sealed
  · cases sealed
  · rename_i encryptedInner encrypted
    cases sealed
    have long := Cipher.length_of_encrypt aead encrypted
    have opened := Cipher.decrypt_encrypt aead encrypted
    have size : ¬ ((p.x25519Public ephemeral).toList ++ encryptedInner).length < 32 + 24 + 16 := by
      simp only [List.length_append, List.Vector.toList_length]
      omega
    have front : (⟨((p.x25519Public ephemeral).toList ++ encryptedInner).take 32, by simp⟩ :
        ByteArr 32) = p.x25519Public ephemeral := Subtype.ext (List.take_left' (by simp))
    have back : ((p.x25519Public ephemeral).toList ++ encryptedInner).drop 32 = encryptedInner :=
      List.drop_left' (by simp)
    have read := reads ⟨senderId, senderCert, plaintext⟩
    simp only [openInner, size, ↓reduceDIte, tryInto_toList, front, back, commutes secret ephemeral,
      opened, read, SealedInner.ofJson_toJson]

/-- A certificate that is no signature by its length is not looked at. -/
theorem checkCertificate_of_length_ne (certVerificationKey : Bytes) {inner : SealedInner}
    (odd : inner.senderCert.length ≠ 64) :
    checkCertificate ed certVerificationKey inner = .ok () := by
  simp only [checkCertificate, odd, ↓reduceIte, ite_self]

theorem open_seal_of_length_ne (commutes : DhCommutes p) (aead : AeadOpens p)
    (reads : ReadsBack serde) {ephemeral secret : ByteArr 32} {nonce : ByteArr 24}
    {plaintext senderCert blob : Bytes} {senderId : String}
    (sealed : seal_ p ephemeral nonce plaintext senderId senderCert
      (p.x25519Public secret).toList = .ok blob)
    (odd : senderCert.length ≠ 64) (certVerificationKey : Bytes) :
    open_ p ed serde blob secret.toList certVerificationKey =
      .ok ⟨senderId, senderCert, plaintext⟩ := by
  apply open_eq_ok.mpr
  exact ⟨_, openInner_seal commutes aead reads sealed,
    checkCertificate_of_length_ne certVerificationKey odd, rfl⟩

theorem checkCertificate_of_length {vk : ByteArr 32} {inner : SealedInner}
    (whole : inner.senderCert.length = 64) :
    checkCertificate ed vk.toList inner = .ok () ↔
      ed.Valid vk.toList (strBytes inner.senderId) inner.senderCert := by
  have length : vk.toList.length = 32 := vk.toList_length
  have given : vk.toList ≠ [] := by
    intro empty
    simp [empty] at length
  simp only [checkCertificate, given, length, whole, tryInto_toList, ne_eq, not_false_eq_true,
    and_self, ↓reduceIte]
  constructor
  · intro checked
    split at checked
    · rename_i decodes
      split at checked
      · rename_i verified
        obtain ⟨sig, shape, accepted⟩ := Keys.verify_eq_true.mp verified
        exact ⟨vk, sig, rfl, shape, decodes, accepted⟩
      · cases checked
    · cases checked
  · rintro ⟨vk', sig, same, shape, decodes, accepted⟩
    obtain rfl := Subtype.ext same
    rw [if_pos decodes, if_pos (Keys.verify_eq_true.mpr ⟨sig, shape, accepted⟩)]

/-- What `open` returns is certified exactly when the certificate in the envelope has the
length of a signature. -/
theorem open_certified_iff (sealedBlob myIdentitySecret : Bytes)
    (certVerificationKey : ByteArr 32) :
    (∀ content,
      open_ p ed serde sealedBlob myIdentitySecret certVerificationKey.toList = .ok content →
        ed.Valid certVerificationKey.toList (strBytes content.senderId)
          content.senderCertificate) ↔
      ∀ inner, openInner p serde sealedBlob myIdentitySecret = .ok inner →
        inner.senderCert.length = 64 := by
  constructor
  · intro certified inner opened
    by_contra odd
    have passes : checkCertificate ed certVerificationKey.toList inner = .ok () :=
      checkCertificate_of_length_ne certVerificationKey.toList odd
    obtain ⟨vk, sig, -, shape, -⟩ := certified _ (open_eq_ok.mpr ⟨inner, opened, passes, rfl⟩)
    apply odd
    rw [show inner.senderCert = sig.toList from shape]
    exact sig.toList_length
  · intro whole content opened
    obtain ⟨inner, opens, checked, rfl⟩ := open_eq_ok.mp opened
    exact (checkCertificate_of_length (whole inner opens)).mp checked

/-- With an empty certificate anyone can be the sender. -/
theorem open_uncertified :
    ∃ (blob : Bytes) (content : SealedContent),
      open_ .sample .sample .sample blob (List.replicate 32 3) (List.replicate 32 5) =
        .ok content ∧
      content.senderId = "alice@hysj.no" ∧
      ¬ Ed25519.sample.Valid (List.replicate 32 5) (strBytes content.senderId)
        content.senderCertificate := by
  let secret : ByteArr 32 := .replicate 32 3
  obtain ⟨blob, sealed⟩ : ∃ blob, seal_ .sample (.replicate 32 2) (.replicate 24 0) []
      "alice@hysj.no" [] (Primitives.sample.x25519Public secret).toList = .ok blob := ⟨_, rfl⟩
  have opens : open_ .sample .sample .sample blob secret.toList (List.replicate 32 5) = .ok _ :=
    open_seal_of_length_ne Primitives.sample_commutes Primitives.sample_aead sample_readsBack
      sealed (by decide) _
  refine ⟨blob, ⟨"alice@hysj.no", [], []⟩, opens, rfl, ?_⟩
  · rintro ⟨vk, sig, -, shape, -⟩
    have size := sig.toList_length
    rw [← shape] at size
    cases size

end Sealed

end Hysj.Crypto
