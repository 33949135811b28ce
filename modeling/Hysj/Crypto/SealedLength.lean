import Hysj.Base.JsonSize
import Hysj.Crypto.Sealed

set_option autoImplicit false

/- What the length of a sealed blob tells. -/
namespace Hysj.Crypto

variable (p : Primitives)

/-- The ciphertext is as long as the message and a 16-byte tag. -/
def AeadExpands : Prop :=
  ∀ key nonce aad msg ciphertext,
    p.xchachaEncrypt key nonce aad msg = some ciphertext → ciphertext.length = msg.length + 16

variable {p}

theorem Cipher.length_eq_of_encrypt (expands : AeadExpands p)
    {nonce : ByteArr 24} {plaintext : Bytes}
    {key : ByteArr 32} {aad ciphertext : Bytes}
    (sealed : Cipher.encrypt p nonce plaintext key aad = .ok ciphertext) :
    ciphertext.length = plaintext.length + 40 := by
  obtain ⟨body, encrypted, rfl⟩ := Cipher.of_encrypt sealed
  have size := expands key nonce aad plaintext body encrypted
  rw [List.length_append, List.Vector.toList_length, size]
  omega

theorem Primitives.sample_expands : AeadExpands Primitives.sample := by
  intro key nonce aad msg ciphertext sealed
  obtain rfl := Option.some.inj sealed
  simp [sample.checksum]

namespace Sealed

open Json (Unescaped digits length_utf8_nil length_utf8_cons length_utf8_append length_renderString
  length_render_bytes)

/-- The envelope takes its names, the sender, and the digits of both byte vectors. -/
theorem SealedInner.length_toVec {senderId : String} {senderCert plaintext : Bytes}
    (plain : Unescaped senderId) :
    (Json.toVec (SealedInner.toJson ⟨senderId, senderCert, plaintext⟩)).length =
      (strBytes senderId).length + (digits senderCert + max senderCert.length 1) +
        (digits plaintext + max plaintext.length 1) + 46 := by
  have idName : (Json.utf8 (Json.renderString "sender_id")).length = 11 := by decide
  have certName : (Json.utf8 (Json.renderString "sender_cert")).length = 13 := by decide
  have textName : (Json.utf8 (Json.renderString "plaintext")).length = 11 := by decide
  have sender :
      (Json.utf8 (Json.render (.str senderId))).length = (strBytes senderId).length + 2 := by
    rw [Json.render, length_renderString plain, strBytes]
  have mark : '{'.utf8Size = 1 ∧ '}'.utf8Size = 1 ∧ ':'.utf8Size = 1 ∧ ','.utf8Size = 1 := by decide
  simp only [Json.toVec, SealedInner.toJson]
  rw [Json.render]
  simp only [Json.renderMembers, length_utf8_nil, length_utf8_cons,
    length_utf8_append, idName, certName,
    textName, sender, length_render_bytes, mark]
  omega

/-- A blob takes its envelope, the ephemeral key, the nonce and the tag. -/
theorem length_eq_of_seal (expands : AeadExpands p) {ephemeral : ByteArr 32} {nonce : ByteArr 24}
    {plaintext senderCert recipientIdentityPublic blob : Bytes} {senderId : String}
    (sealed : seal_ p ephemeral nonce plaintext senderId senderCert
    recipientIdentityPublic = .ok blob) :
    blob.length =
    (Json.toVec (SealedInner.toJson ⟨senderId, senderCert, plaintext⟩)).length + 72 := by
  unfold seal_ at sealed
  split at sealed
  · cases sealed
  · rename_i recipientPublic _
    dsimp only at sealed
    split at sealed
    · cases sealed
    · rename_i encryptedInner encrypted
      cases sealed
      have size := Cipher.length_eq_of_encrypt expands encrypted
      rw [List.length_append, List.Vector.toList_length, size]
      omega

/-- Two blobs whose contents have equal lengths have equal lengths exactly if the bytes of
certificate and plaintext take as many decimal digits. -/
theorem seal_length_eq_iff (expands : AeadExpands p) {ephemeral ephemeral' : ByteArr 32}
    {nonce nonce' : ByteArr 24}
    {plaintext plaintext' senderCert senderCert' recipientIdentityPublic blob blob' : Bytes}
    {senderId senderId' : String} (plain : Unescaped senderId) (plain' : Unescaped senderId')
    (senders : (strBytes senderId).length = (strBytes senderId').length)
    (certs : senderCert.length = senderCert'.length)
    (plaintexts : plaintext.length = plaintext'.length)
    (sealed : seal_ p ephemeral nonce plaintext senderId senderCert
    recipientIdentityPublic = .ok blob)
    (sealed' : seal_ p ephemeral' nonce' plaintext' senderId' senderCert' recipientIdentityPublic =
      .ok blob') :
    blob.length = blob'.length ↔
      digits senderCert + digits plaintext = digits senderCert' + digits plaintext' := by
  rw [length_eq_of_seal expands sealed, length_eq_of_seal expands sealed',
    SealedInner.length_toVec plain, SealedInner.length_toVec plain', senders, certs, plaintexts]
  omega

/-- A letter and another letter of two digits. -/
theorem seal_length_eq_sample : ∃ blob blob',
    seal_ .sample (.replicate 32 2) (.replicate 24 0) (strBytes "a") "alice" []
    (List.replicate 32 3) =
        .ok blob ∧
      seal_ .sample (.replicate 32 4) (.replicate 24 1) (strBytes "b") "carol" []
      (List.replicate 32 3) =
        .ok blob' ∧ blob.length = blob'.length := by
  obtain ⟨blob, sealed⟩ :
      ∃ blob, seal_ .sample (.replicate 32 2) (.replicate 24 0) (strBytes "a") "alice" []
      (List.replicate 32 3) = .ok blob := ⟨_, rfl⟩
  obtain ⟨blob', sealed'⟩ :
      ∃ blob, seal_ .sample (.replicate 32 4) (.replicate 24 1) (strBytes "b") "carol"
      [] (List.replicate 32 3) = .ok blob := ⟨_, rfl⟩
  refine ⟨blob, blob', sealed, sealed', ?_⟩
  apply (seal_length_eq_iff Primitives.sample_expands ?_ ?_ ?_ ?_ ?_ sealed sealed').mpr
  · decide
  · decide
  · decide
  · decide
  · rfl
  · decide

/-- The blob of one letter is shorter than that of another. -/
theorem seal_length_ne : ∃ blob blob',
    seal_ .sample (.replicate 32 2) (.replicate 24 0) (strBytes "a") "alice" []
    (List.replicate 32 3) =
        .ok blob ∧
      seal_ .sample (.replicate 32 2) (.replicate 24 0) (strBytes "z") "alice" []
      (List.replicate 32 3) =
        .ok blob' ∧ (strBytes "a").length = (strBytes "z").length ∧ Unescaped "alice" ∧
      blob.length < blob'.length := by
  refine ⟨_, _, rfl, rfl, rfl, by decide, ?_⟩
  decide +kernel

end Sealed

end Hysj.Crypto
