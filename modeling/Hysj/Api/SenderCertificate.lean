import Hysj.Auth.Certificate
import Hysj.Base.Base64
import Hysj.Crypto.Sealed

set_option autoImplicit false

/- The endpoint that hands out sender certificates, and what sealed-sender messages make of
them. -/
namespace Hysj.Api

open Crypto Auth Shared

/-- Of a row of `users`, the column the endpoint reads. -/
structure User where
  identityPublicKey : Bytes

structure AuthUser where
  userId : Uuid
  deviceId : Uuid
  username : String

structure SenderCertificateResponse where
  certificate : String
  serverPublicKey : String

/-- The derived `Serialize`. -/
def certificateToJson (cert : SenderCertificate) : Json.Value :=
  .obj
    [("user_id", .str cert.userId), ("username", .str cert.username),
      ("public_key", Serde.bytes cert.publicKey), ("expires_at", .num cert.expiresAt.toInt),
      ("signature", Serde.bytes cert.signature)]

variable (ed : Ed25519) (b64 : Base64Engine)

/-- `POST /api/auth/sender-certificate` at the time `now`. -/
def senderCertificate (findById : Uuid → Except DbError (Option User)) (now : Int64)
    (certSigningSeed : ByteArr 32) (auth : AuthUser) :
    Except HysjError SenderCertificateResponse :=
  match findById auth.userId with
  | .error e => .error (.ofDb e)
  | .ok none => .error (.userNotFound auth.userId)
  | .ok (some user) =>
      let keypair := getSigningKeypairFromSeed ed certSigningSeed
      let cert := signCertificate ed now auth.userId auth.username user.identityPublicKey keypair.1
      .ok
        { certificate := b64.encode (Json.toVec (certificateToJson cert))
          serverPublicKey := b64.encode keypair.2.toList }

variable {ed b64}

theorem length_certificateToJson {cert : SenderCertificate}
    (signed : cert.signature.length = 64) :
    (Json.toVec (certificateToJson cert)).length ≠ 64 := by
  have items := Json.length_render_arr (cert.signature.map fun b => .num b.toNat)
  rw [List.length_map, signed] at items
  have member : (Json.render (Serde.bytes cert.signature)).length ≤
      (Json.render (certificateToJson cert)).length := by
    have listed : ("signature", Serde.bytes cert.signature) ∈
        [("user_id", Json.Value.str cert.userId), ("username", .str cert.username),
          ("public_key", Serde.bytes cert.publicKey), ("expires_at", .num cert.expiresAt.toInt),
          ("signature", Serde.bytes cert.signature)] := by simp
    exact Json.length_render_member listed
  have encoded : (Json.render (certificateToJson cert)).length ≤
      (Json.toVec (certificateToJson cert)).length := Json.length_le_utf8 _
  rw [Serde.bytes] at member
  omega

section

variable {p : Primitives} {serde : SerdeJson} {findById : Uuid → Except DbError (Option User)}
  {auth : AuthUser} {user : User} {issuedAt : Int64} {seed ephemeral secret : ByteArr 32}
  {nonce : ByteArr 24} {response : SenderCertificateResponse}
  {certificate plaintext blob : Bytes} {verificationKey : ByteArr 32} {senderId : String}

theorem decode_response (inverse : b64.Inverse) (found : findById auth.userId = .ok (some user))
    (handedOut : senderCertificate ed b64 findById issuedAt seed auth = .ok response) :
    b64.decode response.certificate = .ok (Json.toVec (certificateToJson (signCertificate ed
      issuedAt auth.userId auth.username user.identityPublicKey seed))) ∧
    b64.decode response.serverPublicKey = .ok (ed.verifyingKey seed).toList := by
  simp only [senderCertificate, found, Except.ok.injEq] at handedOut
  rw [← handedOut]
  exact ⟨inverse _, inverse _⟩

/-- Whoever uses a certificate of the endpoint, and whenever, the message opens. -/
theorem open_certificate (commutes : DhCommutes p) (aead : AeadOpens p)
    (reads : Sealed.ReadsBack serde) (inverse : b64.Inverse)
    (found : findById auth.userId = .ok (some user))
    (handedOut : senderCertificate ed b64 findById issuedAt seed auth = .ok response)
    (decodes : b64.decode response.certificate = .ok certificate)
    (sealed : Sealed.seal_ p ephemeral nonce plaintext senderId certificate
      (p.x25519Public secret).toList = .ok blob) (key : Bytes) :
    Sealed.open_ p ed serde blob secret.toList key =
      .ok ⟨senderId, certificate, plaintext⟩ := by
  apply Sealed.open_seal_of_length_ne commutes aead reads sealed
  rw [(decode_response inverse found handedOut).1] at decodes
  rw [← Except.ok.inj decodes]
  apply length_certificateToJson
  exact (ed.sign seed _).toList_length

/-- The two sides agree exactly while the certificate is current and used by the user it was
issued to. -/
theorem open_agrees_verify_iff (commutes : DhCommutes p) (aead : AeadOpens p)
    (reads : Sealed.ReadsBack serde) (correct : ed.Correct) (inverse : b64.Inverse)
    (found : findById auth.userId = .ok (some user))
    (handedOut : senderCertificate ed b64 findById issuedAt seed auth = .ok response)
    (decodes : b64.decode response.certificate = .ok certificate)
    (decodesKey : b64.decode response.serverPublicKey = .ok verificationKey.toList)
    (sealed : Sealed.seal_ p ephemeral nonce plaintext senderId certificate
      (p.x25519Public secret).toList = .ok blob) (now : Int64) :
    ((∃ content, Sealed.open_ p ed serde blob secret.toList verificationKey.toList =
        .ok content) ↔
      senderId = auth.userId.display ∧
        verifyCertificate ed now (signCertificate ed issuedAt auth.userId auth.username
          user.identityPublicKey seed) verificationKey = .ok true) ↔
      senderId = auth.userId.display ∧
        ¬ issuedAt + SENDER_CERT_EXPIRY_SECONDS.toInt64 < now := by
  have opens := open_certificate commutes aead reads inverse found handedOut decodes sealed
    verificationKey.toList
  rw [(decode_response inverse found handedOut).2] at decodesKey
  obtain rfl := Subtype.ext (Except.ok.inj decodesKey)
  rw [verify_signCertificate correct]
  constructor
  · intro agree
    exact agree.mp ⟨_, opens⟩
  · intro current
    exact ⟨fun _ => current, fun _ => ⟨_, opens⟩⟩

end

def alice : AuthUser := ⟨.replicate 16 0, .replicate 16 1, "alice"⟩

def aliceRow : User := ⟨List.replicate 32 1⟩

/-- What the server signs for Alice at the time `1000`. -/
def aliceCertificate : SenderCertificate :=
  signCertificate .sample 1000 alice.userId alice.username aliceRow.identityPublicKey
    (.replicate 32 7)

def aliceBytes : Bytes := Json.toVec (certificateToJson aliceCertificate)

def aliceResponse : SenderCertificateResponse :=
  ⟨Base64Engine.sample.encode aliceBytes, Base64Engine.sample.encode (List.replicate 32 7)⟩

theorem senderCertificate_alice :
    senderCertificate .sample .sample (fun _ => .ok (some aliceRow)) 1000 (.replicate 32 7)
      alice = .ok aliceResponse := rfl

theorem decode_alice :
    Base64Engine.sample.decode aliceResponse.certificate = .ok aliceBytes ∧
      Base64Engine.sample.decode aliceResponse.serverPublicKey =
        .ok (Ed25519.sample.verifyingKey (.replicate 32 7)).toList :=
  decode_response Base64Engine.sample_inverse rfl senderCertificate_alice

theorem seal_alice (senderId : String) :
    ∃ blob, Sealed.seal_ .sample (.replicate 32 2) (.replicate 24 0) [1, 2] senderId aliceBytes
      (Primitives.sample.x25519Public (.replicate 32 3)).toList = .ok blob := ⟨_, rfl⟩

/-- Alice's own message opens, within the day. -/
theorem open_agrees_verify_iff_alice :
    ∃ blob, Sealed.seal_ .sample (.replicate 32 2) (.replicate 24 0) [1, 2] alice.userId.display
        aliceBytes (Primitives.sample.x25519Public (.replicate 32 3)).toList = .ok blob ∧
      ((∃ content, Sealed.open_ .sample .sample .sample blob (List.replicate 32 3)
          (List.replicate 32 7) = .ok content) ↔
        alice.userId.display = alice.userId.display ∧
          verifyCertificate .sample 2000 aliceCertificate (.replicate 32 7) = .ok true) := by
  obtain ⟨blob, sealed⟩ := seal_alice alice.userId.display
  refine ⟨blob, sealed, ?_⟩
  exact (open_agrees_verify_iff Primitives.sample_commutes Primitives.sample_aead
    Sealed.sample_readsBack Ed25519.sample_correct Base64Engine.sample_inverse rfl
    senderCertificate_alice decode_alice.1 decode_alice.2 sealed 2000).mpr
    ⟨rfl, by decide⟩

/-- Mallory seals a message with Alice's certificate, and it opens although the certificate
is not for her. -/
theorem open_accepts_borrowed :
    ∃ blob, Sealed.seal_ .sample (.replicate 32 2) (.replicate 24 0) [1, 2] "mallory" aliceBytes
        (Primitives.sample.x25519Public (.replicate 32 3)).toList = .ok blob ∧
      ¬ ((∃ content, Sealed.open_ .sample .sample .sample blob (List.replicate 32 3)
          (List.replicate 32 7) = .ok content) ↔
        "mallory" = alice.userId.display ∧
          verifyCertificate .sample 2000 aliceCertificate (.replicate 32 7) = .ok true) := by
  obtain ⟨blob, sealed⟩ := seal_alice "mallory"
  have opens := open_certificate Primitives.sample_commutes Primitives.sample_aead
    Sealed.sample_readsBack Base64Engine.sample_inverse rfl senderCertificate_alice decode_alice.1
    sealed (List.replicate 32 7)
  refine ⟨blob, sealed, ?_⟩
  intro agree
  have same := (agree.mp ⟨_, opens⟩).1
  revert same
  decide

end Hysj.Api
