import Hysj.Crypto.Keys
import Hysj.Shared.Types

set_option autoImplicit false

namespace Hysj.Auth

open Crypto Shared

def SENDER_CERT_EXPIRY_SECONDS : UInt64 := 24 * 60 * 60

/-- A sender certificate binds a user identity to their public key, signed by the server's
Ed25519 key. -/
structure SenderCertificate where
  userId : String
  username : String
  publicKey : Bytes
  expiresAt : Int64
  signature : Bytes
  deriving DecidableEq

/-- `i64::to_le_bytes` -/
def toLeBytes (n : Int64) : Bytes :=
  [0, 8, 16, 24, 32, 40, 48, 56].map fun shift => UInt8.ofNat (n.toUInt64.toNat >>> shift)

/-- Build the canonical byte payload that gets signed and verified. -/
def certificatePayload (userId username : String) (publicKey : Bytes) (expiresAt : Int64) :
    Bytes :=
  strBytes userId ++ strBytes username ++ publicKey ++ toLeBytes expiresAt

def SenderCertificate.payload (cert : SenderCertificate) : Bytes :=
  certificatePayload cert.userId cert.username cert.publicKey cert.expiresAt

/-- Derive a deterministic Ed25519 keypair from a 32-byte seed: the signing key is its seed. -/
def getSigningKeypairFromSeed (ed : Ed25519) (seed : ByteArr 32) : ByteArr 32 × ByteArr 32 :=
  (seed, ed.verifyingKey seed)

/-- Sign a new sender certificate valid for 24 hours. `now` is the timestamp of `Utc::now()`;
the sum wraps, as in the release profile. -/
def signCertificate (ed : Ed25519) (now : Int64) (userId : Uuid) (username : String)
    (userPublicKey : Bytes) (signingKey : ByteArr 32) : SenderCertificate :=
  let expiresAt := now + SENDER_CERT_EXPIRY_SECONDS.toInt64
  let payload := certificatePayload userId.display username userPublicKey expiresAt
  { userId := userId.display
    username := username
    publicKey := userPublicKey
    expiresAt := expiresAt
    signature := (ed.sign signingKey payload).toList }

/-- Verify a sender certificate's signature and check that it hasn't expired. -/
def verifyCertificate (ed : Ed25519) (now : Int64) (cert : SenderCertificate)
    (verificationKey : ByteArr 32) : Except AuthError Bool :=
  if cert.expiresAt < now then .error .expired
  else
    match tryInto 64 cert.signature with
    | none => .error (.certificateError "invalid signature length")
    | some signature => .ok (ed.verify verificationKey cert.payload signature)

theorem verifyCertificate_eq_ok {ed : Ed25519} {now : Int64} {cert : SenderCertificate}
    {verificationKey : ByteArr 32} {valid : Bool} :
    verifyCertificate ed now cert verificationKey = .ok valid ↔
      ¬ cert.expiresAt < now ∧ ∃ signature : ByteArr 64, cert.signature = signature.toList ∧
        ed.verify verificationKey cert.payload signature = valid := by
  unfold verifyCertificate
  by_cases expired : cert.expiresAt < now
  · simp [expired]
  · rw [if_neg expired]
    constructor
    · intro verified
      refine ⟨expired, ?_⟩
      split at verified
      · cases verified
      · rename_i signature exact_
        exact ⟨signature, tryInto_eq_some.mp exact_, Except.ok.inj verified⟩
    · rintro ⟨-, signature, shape, verified⟩
      simp only [shape, tryInto_toList, verified]

/-- A certificate that the server signed verifies until it expires. -/
theorem verify_signCertificate {ed : Ed25519} (correct : ed.Correct) (now issuedAt : Int64)
    (userId : Uuid) (username : String) (userPublicKey : Bytes) (seed : ByteArr 32) :
    verifyCertificate ed now (signCertificate ed issuedAt userId username userPublicKey seed)
        (ed.verifyingKey seed) = .ok true ↔
      ¬ issuedAt + SENDER_CERT_EXPIRY_SECONDS.toInt64 < now := by
  rw [verifyCertificate_eq_ok]
  constructor
  · exact And.left
  · intro current
    exact ⟨current, _, rfl, correct seed _⟩

theorem mod_two_pow_of_byte {m n j : Nat} (low : m % 2 ^ j = n % 2 ^ j)
    (byte : m / 2 ^ j % 2 ^ 8 = n / 2 ^ j % 2 ^ 8) : m % 2 ^ (j + 8) = n % 2 ^ (j + 8) := by
  rw [pow_add, Nat.mod_mul, Nat.mod_mul, low, byte]

theorem toLeBytes_injective : Function.Injective toLeBytes := by
  intro left right same
  simp only [toLeBytes, List.map_cons, List.map_nil, List.cons.injEq, and_true,
    ← UInt8.toNat_inj, UInt8.toNat_ofNat', Nat.shiftRight_eq_div_pow] at same
  obtain ⟨b0, b1, b2, b3, b4, b5, b6, b7⟩ := same
  have none_ : left.toUInt64.toNat % 2 ^ 0 = right.toUInt64.toNat % 2 ^ 0 := by
    rw [pow_zero, Nat.mod_one, Nat.mod_one]
  have half : left.toUInt64.toNat % 2 ^ 32 = right.toUInt64.toNat % 2 ^ 32 :=
    mod_two_pow_of_byte (mod_two_pow_of_byte (mod_two_pow_of_byte
      (mod_two_pow_of_byte none_ b0) b1) b2) b3
  have equal : left.toUInt64.toNat % 2 ^ 64 = right.toUInt64.toNat % 2 ^ 64 :=
    mod_two_pow_of_byte (mod_two_pow_of_byte (mod_two_pow_of_byte
      (mod_two_pow_of_byte half b4) b5) b6) b7
  rw [Nat.mod_eq_of_lt left.toUInt64.toNat_lt, Nat.mod_eq_of_lt right.toUInt64.toNat_lt] at equal
  rw [← left.toInt64_toUInt64, ← right.toInt64_toUInt64, UInt64.toNat_inj.mp equal]

/-- The payload determines the expiry, and the other fields up to where they end. -/
theorem certificatePayload_inj {userId userId' username username' : String}
    {publicKey publicKey' : Bytes} {expiresAt expiresAt' : Int64} :
    certificatePayload userId username publicKey expiresAt =
        certificatePayload userId' username' publicKey' expiresAt' ↔
      strBytes userId ++ strBytes username ++ publicKey =
          strBytes userId' ++ strBytes username' ++ publicKey' ∧ expiresAt = expiresAt' := by
  constructor
  · intro same
    obtain ⟨fields, expiry⟩ := List.append_inj' same rfl
    exact ⟨fields, toLeBytes_injective expiry⟩
  · rintro ⟨fields, rfl⟩
    rw [certificatePayload, fields, certificatePayload]

/-- The four fields of a certificate are those of another. -/
structure SenderCertificate.SameFields (cert other : SenderCertificate) : Prop where
  userId : cert.userId = other.userId
  username : cert.username = other.username
  publicKey : cert.publicKey = other.publicKey
  expiresAt : cert.expiresAt = other.expiresAt

/-- Certificates of one payload agree once their ids and names have the same lengths. -/
theorem SenderCertificate.sameFields_iff {cert other : SenderCertificate}
    (same : cert.payload = other.payload) :
    cert.SameFields other ↔
      (strBytes cert.userId).length = (strBytes other.userId).length ∧
        (strBytes cert.username).length = (strBytes other.username).length := by
  constructor
  · intro fields
    rw [fields.userId, fields.username]
    exact ⟨rfl, rfl⟩
  · rintro ⟨userIds, usernames⟩
    obtain ⟨fields, expiry⟩ := certificatePayload_inj.mp same
    simp only [List.append_assoc] at fields
    obtain ⟨userId, fields⟩ := List.append_inj fields userIds
    obtain ⟨username, publicKey⟩ := List.append_inj fields usernames
    exact ⟨strBytes_injective userId, strBytes_injective username, publicKey, expiry⟩

theorem SenderCertificate.SameFields.payload {cert other : SenderCertificate}
    (fields : cert.SameFields other) : cert.payload = other.payload := by
  rw [SenderCertificate.payload, fields.userId, fields.username, fields.publicKey,
    fields.expiresAt, SenderCertificate.payload]

/-- One call of `sign_certificate`. -/
structure SignCall where
  now : Int64
  userId : Uuid
  username : String
  userPublicKey : Bytes

/-- What the call returned. -/
def SignCall.issued (ed : Ed25519) (seed : ByteArr 32) (call : SignCall) : SenderCertificate :=
  signCertificate ed call.now call.userId call.username call.userPublicKey seed

/-- The signature was not forged: if it is valid, the server has signed this payload. -/
def SenderCertificate.Unforged (ed : Ed25519) (seed : ByteArr 32) (history : List SignCall)
    (cert : SenderCertificate) : Prop :=
  Keys.verify ed (ed.verifyingKey seed) cert.payload cert.signature = true →
    ∃ call ∈ history, (call.issued ed seed).payload = cert.payload

/-- Whatever signature four fields come with, they are those of an issued certificate once
they verify, exactly when no issued certificate splits their payload in another way only. -/
theorem verified_issued_iff {ed : Ed25519} (correct : ed.Correct) (seed : ByteArr 32)
    (history : List SignCall) (fields : SenderCertificate) :
    (∀ now signature, SenderCertificate.Unforged ed seed history { fields with signature } →
      verifyCertificate ed now { fields with signature } (ed.verifyingKey seed) = .ok true →
        ∃ call ∈ history, fields.SameFields (call.issued ed seed)) ↔
      ∀ call ∈ history, (call.issued ed seed).payload = fields.payload →
        ∃ other ∈ history, (other.issued ed seed).payload = fields.payload ∧
          (strBytes fields.userId).length =
            (strBytes (other.issued ed seed).userId).length ∧
          (strBytes fields.username).length =
            (strBytes (other.issued ed seed).username).length := by
  constructor
  · intro genuine call member same
    -- the signature of the call is one for `fields` as well
    have verified : ed.verify (ed.verifyingKey seed) fields.payload
        (ed.sign seed fields.payload) = true := correct seed fields.payload
    obtain ⟨other, listed, agrees⟩ := genuine fields.expiresAt
      (ed.sign seed fields.payload).toList (fun _ => ⟨call, member, same⟩)
      (verifyCertificate_eq_ok.mpr ⟨Int64.lt_irrefl, _, rfl, verified⟩)
    have split := (SenderCertificate.sameFields_iff agrees.payload).mp agrees
    exact ⟨other, listed, agrees.payload.symm, split.1, split.2⟩
  · intro splits now signature unforged verified
    obtain ⟨-, sig, rfl, accepted⟩ := verifyCertificate_eq_ok.mp verified
    obtain ⟨call, member, same⟩ := unforged (Keys.verify_eq_true.mpr ⟨sig, rfl, accepted⟩)
    obtain ⟨other, listed, alike, userIds, usernames⟩ := splits call member same
    exact ⟨other, listed, (SenderCertificate.sameFields_iff alike.symm).mpr ⟨userIds, usernames⟩⟩

/-- Alice, with a public key that starts with the byte of the letter `x`. -/
def aliceCall : SignCall := ⟨1000, .replicate 16 0, "alice", [120, 1, 2]⟩

/-- The certificate that Alice got verifies, and its fields are the ones she asked for. -/
theorem verified_issued_iff_alice :
    ∃ call ∈ [aliceCall], (aliceCall.issued .sample (.replicate 32 7)).SameFields
      (call.issued .sample (.replicate 32 7)) := by
  have issued : aliceCall ∈ [aliceCall] := List.mem_singleton.mpr rfl
  apply (verified_issued_iff Ed25519.sample_correct (.replicate 32 7) [aliceCall]
    (aliceCall.issued .sample (.replicate 32 7))).mpr ?_ 1000
    (aliceCall.issued .sample (.replicate 32 7)).signature
  · exact fun _ => ⟨aliceCall, issued, rfl⟩
  · exact (verify_signCertificate Ed25519.sample_correct 1000 1000 _ _ _ _).mpr (by decide)
  · intro call member _
    exact ⟨aliceCall, issued, rfl, rfl, rfl⟩

/-- The first byte of the key moves into the name: `alicex` verifies without having been
issued. -/
theorem moved_byte_verifies :
    ∃ cert : SenderCertificate, cert.Unforged .sample (.replicate 32 7) [aliceCall] ∧
      verifyCertificate .sample 1000 cert (Ed25519.sample.verifyingKey (.replicate 32 7)) =
        .ok true ∧
      cert.username = "alicex" ∧
      ∀ call ∈ [aliceCall], ¬ cert.SameFields (call.issued .sample (.replicate 32 7)) := by
  let issued := aliceCall.issued .sample (.replicate 32 7)
  let moved := { issued with username := "alicex", publicKey := [1, 2] }
  have name : strBytes "alicex" = strBytes "alice" ++ [120] := by decide
  have same : issued.payload = moved.payload := by
    apply certificatePayload_inj.mpr
    refine ⟨?_, rfl⟩
    show strBytes issued.userId ++ strBytes "alice" ++ [120, 1, 2] =
      strBytes issued.userId ++ strBytes "alicex" ++ [1, 2]
    rw [name]
    simp
  have accepted := Ed25519.sample_correct (.replicate 32 7) issued.payload
  rw [same] at accepted
  refine ⟨moved, fun _ => ⟨aliceCall, List.mem_singleton.mpr rfl, same⟩, ?_, rfl, ?_⟩
  · exact verifyCertificate_eq_ok.mpr ⟨by decide, _, by rw [← same]; rfl, accepted⟩
  · intro call member fields
    obtain rfl := List.mem_singleton.mp member
    have usernames := fields.username
    revert usernames
    decide

end Hysj.Auth
