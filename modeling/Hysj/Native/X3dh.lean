import Hysj.Base.Base64
import Hysj.Crypto.PreKeyBundles

set_option autoImplicit false

/- The handshake of the native bridge: all keys travel as base64 text. -/
namespace Hysj.Native

open Crypto X3dh

/-- The keys of a bundle, as the app hands them to the bridge. -/
structure BundleTexts where
  theirIdentityPublicB64 : String
  theirSignedPreKeyB64 : String
  theirSignedPreKeySigB64 : String
  theirOneTimePreKeyB64 : Option String
  theirKyberPublicB64 : String

variable (p : Primitives) (kem : MlKem768) (b64 : Base64Engine)

def BundleTexts.decode (texts : BundleTexts) : Except String PreKeyBundle := do
  let theirIk ← b64.decode texts.theirIdentityPublicB64
  let theirSpk ← b64.decode texts.theirSignedPreKeyB64
  let theirSpkSig ← b64.decode texts.theirSignedPreKeySigB64
  let theirOpk ← texts.theirOneTimePreKeyB64.mapM b64.decode
  let theirKyber ← b64.decode texts.theirKyberPublicB64
  pure ⟨theirIk, theirSpk, theirSpkSig, theirOpk, theirKyber⟩

/-- `(shared_secret_b64, ephemeral_public_b64, kyber_ciphertext_b64)` -/
def x3dhInitiate (ephemeral coins : ByteArr 32) (ourIdentitySecretB64 ourIdentityPublicB64 : String)
    (texts : BundleTexts) : Except String (String × String × String) := do
  let ourIkSecret ← b64.decode ourIdentitySecretB64
  let ourIkPublic ← b64.decode ourIdentityPublicB64
  let bundle ← texts.decode b64
  let result ← (X3dh.x3dhInitiate p kem ephemeral coins ourIkSecret ourIkPublic bundle).mapError
    CryptoError.display
  pure (b64.encode result.sharedSecret, b64.encode result.ephemeralPublic,
    b64.encode result.kyberCiphertext)

/-- The keys of the recipient, as the app hands them to the bridge. -/
structure ResponderTexts where
  ourIdentitySecretB64 : String
  ourSignedPreKeySecretB64 : String
  ourOneTimePreKeySecretB64 : Option String
  ourKyberSecretB64 : String
  theirIdentityPublicB64 : String

/-- `shared_secret_b64` -/
def x3dhRespond (ours : ResponderTexts) (theirEphemeralPublicB64 kyberCiphertextB64 : String) :
    Except String String := do
  let ourIk ← b64.decode ours.ourIdentitySecretB64
  let ourSpk ← b64.decode ours.ourSignedPreKeySecretB64
  let ourOpk ← ours.ourOneTimePreKeySecretB64.mapM b64.decode
  let ourKyber ← b64.decode ours.ourKyberSecretB64
  let theirIk ← b64.decode ours.theirIdentityPublicB64
  let theirEph ← b64.decode theirEphemeralPublicB64
  let kyberCt ← b64.decode kyberCiphertextB64
  let sharedSecret ← (X3dh.x3dhRespond p kem ourIk ourSpk ourOpk ourKyber theirIk theirEph
    kyberCt).mapError CryptoError.display
  pure (b64.encode sharedSecret)

variable {p kem b64}

/-- The bridge begins a handshake with every bundle whose texts can be decoded and whose keys can be
used. -/
theorem x3dhInitiate_ok_iff {ephemeral coins : ByteArr 32}
    {ourIdentitySecretB64 ourIdentityPublicB64 : String} {texts : BundleTexts} :
    (∃ answer,
    x3dhInitiate p kem b64 ephemeral coins ourIdentitySecretB64 ourIdentityPublicB64 texts =
        .ok answer) ↔
      ∃ ourIkSecret ourIkPublic bundle, b64.decode ourIdentitySecretB64 = .ok ourIkSecret ∧
        b64.decode ourIdentityPublicB64 = .ok ourIkPublic ∧ texts.decode b64 = .ok bundle ∧
        Usable kem coins ourIkSecret bundle := by
  constructor
  · rintro ⟨answer, done⟩
    simp only [x3dhInitiate, Result.bind_eq_ok, Result.mapError_eq_ok] at done
    obtain ⟨ourIkSecret, secret, ourIkPublic, publics, bundle, decoded, result,
        initiated, -⟩ := done
    exact ⟨ourIkSecret, ourIkPublic, bundle, secret, publics, decoded, usable_of_ok initiated⟩
  · rintro ⟨ourIkSecret, ourIkPublic, bundle, secret, publics, decoded, usable⟩
    obtain ⟨result, initiated⟩ :
        ∃ result, X3dh.x3dhInitiate p kem ephemeral coins ourIkSecret ourIkPublic
        bundle = .ok result := ok_of_usable usable
    refine ⟨(b64.encode result.sharedSecret, b64.encode result.ephemeralPublic,
      b64.encode result.kyberCiphertext), ?_⟩
    simp only [x3dhInitiate, Result.bind_eq_ok, Result.mapError_eq_ok]
    exact ⟨ourIkSecret, secret, ourIkPublic, publics, bundle, decoded, result, initiated, rfl⟩

end Hysj.Native
