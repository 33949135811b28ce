import Hysj.Base.Result
import Hysj.Crypto.PostQuantum

set_option autoImplicit false

namespace Hysj.Crypto

/-- Result of an X3DH initiation (sender side). -/
structure X3DHInitResult where
  sharedSecret : Bytes
  ephemeralPublic : Bytes
  kyberCiphertext : Bytes
  usedOneTimeKey : Bool
  deriving DecidableEq

/-- Recipient's pre-key bundle published to the server. -/
structure PreKeyBundle where
  identityPublic : Bytes
  signedPreKey : Bytes
  signedPreKeySig : Bytes
  oneTimePreKey : Option Bytes
  kyberPublic : Bytes
  deriving DecidableEq

namespace X3dh

open Kdf (hkdfDerive)
open PostQuantum (kyberEncapsulate kyberDecapsulate)

variable (p : Primitives) (kem : MlKem768)

/-- What `bytes_to_secret` and `bytes_to_public` have in common. -/
def bytesToKey (bytes : Bytes) : Except CryptoError (ByteArr 32) :=
  match tryInto 32 bytes with
  | none => .error (.invalidKeyLength 32 bytes.length)
  | some key => .ok key

/-- Convert a 32-byte slice to an X25519 `StaticSecret`. -/
abbrev bytesToSecret (bytes : Bytes) : Except CryptoError (ByteArr 32) := bytesToKey bytes

/-- Convert a 32-byte slice to an X25519 `PublicKey`. -/
abbrev bytesToPublic (bytes : Bytes) : Except CryptoError (ByteArr 32) := bytesToKey bytes

/-- `DH1 || DH2 || DH3 || DH4 || kyber_secret` -/
def combine (dh1 dh2 dh3 : ByteArr 32) (dh4 : Option (ByteArr 32)) (kyberShared : Bytes) :
    Bytes :=
  dh1.toList ++ dh2.toList ++ dh3.toList ++ dh4.elim [] List.Vector.toList ++ kyberShared

/-- The keying material of the sender, and the KEM ciphertext. `ephemeral` is the secret
drawn by `generate_x25519_keypair`, `coins` what the encapsulation draws. -/
def initiateCombined (ephemeral coins : ByteArr 32) (myIdentitySecret : Bytes)
    (bundle : PreKeyBundle) : Except CryptoError (Bytes × Bytes) := do
  let identitySecret ← bytesToSecret myIdentitySecret
  let theirIdentityPublic ← bytesToPublic bundle.identityPublic
  let theirSignedPreKey ← bytesToPublic bundle.signedPreKey
  let dh1 := p.x25519 identitySecret theirSignedPreKey
  let dh2 := p.x25519 ephemeral theirIdentityPublic
  let dh3 := p.x25519 ephemeral theirSignedPreKey
  let dh4 ← bundle.oneTimePreKey.mapM fun otpk => do
    let theirOtpk ← bytesToPublic otpk
    pure (p.x25519 ephemeral theirOtpk)
  let kemResult ← (kyberEncapsulate kem coins bundle.kyberPublic).mapError fun e =>
    .x3dhError ("KEM encapsulation failed: " ++ e.display)
  pure (combine dh1 dh2 dh3 dh4 kemResult.2, kemResult.1)

/-- Initiate an X3DH handshake (sender side). -/
def x3dhInitiate (ephemeral coins : ByteArr 32) (myIdentitySecret _myIdentityPublic : Bytes)
    (bundle : PreKeyBundle) : Except CryptoError X3DHInitResult := do
  let combined ← initiateCombined p kem ephemeral coins myIdentitySecret bundle
  pure
    { sharedSecret := (hkdfDerive p combined.1 (strBytes "hysj-x3dh-v2") [] 32).toList
      ephemeralPublic := (p.x25519Public ephemeral).toList
      kyberCiphertext := combined.2
      usedOneTimeKey := bundle.oneTimePreKey.isSome }

/-- The keying material of the recipient. -/
def respondCombined (myIdentitySecret mySignedPreKeySecret : Bytes)
    (myOneTimePreKeySecret : Option Bytes)
    (myKyberSecretKey theirIdentityPublic theirEphemeralPublic kyberCiphertext : Bytes) :
    Except CryptoError Bytes := do
  let identitySecret ← bytesToSecret myIdentitySecret
  let signedPreKeySecret ← bytesToSecret mySignedPreKeySecret
  let theirIdentity ← bytesToPublic theirIdentityPublic
  let theirEphemeral ← bytesToPublic theirEphemeralPublic
  let dh1 := p.x25519 signedPreKeySecret theirIdentity
  let dh2 := p.x25519 identitySecret theirEphemeral
  let dh3 := p.x25519 signedPreKeySecret theirEphemeral
  let dh4 ← myOneTimePreKeySecret.mapM fun otpkBytes => do
    let otpkSecret ← bytesToSecret otpkBytes
    pure (p.x25519 otpkSecret theirEphemeral)
  let kyberShared ← (kyberDecapsulate kem kyberCiphertext myKyberSecretKey).mapError fun e =>
    .x3dhError ("KEM decapsulation failed: " ++ e.display)
  pure (combine dh1 dh2 dh3 dh4 kyberShared)

/-- Respond to an X3DH handshake (recipient side). -/
def x3dhRespond (myIdentitySecret mySignedPreKeySecret : Bytes)
    (myOneTimePreKeySecret : Option Bytes)
    (myKyberSecretKey theirIdentityPublic theirEphemeralPublic kyberCiphertext : Bytes) :
    Except CryptoError Bytes := do
  let combined ← respondCombined p kem myIdentitySecret mySignedPreKeySecret
    myOneTimePreKeySecret myKyberSecretKey theirIdentityPublic theirEphemeralPublic
    kyberCiphertext
  pure (hkdfDerive p combined (strBytes "hysj-x3dh-v2") [] 32).toList

/-- The two byte strings are a private key and its public key. -/
def KeyPair (secretKey publicKey : Bytes) : Prop :=
  ∃ secret, secretKey = secret.toList ∧ publicKey = (p.x25519Public secret).toList

/-- What the two sides have to agree on: the recipient uses the secrets behind the bundle,
the sender's true identity key, and a one-time pre-key exactly when the sender did. -/
structure Matching (bundle : PreKeyBundle) (initiatorSecret : Bytes) (usedOneTimeKey : Bool)
    (identitySecret signedPreKeySecret : Bytes) (oneTimePreKeySecret : Option Bytes)
    (kyberSecretKey theirIdentityPublic : Bytes) : Prop where
  identity : KeyPair p identitySecret bundle.identityPublic
  signedPreKey : KeyPair p signedPreKeySecret bundle.signedPreKey
  initiator : KeyPair p initiatorSecret theirIdentityPublic
  kyber : kem.KeyPair kyberSecretKey bundle.kyberPublic
  oneTimeUsed : oneTimePreKeySecret.isSome = usedOneTimeKey
  oneTime : ∀ secret ∈ oneTimePreKeySecret, ∃ key ∈ bundle.oneTimePreKey, KeyPair p secret key

variable {p kem}

@[simp] theorem bytesToKey_eq_ok {bytes : Bytes} {key : ByteArr 32} :
    bytesToKey bytes = .ok key ↔ bytes = key.toList := by
  rw [← tryInto_eq_some, bytesToKey]
  cases tryInto 32 bytes <;> simp

theorem append_toList_inj {n : Nat} {left left' : ByteArr n} {right right' : Bytes}
    (same : left.toList ++ right = left'.toList ++ right') : left = left' ∧ right = right' := by
  obtain ⟨lefts, rights⟩ := List.append_inj same (by simp)
  exact ⟨Subtype.ext lefts, rights⟩

theorem combine_inj {dh1 dh2 dh3 dh1' dh2' dh3' : ByteArr 32} {dh4 dh4' : Option (ByteArr 32)}
    {kyber kyber' : Bytes} (sizes : kyber.length = kyber'.length)
    (same : combine dh1 dh2 dh3 dh4 kyber = combine dh1' dh2' dh3' dh4' kyber') :
    dh1 = dh1' ∧ dh2 = dh2' ∧ dh3 = dh3' ∧ dh4 = dh4' ∧ kyber = kyber' := by
  have lengths := congrArg List.length same
  simp only [combine, List.append_assoc] at same
  obtain ⟨first, same⟩ := append_toList_inj same
  obtain ⟨second, same⟩ := append_toList_inj same
  obtain ⟨third, same⟩ := append_toList_inj same
  refine ⟨first, second, third, ?_⟩
  cases dh4 with
  | none =>
      cases dh4' with
      | none => exact ⟨rfl, same⟩
      | some fourth =>
          simp [combine] at lengths
          omega
  | some fourth =>
      cases dh4' with
      | none =>
          simp [combine] at lengths
          omega
      | some fourth' =>
          obtain ⟨rfl, last⟩ := append_toList_inj same
          exact ⟨rfl, last⟩

/-- The fourth exchange takes place when there is a key for it. -/
theorem exchange_eq_ok (exchange : ByteArr 32 → ByteArr 32) {source : Option Bytes}
    {dh4 : Option (ByteArr 32)} :
    (source.mapM fun bytes => do
      let key ← bytesToKey bytes
      pure (exchange key)) = .ok dh4 ↔
      ∃ key : Option (ByteArr 32), source = key.map List.Vector.toList ∧
        dh4 = key.map exchange := by
  rw [Result.mapM_eq_ok]
  constructor
  · rintro (⟨rfl, rfl⟩ | ⟨bytes, shared, rfl, rfl, converted⟩)
    · exact ⟨none, rfl, rfl⟩
    · obtain ⟨key, ok, done⟩ := Result.bind_eq_ok.mp converted
      obtain rfl := bytesToKey_eq_ok.mp ok
      obtain rfl := Result.pure_eq_ok.mp done
      exact ⟨some key, rfl, rfl⟩
  · rintro ⟨key, rfl, rfl⟩
    cases key with
    | none => exact Or.inl ⟨rfl, rfl⟩
    | some key =>
        refine Or.inr ⟨key.toList, exchange key, rfl, rfl, ?_⟩
        rw [bytesToKey_eq_ok.mpr rfl]
        rfl

theorem initiateCombined_eq_ok {ephemeral coins : ByteArr 32} {myIdentitySecret : Bytes}
    {bundle : PreKeyBundle} {combined ciphertext : Bytes} :
    initiateCombined p kem ephemeral coins myIdentitySecret bundle = .ok (combined, ciphertext) ↔
      ∃ identity theirIdentity theirSigned : ByteArr 32, ∃ theirOneTime : Option (ByteArr 32),
        ∃ shared,
        myIdentitySecret = identity.toList ∧ bundle.identityPublic = theirIdentity.toList ∧
        bundle.signedPreKey = theirSigned.toList ∧
        bundle.oneTimePreKey = theirOneTime.map List.Vector.toList ∧
        kyberEncapsulate kem coins bundle.kyberPublic = .ok (ciphertext, shared) ∧
        combined = combine (p.x25519 identity theirSigned) (p.x25519 ephemeral theirIdentity)
          (p.x25519 ephemeral theirSigned) (theirOneTime.map (p.x25519 ephemeral)) shared := by
  constructor
  · intro done
    simp only [initiateCombined, Result.bind_eq_ok, bytesToKey_eq_ok, exchange_eq_ok,
      Result.mapError_eq_ok, Result.pure_eq_ok] at done
    obtain ⟨identity, mine, theirIdentity, theirs, theirSigned, signed, dh4,
      ⟨theirOneTime, oneTime, rfl⟩, ⟨ct, shared⟩, encapsulated, same⟩ := done
    obtain ⟨rfl, rfl⟩ := Prod.mk.inj same
    exact ⟨identity, theirIdentity, theirSigned, theirOneTime, shared, mine, theirs, signed,
      oneTime, encapsulated, rfl⟩
  · rintro ⟨identity, theirIdentity, theirSigned, theirOneTime, shared, mine, theirs, signed,
      oneTime, encapsulated, rfl⟩
    simp only [initiateCombined, Result.bind_eq_ok, bytesToKey_eq_ok, exchange_eq_ok,
      Result.mapError_eq_ok, Result.pure_eq_ok]
    exact ⟨identity, mine, theirIdentity, theirs, theirSigned, signed, _,
      ⟨theirOneTime, oneTime, rfl⟩, (ciphertext, shared), encapsulated, rfl⟩

theorem respondCombined_eq_ok {myIdentitySecret mySignedPreKeySecret : Bytes}
    {myOneTimePreKeySecret : Option Bytes}
    {myKyberSecretKey theirIdentityPublic kyberCiphertext combined : Bytes}
    {theirEphemeral : ByteArr 32} :
    respondCombined p kem myIdentitySecret mySignedPreKeySecret myOneTimePreKeySecret
        myKyberSecretKey theirIdentityPublic theirEphemeral.toList kyberCiphertext =
          .ok combined ↔
      ∃ identity signed theirIdentity : ByteArr 32, ∃ oneTime : Option (ByteArr 32), ∃ shared,
        myIdentitySecret = identity.toList ∧ mySignedPreKeySecret = signed.toList ∧
        theirIdentityPublic = theirIdentity.toList ∧
        myOneTimePreKeySecret = oneTime.map List.Vector.toList ∧
        kyberDecapsulate kem kyberCiphertext myKyberSecretKey = .ok shared ∧
        combined = combine (p.x25519 signed theirIdentity) (p.x25519 identity theirEphemeral)
          (p.x25519 signed theirEphemeral)
          (oneTime.map fun secret => p.x25519 secret theirEphemeral) shared := by
  constructor
  · intro done
    simp only [respondCombined, Result.bind_eq_ok, bytesToKey_eq_ok,
      exchange_eq_ok (p.x25519 · _), Result.mapError_eq_ok, Result.pure_eq_ok] at done
    obtain ⟨identity, mine, signed, mySigned, theirIdentity, theirs, ephemeral, own, dh4,
      ⟨oneTime, myOneTime, rfl⟩, shared, decapsulated, rfl⟩ := done
    obtain rfl := Subtype.ext own
    exact ⟨identity, signed, theirIdentity, oneTime, shared, mine, mySigned, theirs, myOneTime,
      decapsulated, rfl⟩
  · rintro ⟨identity, signed, theirIdentity, oneTime, shared, mine, mySigned, theirs, myOneTime,
      decapsulated, rfl⟩
    simp only [respondCombined, Result.bind_eq_ok, bytesToKey_eq_ok,
      exchange_eq_ok (p.x25519 · _), Result.mapError_eq_ok, Result.pure_eq_ok]
    exact ⟨identity, mine, signed, mySigned, theirIdentity, theirs, theirEphemeral, rfl, _,
      ⟨oneTime, myOneTime, rfl⟩, shared, decapsulated, rfl⟩

theorem x3dhInitiate_of_combined {ephemeral coins : ByteArr 32} {myIdentitySecret : Bytes}
    {bundle : PreKeyBundle} {combined ciphertext : Bytes} (myIdentityPublic : Bytes)
    (combines : initiateCombined p kem ephemeral coins myIdentitySecret bundle =
      .ok (combined, ciphertext)) :
    x3dhInitiate p kem ephemeral coins myIdentitySecret myIdentityPublic bundle =
      .ok ⟨(hkdfDerive p combined (strBytes "hysj-x3dh-v2") [] 32).toList,
        (p.x25519Public ephemeral).toList, ciphertext, bundle.oneTimePreKey.isSome⟩ := by
  rw [x3dhInitiate, combines]
  rfl

/-- An exchange with the public key of `a` gives away which key `a` used. -/
theorem x25519_eq_iff (commutes : DhCommutes p) (injective : DhInjective p)
    {a b key : ByteArr 32} :
    p.x25519 a key = p.x25519 b (p.x25519Public a) ↔ key = p.x25519Public b := by
  rw [← commutes a b, (injective a).eq_iff]

section

variable {ephemeral coins : ByteArr 32} {initiatorSecret : Bytes} {bundle : PreKeyBundle}
  {combined ciphertext : Bytes}
  {identitySecret signedPreKeySecret kyberSecretKey theirIdentityPublic : Bytes}
  {oneTimePreKeySecret : Option Bytes}

/-- With matching keys the recipient combines what the sender combined. -/
theorem respondCombined_of_matching (commutes : DhCommutes p) (binding : kem.Binding)
    (initiated : initiateCombined p kem ephemeral coins initiatorSecret bundle =
      .ok (combined, ciphertext))
    (matching : Matching p kem bundle initiatorSecret bundle.oneTimePreKey.isSome identitySecret
      signedPreKeySecret oneTimePreKeySecret kyberSecretKey theirIdentityPublic) :
    respondCombined p kem identitySecret signedPreKeySecret oneTimePreKeySecret kyberSecretKey
      theirIdentityPublic (p.x25519Public ephemeral).toList ciphertext = .ok combined := by
  obtain ⟨identity, theirIdentity, theirSigned, theirOneTime, shared, mine, theirs, signed,
    bundled, encapsulated, rfl⟩ := initiateCombined_eq_ok.mp initiated
  obtain ⟨⟨bobIdentity, rfl, own⟩, ⟨bobSigned, rfl, ownSigned⟩, ⟨alice, same, rfl⟩, kyber,
    used, oneTime⟩ := matching
  obtain rfl := Subtype.ext (theirs.symm.trans own)
  obtain rfl := Subtype.ext (signed.symm.trans ownSigned)
  obtain rfl := Subtype.ext (mine.symm.trans same)
  have secrets : ∃ secret : Option (ByteArr 32),
      oneTimePreKeySecret = secret.map List.Vector.toList ∧
        theirOneTime = secret.map p.x25519Public := by
    cases oneTimePreKeySecret with
    | none =>
        cases theirOneTime with
        | none => exact ⟨none, rfl, rfl⟩
        | some key =>
            rw [bundled] at used
            cases used
    | some secret =>
        obtain ⟨key, present, drawn, rfl, own⟩ := oneTime secret rfl
        rw [own] at present
        obtain ⟨key', rfl, same⟩ := Option.map_eq_some_iff.mp (bundled.symm.trans present)
        exact ⟨some drawn, rfl, congrArg some (Subtype.ext same)⟩
  obtain ⟨secret, rfl, rfl⟩ := secrets
  apply respondCombined_eq_ok.mpr
  refine ⟨bobIdentity, bobSigned, p.x25519Public identity, secret, shared, rfl, rfl, rfl, rfl,
    (PostQuantum.kyberDecapsulate_iff binding encapsulated kyberSecretKey).mpr kyber, ?_⟩
  rw [commutes identity bobSigned, commutes ephemeral bobIdentity, commutes ephemeral bobSigned,
    Option.map_map]
  exact congrArg (fun exchange => combine _ _ _ (secret.map exchange) shared)
    (funext (commutes ephemeral))

/-- A recipient that combines what the sender combined uses the matching keys. -/
theorem matching_of_respondCombined (commutes : DhCommutes p) (injective : DhInjective p)
    (binding : kem.Binding)
    (initiated : initiateCombined p kem ephemeral coins initiatorSecret bundle =
      .ok (combined, ciphertext))
    (responded : respondCombined p kem identitySecret signedPreKeySecret oneTimePreKeySecret
      kyberSecretKey theirIdentityPublic (p.x25519Public ephemeral).toList ciphertext =
        .ok combined) :
    Matching p kem bundle initiatorSecret bundle.oneTimePreKey.isSome identitySecret
      signedPreKeySecret oneTimePreKeySecret kyberSecretKey theirIdentityPublic := by
  obtain ⟨identity, theirIdentity, theirSigned, theirOneTime, shared, rfl, theirs, signed,
    bundled, encapsulated, rfl⟩ := initiateCombined_eq_ok.mp initiated
  obtain ⟨bobIdentity, bobSigned, alice, oneTime, shared', rfl, rfl, rfl, rfl, decapsulated,
    same⟩ := respondCombined_eq_ok.mp responded
  obtain ⟨first, second, third, fourth, rfl⟩ := combine_inj
    ((PostQuantum.length_of_encapsulate encapsulated).trans
      (PostQuantum.length_of_decapsulate decapsulated).symm) same
  obtain rfl := (x25519_eq_iff commutes injective).mp second
  obtain rfl := (x25519_eq_iff commutes injective).mp third
  have identityKey : alice = p.x25519Public identity :=
    (x25519_eq_iff commutes injective).mp first.symm
  have oneTimeKey : theirOneTime = oneTime.map p.x25519Public := by
    rw [← Option.map_injective (injective ephemeral) |>.eq_iff, fourth, Option.map_map]
    exact congrArg (fun exchange => oneTime.map exchange)
      (funext fun secret => commutes secret ephemeral)
  refine ⟨⟨bobIdentity, rfl, theirs⟩, ⟨bobSigned, rfl, signed⟩,
    ⟨identity, rfl, congrArg _ identityKey⟩,
    (PostQuantum.kyberDecapsulate_iff binding encapsulated kyberSecretKey).mp decapsulated,
    ?_, ?_⟩
  · rw [bundled, oneTimeKey, Option.isSome_map, Option.isSome_map, Option.isSome_map]
  · intro secret present
    obtain ⟨drawn, chosen, rfl⟩ := Option.map_eq_some_iff.mp present
    refine ⟨(p.x25519Public drawn).toList, ?_, drawn, rfl, rfl⟩
    rw [bundled, oneTimeKey, chosen]
    rfl

/-- The recipient derives the sender's secret exactly when all keys match. HKDF is assumed to
have no collision between the two inputs of this handshake. -/
theorem x3dhRespond_iff_matching (commutes : DhCommutes p) (injective : DhInjective p)
    (binding : kem.Binding) {initiatorPublic : Bytes} {result : X3DHInitResult}
    (initiated : x3dhInitiate p kem ephemeral coins initiatorSecret initiatorPublic bundle =
      .ok result)
    (noCollision : ∀ sent received,
      initiateCombined p kem ephemeral coins initiatorSecret bundle =
        .ok (sent, result.kyberCiphertext) →
      respondCombined p kem identitySecret signedPreKeySecret oneTimePreKeySecret kyberSecretKey
        theirIdentityPublic result.ephemeralPublic result.kyberCiphertext = .ok received →
      hkdfDerive p sent (strBytes "hysj-x3dh-v2") [] 32 =
        hkdfDerive p received (strBytes "hysj-x3dh-v2") [] 32 → sent = received) :
    x3dhRespond p kem identitySecret signedPreKeySecret oneTimePreKeySecret kyberSecretKey
        theirIdentityPublic result.ephemeralPublic result.kyberCiphertext =
          .ok result.sharedSecret ↔
      Matching p kem bundle initiatorSecret result.usedOneTimeKey identitySecret
        signedPreKeySecret oneTimePreKeySecret kyberSecretKey theirIdentityPublic := by
  obtain ⟨⟨sent, ciphertext⟩, combines, done⟩ := Result.bind_eq_ok.mp initiated
  obtain rfl := Result.pure_eq_ok.mp done
  constructor
  · intro responded
    obtain ⟨received, receives, same⟩ := Result.bind_eq_ok.mp responded
    obtain rfl := noCollision sent received combines receives
      (Subtype.ext (Result.pure_eq_ok.mp same).symm)
    exact matching_of_respondCombined commutes injective binding combines receives
  · intro matching
    apply Result.bind_eq_ok.mpr
    exact ⟨sent, respondCombined_of_matching commutes binding combines matching, rfl⟩

end

/-- Alice's identity is `1`, her ephemeral key `2`; Bob's keys are `3`, `4` and `5`. -/
theorem x3dhRespond_iff_matching_sample :
    ∃ initiated, x3dhInitiate .sample .sample (.replicate 32 2) (.replicate 32 9)
      (List.replicate 32 1) (List.replicate 32 1)
      ⟨List.replicate 32 3, List.replicate 32 4, [], some (List.replicate 32 5),
        (MlKem768.sample.generate (.replicate 64 6)).2.toList⟩ = .ok initiated ∧
    x3dhRespond .sample .sample (List.replicate 32 3) (List.replicate 32 4)
      (some (List.replicate 32 5)) (MlKem768.sample.generate (.replicate 64 6)).1.toList
      (List.replicate 32 1) initiated.ephemeralPublic initiated.kyberCiphertext =
        .ok initiated.sharedSecret := by
  have paired : MlKem768.sample.KeyPair (MlKem768.sample.generate (.replicate 64 6)).1.toList
      (MlKem768.sample.generate (.replicate 64 6)).2.toList := ⟨_, rfl, rfl⟩
  obtain ⟨ct, encapsulates⟩ := MlKem768.sample_encapsulates (.replicate 64 6) (.replicate 32 9)
  -- keep the long keys from being computed
  generalize MlKem768.sample.generate (.replicate 64 6) = kyber at *
  let key (byte : UInt8) : ByteArr 32 := .replicate 32 byte
  have encapsulated := PostQuantum.kyberEncapsulate_eq_ok.mpr
    ⟨kyber.2, ct, key 9, rfl, encapsulates, rfl, rfl⟩
  have combines : initiateCombined .sample .sample (key 2) (key 9) (key 1).toList
      ⟨(key 3).toList, (key 4).toList, [], some (key 5).toList, kyber.2.toList⟩ =
        .ok (_, ct.toList) := initiateCombined_eq_ok.mpr ⟨key 1, key 3, key 4, some (key 5), _,
          rfl, rfl, rfl, rfl, encapsulated, rfl⟩
  have initiated := x3dhInitiate_of_combined (key 1).toList combines
  have matching : Matching .sample .sample ⟨(key 3).toList, (key 4).toList, [],
      some (key 5).toList, kyber.2.toList⟩ (key 1).toList true (key 3).toList (key 4).toList
      (some (key 5).toList) kyber.1.toList (key 1).toList := by
    refine ⟨⟨key 3, rfl, rfl⟩, ⟨key 4, rfl, rfl⟩, ⟨key 1, rfl, rfl⟩, paired, rfl, ?_⟩
    intro secret present
    obtain rfl := Option.some.inj present
    exact ⟨(key 5).toList, rfl, key 5, rfl, rfl⟩
  refine ⟨_, initiated, ?_⟩
  apply (x3dhRespond_iff_matching Primitives.sample_commutes Primitives.sample_injective
    MlKem768.sample_binding initiated ?_).mpr matching
  intro sent received sends receives _
  have same := respondCombined_of_matching Primitives.sample_commutes MlKem768.sample_binding
    sends matching
  exact Except.ok.inj (same.symm.trans receives)

end X3dh

end Hysj.Crypto
