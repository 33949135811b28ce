import Hysj.Crypto.Keys
import Hysj.Crypto.X3dh

set_option autoImplicit false

/- Which pre-key bundles a handshake is begun with. -/
namespace Hysj.Crypto.X3dh

open PostQuantum (kyberEncapsulate_eq_ok)

variable (p : Primitives) (kem : MlKem768) (ed : Ed25519)

/-- Each key has its length, and the crate can encapsulate for the ML-KEM key. -/
structure Usable (coins : ByteArr 32) (myIdentitySecret : Bytes)
    (bundle : PreKeyBundle) : Prop where
  mine : myIdentitySecret.length = 32
  identity : bundle.identityPublic.length = 32
  signedPreKey : bundle.signedPreKey.length = 32
  oneTimePreKey : ∀ key ∈ bundle.oneTimePreKey, key.length = 32
  kyber : ∃ key : ByteArr 1184, bundle.kyberPublic = key.toList ∧ (kem.encapsulate key coins).isSome

/-- The signed pre-key of the bundle was signed with the identity key. -/
abbrev Authenticated (identityKey : Bytes) (bundle : PreKeyBundle) : Prop :=
  ed.Valid identityKey bundle.signedPreKey bundle.signedPreKeySig

variable {p kem ed}

theorem exists_toList {n : Nat} {bytes : Bytes} (size : bytes.length = n) :
    ∃ array : ByteArr n, bytes = array.toList := ⟨⟨bytes, size⟩, rfl⟩

section

variable {ephemeral coins : ByteArr 32} {myIdentitySecret myIdentityPublic : Bytes}
variable {bundle : PreKeyBundle}

theorem usable_of_ok {result : X3DHInitResult} (done : x3dhInitiate p kem ephemeral coins
    myIdentitySecret myIdentityPublic bundle = .ok result) :
    Usable kem coins myIdentitySecret bundle := by
  obtain ⟨⟨combined, ciphertext⟩, combines, -⟩ := Result.bind_eq_ok.mp done
  obtain ⟨identity, theirIdentity, theirSigned, theirOneTime, shared, mine, theirs, signed, oneTime,
    encapsulates, -⟩ := initiateCombined_eq_ok.mp combines
  constructor
  · rw [mine, List.Vector.toList_length]
  · rw [theirs, List.Vector.toList_length]
  · rw [signed, List.Vector.toList_length]
  · intro key present
    rw [oneTime] at present
    obtain ⟨array, -, rfl⟩ := Option.map_eq_some_iff.mp present
    exact array.toList_length
  · obtain ⟨key, ct, ss, encoded, made, -⟩ := kyberEncapsulate_eq_ok.mp encapsulates
    exact ⟨key, encoded, Option.isSome_iff_exists.mpr ⟨_, made⟩⟩

theorem ok_of_usable (usable : Usable kem coins myIdentitySecret bundle) :
    ∃ result,
    x3dhInitiate p kem ephemeral coins myIdentitySecret myIdentityPublic bundle = .ok result := by
  obtain ⟨identity, mine⟩ := exists_toList usable.mine
  obtain ⟨theirIdentity, theirs⟩ := exists_toList usable.identity
  obtain ⟨theirSigned, signed⟩ := exists_toList usable.signedPreKey
  obtain ⟨key, encoded, encapsulated⟩ := usable.kyber
  obtain ⟨⟨ct, ss⟩, made⟩ := Option.isSome_iff_exists.mp encapsulated
  have encapsulates := kyberEncapsulate_eq_ok.mpr ⟨key, ct, ss, encoded, made, rfl, rfl⟩
  have oneTime : ∃ key :
      Option (ByteArr 32), bundle.oneTimePreKey = key.map List.Vector.toList := by
    have size := usable.oneTimePreKey
    cases present : bundle.oneTimePreKey with
    | none => exact ⟨none, rfl⟩
    | some bytes =>
        obtain ⟨key, same⟩ := exists_toList (size bytes present)
        exact ⟨some key, congrArg some same⟩
  obtain ⟨theirOneTime, oneTime⟩ := oneTime
  have combines :
      initiateCombined p kem ephemeral coins myIdentitySecret bundle = .ok (_, ct.toList) :=
    initiateCombined_eq_ok.mpr
      ⟨identity, theirIdentity, theirSigned, theirOneTime, ss.toList, mine, theirs,
      signed, oneTime, encapsulates, rfl⟩
  exact ⟨_, x3dhInitiate_of_combined myIdentityPublic combines⟩

/-- A handshake is begun with every bundle whose keys can be used. -/
theorem x3dhInitiate_ok_iff :
    (∃ result,
    x3dhInitiate p kem ephemeral coins myIdentitySecret myIdentityPublic bundle = .ok result) ↔
      Usable kem coins myIdentitySecret bundle := by
  constructor
  · rintro ⟨result, done⟩
    exact usable_of_ok done
  · exact ok_of_usable

end

/-- A handshake is only begun with a signed pre-key of the identity, and every other bundle refused,
exactly if the signature is valid or one of the keys cannot be used. -/
theorem x3dhInitiate_authenticated_iff (p : Primitives) (kem : MlKem768) (ed : Ed25519)
    (ephemeral coins : ByteArr 32) (myIdentitySecret myIdentityPublic identityKey : Bytes)
    (bundle : PreKeyBundle) :
    ((∀ result,
    x3dhInitiate p kem ephemeral coins myIdentitySecret myIdentityPublic bundle = .ok result →
        Authenticated ed identityKey bundle) ∧
      (¬ Authenticated ed identityKey bundle →
        ∃ e, x3dhInitiate p kem ephemeral coins myIdentitySecret myIdentityPublic
        bundle = .error e)) ↔
      Authenticated ed identityKey bundle ∨ ¬ Usable kem coins myIdentitySecret bundle := by
  constructor
  · rintro ⟨accepted, -⟩
    by_cases usable : Usable kem coins myIdentitySecret bundle
    · obtain ⟨result, done⟩ := x3dhInitiate_ok_iff.mpr usable
      exact Or.inl (accepted result done)
    · exact Or.inr usable
  · intro holds
    have accepted (result : X3DHInitResult)
        (done : x3dhInitiate p kem ephemeral coins myIdentitySecret
        myIdentityPublic bundle = .ok result) : Authenticated ed identityKey bundle := by
      rcases holds with signed | useless
      · exact signed
      · exact (useless (usable_of_ok done)).elim
    refine ⟨accepted, fun forged => ?_⟩
    rcases Result.ok_or_error
      (x3dhInitiate p kem ephemeral coins myIdentitySecret myIdentityPublic bundle)
      with ⟨result, done⟩ | refused
    · exact (forged (accepted result done)).elim
    · exact refused

theorem sample_verify {key : ByteArr 32} {message : Bytes} {signature : ByteArr 64} :
    Ed25519.sample.verify key message signature = true ↔
    signature = Ed25519.sample.tag key message :=
  decide_eq_true_iff

theorem sample_tag_ne : Ed25519.sample.tag (.replicate 32 3) (8 :: List.replicate 31 7) ≠
    Ed25519.sample.tag (.replicate 32 3) (List.replicate 32 4) := by
  decide +kernel

/-- Bob has signed his pre-key, and the server has put its own in the place of it. -/
theorem x3dhInitiate_forged : ∃ bobsKey bobsPreKey bundle,
    Authenticated .sample bobsKey { bundle with signedPreKey := bobsPreKey } ∧
      ¬ Authenticated .sample bobsKey bundle ∧
      ∃ result,
        x3dhInitiate .sample .sample (.replicate 32 2) (.replicate 32 9) (List.replicate 32 1)
        (List.replicate 32 1) bundle = .ok result := by
  obtain ⟨ct, encapsulates⟩ := MlKem768.sample_encapsulates (.replicate 64 6) (.replicate 32 9)
  -- keep the long keys from being computed
  generalize (MlKem768.sample.generate (.replicate 64 6)).2 = kyber at encapsulates
  let bob : ByteArr 32 := .replicate 32 3
  let bobsPreKey : Bytes := 8 :: List.replicate 31 7
  let bundle : PreKeyBundle :=
    ⟨bob.toList, List.replicate 32 4, Keys.sign .sample bob bobsPreKey, none,
    kyber.toList⟩
  refine ⟨bob.toList, bobsPreKey, bundle, ?_, ?_, ?_⟩
  · exact ⟨bob, _, rfl, rfl, rfl, Ed25519.sample_correct bob bobsPreKey⟩
  · rintro ⟨key, signature, isBob, same, -, verified⟩
    obtain rfl := Subtype.ext isBob
    obtain rfl := Subtype.ext same
    exact sample_tag_ne (sample_verify.mp verified)
  · apply ok_of_usable
    have encapsulated := Option.isSome_iff_exists.mpr ⟨_, encapsulates⟩
    exact ⟨rfl, rfl, rfl, fun key absent => (by cases absent), kyber, rfl, encapsulated⟩

end Hysj.Crypto.X3dh
