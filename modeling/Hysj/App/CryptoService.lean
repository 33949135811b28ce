import Hysj.App.Dart
import Hysj.Base.Memo
import Hysj.Crypto.Primitives
import Mathlib.Data.List.Lex

set_option autoImplicit false

/- The encryption of the messages that the app sends, with AES-256-GCM under keys made from the
ids of the two devices. -/
namespace Hysj.App

open Crypto Dart

/-- `SecretBox` -/
structure SecretBox where
  cipherText : Bytes
  nonce : ByteArr 12
  mac : ByteArr 16

/-- What the app calls of `package:cryptography`: AES-GCM and HKDF. The nonce is that which
`encrypt` draws. -/
structure Cryptography (Key : Type) where
  encrypt : Bytes → Key → ByteArr 12 → SecretBox
  decrypt : SecretBox → Key → Option Bytes
  deriveKey : (secretKey nonce info : Bytes) → Key

/-- AES-GCM opens what was sealed and nothing else, and the ciphertext is as long as the message. -/
structure Cryptography.Ideal {Key : Type} (c : Cryptography Key) : Prop where
  opens : ∀ message key nonce, c.decrypt (c.encrypt message key nonce) key = some message
  authentic : ∀ box key message, c.decrypt box key = some message →
    box = c.encrypt message key box.nonce
  nonce : ∀ message key nonce, (c.encrypt message key nonce).nonce = nonce
  length : ∀ message key nonce, (c.encrypt message key nonce).cipherText.length = message.length

/-- The cache of conversation keys: recipientDeviceId -> SecretKey -/
structure CryptoService (Key : Type) where
  keys : DartString → Option Key

/-- `compareTo(other) > 0`: the code units decide. -/
def After (text other : DartString) : Prop := other.map UInt16.toNat < text.map UInt16.toNat

instance (text other : DartString) : Decidable (After text other) :=
  inferInstanceAs (Decidable (_ < _))

/-- `[myDeviceId, theirDeviceId]..sort()` -/
def sortedIds (myDeviceId theirDeviceId : DartString) : List DartString :=
  if After myDeviceId theirDeviceId then [theirDeviceId, myDeviceId]
    else [myDeviceId, theirDeviceId]

/-- Deterministic shared secret from both device IDs (sorted for consistency) -/
def ikm (myDeviceId theirDeviceId : DartString) : Bytes :=
  utf8Encode (List.intercalate (ofString ":") (sortedIds myDeviceId theirDeviceId))

section

variable {Key : Type} (c : Cryptography Key)

/-- The key of the two devices, derived afresh. -/
def deriveKey (myDeviceId theirDeviceId : DartString) : Key :=
  c.deriveKey (ikm myDeviceId theirDeviceId) (utf8Encode (ofString "hysj-e2e-v1"))
    (utf8Encode (ofString "message-key"))

/-- `_getKey` -/
def getKey (myDeviceId theirDeviceId : DartString) (s : CryptoService Key) :
    Key × CryptoService Key :=
  let cacheKey := theirDeviceId
  match s.keys cacheKey with
  | some key => (key, s)
  | none =>
      let key := deriveKey c myDeviceId theirDeviceId
      (key, ⟨Function.update s.keys cacheKey (some key)⟩)

/-- nonce(12) + mac(16) + ciphertext -/
def pack (box : SecretBox) : Bytes := box.nonce.toList ++ box.mac.toList ++ box.cipherText

theorem length_nonce {packed : Bytes} (long : 28 ≤ packed.length) :
    (packed.take 12).length = 12 := by
  rw [List.length_take]
  omega

theorem length_mac {packed : Bytes} (long : 28 ≤ packed.length) :
    ((packed.drop 12).take 16).length = 16 := by
  rw [List.length_take, List.length_drop]
  omega

/-- The parts of what was packed, if it is long enough. -/
def unpack (packed : Bytes) : Option SecretBox :=
  if long : 28 ≤ packed.length then
    some ⟨packed.drop 28, ⟨packed.take 12, length_nonce long⟩,
      ⟨(packed.drop 12).take 16, length_mac long⟩⟩
  else none

/-- What is sent of a message. -/
def sealed (key : Key) (nonce : ByteArr 12) (plaintext : DartString) : DartString :=
  base64Encode (pack (c.encrypt (utf8Encode plaintext) key nonce))

/-- Encrypt a plaintext message. Returns base64-encoded ciphertext. -/
def encrypt (nonce : ByteArr 12) (plaintext myDeviceId theirDeviceId : DartString)
    (s : CryptoService Key) : DartString × CryptoService Key :=
  let (key, s) := getKey c myDeviceId theirDeviceId s
  (sealed c key nonce plaintext, s)

/-- What `decrypt` tries, without a value where it throws. -/
def tryDecrypt (key : Key) (ciphertextB64 : DartString) : Option DartString := do
  let packed ← base64Decode ciphertextB64
  match unpack packed with
  -- too short to be encrypted, probably legacy plaintext base64
  | none => utf8Decode (← base64Decode ciphertextB64)
  | some secretBox => utf8Decode (← c.decrypt secretBox key)

/-- Fallback: try legacy base64 plaintext -/
def legacy (ciphertextB64 : DartString) : DartString :=
  ((base64Decode ciphertextB64).bind utf8Decode).getD ciphertextB64

def opened (key : Key) (ciphertextB64 : DartString) : DartString :=
  (tryDecrypt c key ciphertextB64).getD (legacy ciphertextB64)

/-- Decrypt a base64-encoded ciphertext. Returns plaintext. -/
def decrypt (ciphertextB64 myDeviceId theirDeviceId : DartString) (s : CryptoService Key) :
    DartString × CryptoService Key :=
  let (key, s) := getKey c myDeviceId theirDeviceId s
  (opened c key ciphertextB64, s)

end

def clearKeys {Key : Type} (_ : CryptoService Key) : CryptoService Key := ⟨fun _ => none⟩

theorem length_pack (box : SecretBox) : (pack box).length = 28 + box.cipherText.length := by
  simp only [pack, List.length_append, List.Vector.toList_length]

theorem take_pack (box : SecretBox) : (pack box).take 12 = box.nonce.toList := by
  rw [pack, List.append_assoc]
  exact List.take_left' box.nonce.toList_length

theorem drop_pack (box : SecretBox) : (pack box).drop 12 = box.mac.toList ++ box.cipherText := by
  rw [pack, List.append_assoc]
  exact List.drop_left' box.nonce.toList_length

theorem unpack_pack (box : SecretBox) : unpack (pack box) = some box := by
  have long : 28 ≤ (pack box).length := by
    rw [length_pack]
    omega
  have mac : ((pack box).drop 12).take 16 = box.mac.toList := by
    rw [drop_pack]
    exact List.take_left' box.mac.toList_length
  have cipherText : (pack box).drop 28 = box.cipherText := by
    rw [← List.drop_drop (i := 16) (j := 12), drop_pack]
    exact List.drop_left' box.mac.toList_length
  rw [unpack, dif_pos long]
  have same : (⟨(pack box).take 12, length_nonce long⟩ : ByteArr 12) = box.nonce :=
    Subtype.ext (take_pack box)
  have same' : (⟨((pack box).drop 12).take 16, length_mac long⟩ : ByteArr 16) = box.mac :=
    Subtype.ext mac
  rw [same, same', cipherText]

theorem pack_injective : Function.Injective pack := by
  intro left right same
  have read := unpack_pack left
  rw [same, unpack_pack] at read
  exact (Option.some.inj read).symm

section

variable {Key : Type} {c : Cryptography Key} {key key' : Key} {nonce : ByteArr 12}
variable {text plaintext : DartString}

theorem base64Decode_sealed (key : Key) (nonce : ByteArr 12) (plaintext : DartString) :
    base64Decode (sealed c key nonce plaintext) =
      some (pack (c.encrypt (utf8Encode plaintext) key nonce)) :=
  base64Decode_base64Encode _

theorem tryDecrypt_sealed (key key' : Key) (nonce : ByteArr 12) (plaintext : DartString) :
    tryDecrypt c key' (sealed c key nonce plaintext) =
      (c.decrypt (c.encrypt (utf8Encode plaintext) key nonce) key').bind utf8Decode := by
  simp only [tryDecrypt, base64Decode_sealed, Option.bind_eq_bind, Option.bind_some, unpack_pack]

/-- A text that begins with no mark is read back, with U+FFFD for what was no character. -/
theorem opened_sealed (ideal : c.Ideal) (plain : ¬ BeginsWithBom plaintext) (key : Key)
    (nonce : ByteArr 12) : opened c key (sealed c key nonce plaintext) =
      Utf16.encode (Utf16.decode plaintext) := by
  rw [opened, tryDecrypt_sealed, ideal.opens]
  change ((utf8Decode (utf8Encode plaintext)).getD _) = _
  rw [utf8Decode_utf8Encode plain]
  rfl

theorem sealed_normal (key : Key) (nonce : ByteArr 12) (plaintext : DartString) :
    sealed c key nonce (Utf16.encode (Utf16.decode plaintext)) = sealed c key nonce plaintext := by
  unfold sealed utf8Encode
  rw [Utf16.decode_encode]

theorem sealed_inj (ideal : c.Ideal) {nonce' : ByteArr 12} {plaintext' : DartString}
    (same : sealed c key nonce plaintext = sealed c key nonce' plaintext') :
    nonce = nonce' ∧ Utf16.decode plaintext = Utf16.decode plaintext' := by
  have boxes := pack_injective (base64Encode_injective same)
  have nonces := congrArg SecretBox.nonce boxes
  rw [ideal.nonce, ideal.nonce] at nonces
  refine ⟨nonces, Json.utf8_injective ?_⟩
  have read := ideal.opens (utf8Encode plaintext) key nonce
  rw [boxes, ideal.opens] at read
  exact (Option.some.inj read).symm

theorem length_dropBom (bytes : List UInt8) : bytes.length ≤ (dropBom bytes).length + 3 := by
  rcases dropBom_cases bytes with ⟨rest, is, dropped⟩ | kept
  · rw [dropped, is]
    exact Nat.le_refl _
  · rw [kept]
    omega

/-- What is made of a text without opening it is about as long as the text. -/
theorem length_legacy (packed : Bytes) :
    packed.length ≤ (utf8Encode (legacy (base64Encode packed))).length + 3 := by
  unfold legacy
  rw [base64Decode_base64Encode, Option.bind_some]
  cases read : utf8Decode packed with
  | some text =>
      rw [Option.getD_some, (utf8Encode_of_utf8Decode read).2]
      exact length_dropBom packed
  | none =>
      rw [Option.getD_none, utf8Encode, base64Encode, Utf16.decode_encode]
      have chars := length_le_encodeChars packed
      have bytes := Json.length_le_utf8 (Base64.encodeChars packed)
      omega

theorem not_beginsWithBom (kept : dropBom (utf8Encode text) = utf8Encode text) :
    ¬ BeginsWithBom text := by
  intro begins
  unfold BeginsWithBom at begins
  unfold utf8Encode at kept
  cases chars : Utf16.decode text with
  | nil =>
      rw [chars] at begins
      cases begins
  | cons first rest =>
      rw [chars, List.head?_cons] at begins
      rw [chars, Option.some.inj begins, utf8_bom] at kept
      have lengths := congrArg List.length kept
      rw [dropBom, List.length_cons, List.length_cons, List.length_cons] at lengths
      omega

/-- The text that comes of a string was sealed into it under a key only if it begins with no mark
and the key that opened the string makes the same of it. -/
theorem genuine_iff (ideal : c.Ideal) (key key' : Key) (text : DartString) :
    (∃ nonce, text = sealed c key nonce (opened c key' text)) ↔
      ∃ nonce plaintext, ¬ BeginsWithBom plaintext ∧ text = sealed c key nonce plaintext ∧
        text = sealed c key' nonce plaintext := by
  constructor
  · rintro ⟨nonce, is⟩
    generalize result : opened c key' text = plaintext at is
    obtain rfl := is
    have long : (utf8Encode plaintext).length + 3 <
        (pack (c.encrypt (utf8Encode plaintext) key nonce)).length := by
      rw [length_pack, ideal.length]
      omega
    have fallback : legacy (sealed c key nonce plaintext) ≠ plaintext := by
      intro same
      have short := length_legacy (pack (c.encrypt (utf8Encode plaintext) key nonce))
      rw [sealed] at same
      rw [same] at short
      omega
    rw [opened, tryDecrypt_sealed] at result
    cases opens : c.decrypt (c.encrypt (utf8Encode plaintext) key nonce) key' with
    | none =>
        rw [opens] at result
        exact (fallback result).elim
    | some message =>
        rw [opens, Option.bind_some] at result
        cases read : utf8Decode message with
        | none =>
            rw [read] at result
            exact (fallback result).elim
        | some text =>
            rw [read, Option.getD_some] at result
            obtain rfl := result
            have box := ideal.authentic _ _ _ opens
            have lengths := congrArg (fun box => box.cipherText.length) box
            simp only [ideal.length] at lengths
            have bytes := (utf8Encode_of_utf8Decode read).2
            have kept : dropBom message = message := by
              rcases dropBom_cases message with ⟨rest, is, dropped⟩ | kept
              · rw [bytes, dropped, is, List.length_cons, List.length_cons,
                  List.length_cons] at lengths
                omega
              · exact kept
            rw [kept] at bytes
            refine ⟨nonce, text, not_beginsWithBom ?_, rfl, ?_⟩
            · rw [bytes, kept]
            · rw [ideal.nonce, ← bytes] at box
              unfold sealed
              rw [box]
  · rintro ⟨nonce, plaintext, plain, is, rfl⟩
    refine ⟨nonce, ?_⟩
    rw [opened_sealed ideal plain, sealed_normal]
    exact is

/-- A text is read back as it was exactly if it begins with no mark and both keys make the same of
it. -/
theorem opened_sealed_iff (ideal : c.Ideal) (wellFormed : Utf16.WellFormed plaintext)
    (key key' : Key) (nonce : ByteArr 12) :
    opened c key' (sealed c key nonce plaintext) = plaintext ↔
      ¬ BeginsWithBom plaintext ∧ sealed c key nonce plaintext = sealed c key' nonce plaintext := by
  constructor
  · intro back
    obtain ⟨nonce', plaintext', plain, is, is'⟩ := (genuine_iff ideal key key'
      (sealed c key nonce plaintext)).mp ⟨nonce, by rw [back]⟩
    obtain ⟨rfl, chars⟩ := sealed_inj ideal is
    unfold BeginsWithBom at plain ⊢
    rw [chars]
    refine ⟨plain, is'.trans ?_⟩
    rw [← sealed_normal, ← chars, sealed_normal]
  · rintro ⟨plain, same⟩
    rw [same, opened_sealed ideal plain, Utf16.encode_decode wellFormed]

/-- A string that holds nothing that AES-GCM accepts is presented nevertheless. -/
theorem opened_rejected (rejected : ∀ packed, base64Decode text = some packed →
      ∀ box, unpack packed = some box → c.decrypt box key = none) :
    opened c key text = legacy text := by
  unfold opened tryDecrypt
  cases decoded : base64Decode text with
  | none => rfl
  | some packed =>
      simp only [Option.bind_eq_bind, Option.bind_some]
      cases made : unpack packed with
      | none =>
          simp only [legacy, decoded, Option.bind_some]
          cases utf8Decode packed <;> rfl
      | some box =>
          dsimp only
          rw [rejected packed decoded box made]
          rfl

end

section

variable {Key : Type} (c : Cryptography Key)

/-- What is presented of a string is a text that was sealed into it under the key of the two
devices. -/
def Authentic (s : CryptoService Key)
    (ciphertextB64 myDeviceId theirDeviceId : DartString) : Prop :=
  ∃ nonce, ciphertextB64 = sealed c (deriveKey c myDeviceId theirDeviceId) nonce
    (decrypt c ciphertextB64 myDeviceId theirDeviceId s).1

/-- What one device encrypts for another, the other reads as it was. -/
def ReadsBack (s s' : CryptoService Key) (nonce : ByteArr 12) (plaintext a b : DartString) : Prop :=
  (decrypt c (encrypt c nonce plaintext a b s).1 b a s').1 = plaintext

/-- A string is presented as an authentic text exactly if it is what is made of a text that begins
with no byte order mark, under the key of the two devices and under the one in the cache; and a
well-formed text is read back exactly if it begins with no byte order mark and both devices make
the same of it. -/
theorem decrypt_exact_iff (ideal : c.Ideal) :
    (∀ (s : CryptoService Key) (ciphertextB64 myDeviceId theirDeviceId : DartString),
      Authentic c s ciphertextB64 myDeviceId theirDeviceId ↔
        ∃ nonce plaintext, ¬ BeginsWithBom plaintext ∧
          ciphertextB64 = sealed c (deriveKey c myDeviceId theirDeviceId) nonce plaintext ∧
          ciphertextB64 = sealed c (getKey c myDeviceId theirDeviceId s).1 nonce plaintext) ∧
    ∀ (s s' : CryptoService Key) (nonce : ByteArr 12) (plaintext a b : DartString),
      Utf16.WellFormed plaintext →
      (ReadsBack c s s' nonce plaintext a b ↔ ¬ BeginsWithBom plaintext ∧
        sealed c (getKey c a b s).1 nonce plaintext = sealed c
        (getKey c b a s').1 nonce plaintext) := by
  constructor
  · intro s ciphertextB64 myDeviceId theirDeviceId
    exact genuine_iff ideal _ _ _
  · intro s s' nonce plaintext a b wellFormed
    exact opened_sealed_iff ideal wellFormed _ _ _

end

theorem sortedIds_comm (a b : DartString) : sortedIds a b = sortedIds b a := by
  unfold sortedIds
  rcases lt_trichotomy (a.map UInt16.toNat) (b.map UInt16.toNat) with less | same | more
  · have first : ¬ After a b := lt_asymm less
    have second : After b a := less
    rw [if_neg first, if_pos second]
  · have units : a = b := List.map_injective_iff.mpr (fun _ _ => UInt16.toNat_inj.mp) same
    rw [units]
  · have first : After a b := more
    have second : ¬ After b a := lt_asymm more
    rw [if_pos first, if_neg second]

theorem deriveKey_comm {Key : Type} (c : Cryptography Key) (a b : DartString) :
    deriveKey c a b = deriveKey c b a := by
  unfold deriveKey ikm
  rw [sortedIds_comm]

/-- A device that has no key yet. -/
def CryptoService.new {Key : Type} : CryptoService Key := ⟨fun _ => none⟩

theorem length_tag (bytes : Bytes) : ((bytes ++ List.replicate 16 0).take 16).length = 16 := by
  simp

/-- Messages in the clear, with the key and the message in the MAC, in place of AES-GCM. -/
def Cryptography.sample : Cryptography Bytes where
  encrypt message key nonce :=
    ⟨message, nonce, ⟨(key ++ message ++ List.replicate 16 0).take 16, length_tag _⟩⟩
  decrypt box key :=
    if box.mac.toList = (key ++ box.cipherText ++ List.replicate 16 0).take 16
      then some box.cipherText
    else none
  deriveKey ikm nonce info := ikm ++ nonce ++ info

theorem Cryptography.sample_ideal : sample.Ideal where
  opens message key nonce := if_pos rfl
  authentic box key message opens := by
    unfold sample at opens
    dsimp only at opens
    split at opens
    · rename_i same
      obtain rfl := Option.some.inj opens
      cases box with
      | mk cipherText nonce mac =>
          change SecretBox.mk cipherText nonce mac = SecretBox.mk cipherText nonce _
          congr 1
          exact Subtype.ext same
    · cases opens
  nonce _ _ _ := rfl
  length _ _ _ := rfl

/-- A message of one device is authentic for the other, and read as it was. -/
theorem decrypt_exact_hi :
    Authentic .sample .new (sealed .sample (deriveKey .sample (ofString "b") (ofString "a"))
      (.replicate 12 7) (ofString "hi")) (ofString "b") (ofString "a") ∧
    ReadsBack .sample .new .new (.replicate 12 7) (ofString "hi")
    (ofString "a") (ofString "b") := by
  have plain : ¬ BeginsWithBom (ofString "hi") := by
    unfold BeginsWithBom
    decide
  obtain ⟨authentic, readsBack⟩ := decrypt_exact_iff .sample Cryptography.sample_ideal
  refine ⟨(authentic _ _ _ _).mpr ⟨.replicate 12 7, _, plain, rfl, rfl⟩, ?_⟩
  refine (readsBack _ _ _ _ _ _ ⟨_, rfl⟩).mpr ⟨plain, ?_⟩
  have fresh (x y : DartString) : (getKey .sample x y .new).1 = deriveKey .sample x y := rfl
  rw [fresh, fresh, deriveKey_comm .sample (ofString "a")]

/-- A text in base64 that nobody has encrypted is presented as a message, and a text that begins
with a byte order mark is read without it. -/
theorem decrypt_presents_forgery :
    ((decrypt .sample (ofString "aGk=") (ofString "b") (ofString "a") .new).1 = ofString "hi" ∧
      ¬ ∃ key nonce plaintext, ofString "aGk=" = sealed .sample key nonce plaintext) ∧
    ∃ plaintext,
    Utf16.WellFormed plaintext ∧ ¬ ReadsBack .sample .new .new (.replicate 12 7) plaintext
      (ofString "a") (ofString "b") := by
  refine ⟨⟨by decide +kernel, ?_⟩, ofString "\uFEFFhi", ⟨_, rfl⟩, ?_⟩
  · rintro ⟨key, nonce, plaintext, same⟩
    have read := base64Decode_sealed (c := .sample) key nonce plaintext
    rw [← same] at read
    have short : base64Decode (ofString "aGk=") = some [104, 105] := by decide +kernel
    rw [short] at read
    have lengths := congrArg List.length (Option.some.inj read)
    rw [length_pack, List.length_cons, List.length_cons, List.length_nil] at lengths
    omega
  · unfold ReadsBack
    decide +kernel

/-- A call of the service. -/
inductive CryptoCall where
  | encrypt (nonce : ByteArr 12) (plaintext myDeviceId theirDeviceId : DartString)
  | decrypt (ciphertextB64 myDeviceId theirDeviceId : DartString)
  | clearKeys

namespace CryptoCall

/-- The ids of a call that needs a key. -/
def ids : CryptoCall → Option (DartString × DartString)
  | .encrypt _ _ myDeviceId theirDeviceId => some (myDeviceId, theirDeviceId)
  | .decrypt _ myDeviceId theirDeviceId => some (myDeviceId, theirDeviceId)
  | .clearKeys => none

section

variable {Key : Type} (c : Cryptography Key)

/-- The service after a call. -/
def step (s : CryptoService Key) : CryptoCall → CryptoService Key
  | .encrypt nonce plaintext myDeviceId theirDeviceId =>
      (App.encrypt c nonce plaintext myDeviceId theirDeviceId s).2
  | .decrypt ciphertextB64 myDeviceId theirDeviceId =>
      (App.decrypt c ciphertextB64 myDeviceId theirDeviceId s).2
  | .clearKeys => App.clearKeys s

/-- The service after calls. -/
def after (s : CryptoService Key) (calls : List CryptoCall) : CryptoService Key :=
  calls.foldl (step c) s

/-- Every call works with the key of its own two ids. -/
def Transparent (calls : List CryptoCall) : Prop :=
  ∀ before call later ids, calls = before ++ call :: later → call.ids = some ids →
    (getKey c ids.1 ids.2 (after c .new before)).1 = deriveKey c ids.1 ids.2

end

/-- Of two calls with the same id of the other device and no clearing between them, both have ids
of which the same key material is made. -/
def Consistent (calls : List CryptoCall) : Prop :=
  ∀ before call between call' later ids ids',
    calls = before ++ call :: (between ++ call' :: later) → .clearKeys ∉ between →
    call.ids = some ids → call'.ids = some ids' → ids.2 = ids'.2 →
    ikm ids.1 ids.2 = ikm ids'.1 ids'.2

/-- HKDF makes different keys of what is different among the key materials of the calls. -/
def NoCollision {Key : Type} (c : Cryptography Key) (calls : List CryptoCall) : Prop :=
  ∀ call ∈ calls, ∀ call' ∈ calls, ∀ ids ids', call.ids = some ids → call'.ids = some ids' →
    deriveKey c ids.1 ids.2 = deriveKey c ids'.1 ids'.2 → ikm ids.1 ids.2 = ikm ids'.1 ids'.2

/-- What a call means to the table of keys. -/
def event (call : CryptoCall) : Memo.Event (DartString × DartString) :=
  match call.ids with
  | some ids => .ask ids
  | none => .clear

section

variable {Key : Type} {c : Cryptography Key} {calls : List CryptoCall}

/-- The key of two ids. -/
def keyOf (c : Cryptography Key) (ids : DartString × DartString) : Key := deriveKey c ids.1 ids.2

theorem getKey_eq_ask (ids : DartString × DartString) (s : CryptoService Key) :
    getKey c ids.1 ids.2 s =
      ((Memo.ask Prod.snd (keyOf c) s.keys ids).1,
      ⟨(Memo.ask Prod.snd (keyOf c) s.keys ids).2⟩) := by
  unfold getKey
  dsimp only
  cases known : s.keys ids.2 with
  | none =>
      rw [Memo.ask_of_none known]
      rfl
  | some key => rw [Memo.ask_of_some known]

theorem keys_step (s : CryptoService Key) (call : CryptoCall) :
    (step c s call).keys = Memo.next Prod.snd (keyOf c) s.keys call.event := by
  cases call with
  | encrypt nonce plaintext myDeviceId theirDeviceId =>
      change (getKey c myDeviceId theirDeviceId s).2.keys = _
      rw [getKey_eq_ask (myDeviceId, theirDeviceId)]
      rfl
  | decrypt ciphertextB64 myDeviceId theirDeviceId =>
      change (getKey c myDeviceId theirDeviceId s).2.keys = _
      rw [getKey_eq_ask (myDeviceId, theirDeviceId)]
      rfl
  | clearKeys => rfl

theorem keys_after (s : CryptoService Key) (calls : List CryptoCall) :
    (after c s calls).keys = Memo.after Prod.snd (keyOf c) s.keys (calls.map event) := by
  induction calls generalizing s with
  | nil => rfl
  | cons call calls ih =>
      change (after c (step c s call) calls).keys = _
      rw [ih, keys_step]
      rfl

theorem event_eq_ask {call : CryptoCall} {ids : DartString × DartString} :
    call.event = .ask ids ↔ call.ids = some ids := by
  unfold event
  cases call.ids with
  | none => exact ⟨nofun, nofun⟩
  | some other => exact ⟨fun same => congrArg some (Memo.Event.ask.inj same),
      fun same => congrArg Memo.Event.ask (Option.some.inj same)⟩

theorem event_eq_clear {call : CryptoCall} : call.event = .clear ↔ call = .clearKeys := by
  cases call with
  | clearKeys => exact ⟨fun _ => rfl, fun _ => rfl⟩
  | _ => exact ⟨nofun, nofun⟩

theorem clear_mem_events : .clear ∈ calls.map event ↔ .clearKeys ∈ calls := by
  rw [List.mem_map]
  constructor
  · rintro ⟨call, member, is⟩
    rwa [← event_eq_clear.mp is]
  · exact fun member => ⟨_, member, rfl⟩

theorem transparent_iff_memo :
    Transparent c calls ↔ Memo.Transparent Prod.snd (keyOf c) (calls.map event) := by
  constructor
  · intro transparent before ids later is
    obtain ⟨first, rest, rfl, rfl, split⟩ := List.map_eq_append_iff.mp is
    obtain ⟨call, last, rfl, asks, rfl⟩ := List.map_eq_cons_iff.mp split
    have key := transparent first call last ids rfl (event_eq_ask.mp asks)
    rw [getKey_eq_ask, keys_after] at key
    exact key
  · intro transparent before call later ids is needs
    rw [getKey_eq_ask, keys_after]
    refine transparent (before.map event) ids (later.map event) ?_
    rw [is, List.map_append, List.map_cons, event_eq_ask.mpr needs]

theorem consistent_iff_memo (apart : NoCollision c calls) :
    Consistent calls ↔ Memo.Agreeing Prod.snd (keyOf c) (calls.map event) := by
  constructor
  · intro consistent before ids between ids' later is kept same
    obtain ⟨first, tail, rfl, rfl, cut⟩ := List.map_eq_append_iff.mp is
    obtain ⟨call, tail', rfl, asks, cut'⟩ := List.map_eq_cons_iff.mp cut
    obtain ⟨second, tail'', rfl, rfl, cut''⟩ := List.map_eq_append_iff.mp cut'
    obtain ⟨call', last, rfl, asks', rfl⟩ := List.map_eq_cons_iff.mp cut''
    have material := consistent first call second call' last ids ids' rfl
      (fun member => kept (clear_mem_events.mpr member)) (event_eq_ask.mp asks)
      (event_eq_ask.mp asks') same
    unfold keyOf deriveKey
    rw [material]
  · intro agreeing before call between call' later ids ids' is kept needs needs' same
    refine apart call (by simp [is]) call' (by simp [is]) ids ids' needs needs' ?_
    refine agreeing (before.map event) ids (between.map event) ids' (later.map event) ?_
      (fun member => kept (clear_mem_events.mp member)) same
    simp only [is, List.map_append, List.map_cons, event_eq_ask.mpr needs, event_eq_ask.mpr needs']

/-- So it is where the device always gives the same id of its own. -/
theorem consistent_of_one_id (myDeviceId : DartString)
    (one : ∀ call ∈ calls, ∀ ids, call.ids = some ids → ids.1 = myDeviceId) : Consistent calls := by
  intro before call between call' later ids ids' is _ needs needs' same
  rw [one call (by simp [is]) ids needs, one call' (by simp [is]) ids' needs', same]

end

end CryptoCall

/-- Every call of a run works with the key of its own two ids, which is the key of the device at
the other end, exactly if calls with the same id of the other device and no clearing between them
have ids of which the same key material is made. The calls of a run come one after the other: none
looks for a key while another is still deriving one. -/
theorem cache_transparent_iff {Key : Type} (c : Cryptography Key) (calls : List CryptoCall)
    (apart : CryptoCall.NoCollision c calls) :
    (CryptoCall.Transparent c calls ∧ ∀ a b, deriveKey c a b = deriveKey c b a) ↔
      CryptoCall.Consistent calls := by
  rw [CryptoCall.transparent_iff_memo, CryptoCall.consistent_iff_memo apart, ← Memo.transparent_iff]
  exact and_iff_left (deriveKey_comm c)

theorem noCollision_sample (calls : List CryptoCall) : CryptoCall.NoCollision .sample calls := by
  intro call _ call' _ ids ids' _ _ same
  unfold deriveKey Cryptography.sample at same
  dsimp only at same
  rw [List.append_assoc, List.append_assoc] at same
  exact List.append_cancel_right same

/-- A device that knows its id sends two messages. -/
theorem cache_transparent_twice : CryptoCall.Transparent .sample
    [.encrypt (.replicate 12 7) (ofString "hi") (ofString "a") (ofString "b"),
      .encrypt (.replicate 12 8) (ofString "ho") (ofString "a") (ofString "b")] := by
  apply And.left
  apply (cache_transparent_iff .sample _ (noCollision_sample _)).mpr
  apply CryptoCall.consistent_of_one_id (ofString "a")
  simp [CryptoCall.ids]

/-- A device that sends its first message before it has loaded its id keeps the key that it has
made of no id. -/
theorem cache_keeps_placeholder : ¬ CryptoCall.Transparent .sample
    [.encrypt (.replicate 12 7) (ofString "hi") (ofString "") (ofString "b"),
      .encrypt (.replicate 12 8) (ofString "ho") (ofString "a") (ofString "b")] := by
  intro transparent
  have key := transparent [_] _ [] (ofString "a", ofString "b") rfl rfl
  revert key
  decide +kernel

end Hysj.App
