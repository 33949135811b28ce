import Hysj.Base.Base64
import Hysj.Base.Json
import Hysj.Base.Utf16

set_option autoImplicit false

/- What the app uses of `dart:convert` and the server does not. A string of Dart is a sequence of
UTF-16 code units. -/
namespace Hysj.App

abbrev DartString := List UInt16

namespace Dart

/-- The string with the characters of a text. -/
def ofString (text : String) : DartString := Utf16.encode text.toList

@[simp] theorem decode_ofString (text : String) :
    String.ofList (Utf16.decode (ofString text)) = text := by
  rw [ofString, Utf16.decode_encode, String.ofList_toList]

@[simp] theorem wellFormed_ofString (text : String) : Utf16.WellFormed (ofString text) :=
  ⟨text.toList, rfl⟩

theorem wellFormed_iff {text : DartString} :
    Utf16.WellFormed text ↔ ∃ chars : String, text = ofString chars := by
  constructor
  · rintro ⟨chars, rfl⟩
    exact ⟨String.ofList chars, by rw [ofString, String.toList_ofList]⟩
  · rintro ⟨chars, rfl⟩
    exact wellFormed_ofString chars

/-- An escaped padding character counts as the character. -/
def unescapePadding : List Char → List Char
  | '%' :: '3' :: 'D' :: rest => '=' :: unescapePadding rest
  | '%' :: '3' :: 'd' :: rest => '=' :: unescapePadding rest
  | c :: rest => c :: unescapePadding rest
  | [] => []

/-- The character of the standard alphabet for one of the other alphabet. -/
def standard (c : Char) : Char :=
  if c = '-' then '+' else if c = '_' then '/' else c

/-- The characters that `base64.decode` and `base64Url.decode` read, of either alphabet. -/
def base64Chars (text : List Char) : Option (List UInt8) :=
  Base64.decodeChars ((unescapePadding text).map standard)

def base64Encode (bytes : List UInt8) : DartString := Utf16.encode (Base64.encodeChars bytes)

def base64Decode (text : DartString) : Option (List UInt8) := base64Chars (Utf16.decode text)

/-- A character that stands for itself. -/
def Plain (c : Char) : Prop := c ≠ '%' ∧ c ≠ '-' ∧ c ≠ '_'

instance (c : Char) : Decidable (Plain c) := inferInstanceAs (Decidable (_ ∧ _))

theorem plain_digit {n : Nat} (small : n < 64) : Plain (Base64.digit n) := by
  revert n
  decide

theorem plain_encodeChars (bytes : List UInt8) : ∀ c ∈ Base64.encodeChars bytes, Plain c := by
  have pad : Plain '=' := by decide
  induction bytes using Base64.encodeChars.induct with
  | case1 => exact List.forall_mem_nil _
  | case2 a =>
      have small := a.toNat_lt
      simp only [Base64.encodeChars, List.forall_mem_cons]
      exact ⟨plain_digit (by omega), plain_digit (by omega), pad, pad, List.forall_mem_nil _⟩
  | case3 a b =>
      have aSmall := a.toNat_lt
      have bSmall := b.toNat_lt
      simp only [Base64.encodeChars, List.forall_mem_cons]
      exact ⟨plain_digit (by omega), plain_digit (by omega), plain_digit (by omega), pad,
        List.forall_mem_nil _⟩
  | case4 a b c rest ih =>
      have aSmall := a.toNat_lt
      have bSmall := b.toNat_lt
      have cSmall := c.toNat_lt
      simp only [Base64.encodeChars, List.forall_mem_cons]
      exact ⟨plain_digit (by omega), plain_digit (by omega), plain_digit (by omega),
        plain_digit (by omega), ih⟩

theorem unescapePadding_of_plain {text : List Char} (plain : ∀ c ∈ text, Plain c) :
    unescapePadding text = text := by
  induction text with
  | nil => rfl
  | cons c text ih =>
      rw [List.forall_mem_cons] at plain
      rw [unescapePadding, ih plain.2]
      · intro rest is
        exact absurd is plain.1.1
      · intro rest is
        exact absurd is plain.1.1

theorem standard_of_plain {c : Char} (plain : Plain c) : standard c = c := by
  rw [standard, if_neg plain.2.1, if_neg plain.2.2]

theorem base64Decode_base64Encode (bytes : List UInt8) :
    base64Decode (base64Encode bytes) = some bytes := by
  have plain := plain_encodeChars bytes
  rw [base64Decode, base64Encode, Utf16.decode_encode, base64Chars, unescapePadding_of_plain plain,
    List.map_congr_left fun c member => standard_of_plain (plain c member), List.map_id',
    Base64.decodeChars_encodeChars]

theorem base64Encode_injective : Function.Injective base64Encode := by
  intro left right same
  have read := base64Decode_base64Encode left
  rw [same, base64Decode_base64Encode] at read
  exact (Option.some.inj read).symm

theorem unescapePadding_of_ne {text : List Char} (plain : ∀ c ∈ text, c ≠ '%') :
    unescapePadding text = text := by
  induction text with
  | nil => rfl
  | cons c text ih =>
      rw [List.forall_mem_cons] at plain
      rw [unescapePadding, ih plain.2]
      · intro rest is
        exact absurd is plain.1
      · intro rest is
        exact absurd is plain.1

theorem standard_urlSafe {c : Char} (plain : Plain c) : standard (Base64.urlSafe c) = c := by
  unfold Base64.urlSafe standard
  by_cases plus : c = '+'
  · simp [plus]
  · by_cases slash : c = '/'
    · simp [slash]
    · rw [if_neg plus, if_neg slash, if_neg plain.2.1, if_neg plain.2.2]

theorem base64Chars_encodeUrl (bytes : List UInt8) :
    base64Chars (Base64.encodeUrl bytes ++
      List.replicate (Base64.lacks (Base64.encodeUrl bytes).length) '=') = some bytes := by
  have plain : ∀ c ∈ Base64.encodeUrl bytes ++
      List.replicate (Base64.lacks (Base64.encodeUrl bytes).length) '=', c ≠ '%' := by
    intro c member
    rcases List.mem_append.mp member with text | pad
    · exact (Base64.ne_of_mem_encodeUrl text).1
    · rw [List.eq_of_mem_replicate pad]
      decide
  have back : (Base64.encodeUrl bytes).map standard =
      (Base64.encodeChars bytes).filter fun c => c ≠ '=' := by
    have each : ∀ c ∈ (Base64.encodeChars bytes).filter (fun c => c ≠ '='),
        (standard ∘ Base64.urlSafe) c = c := by
      intro c member
      exact standard_urlSafe (plain_encodeChars bytes c (List.mem_of_mem_filter member))
    rw [Base64.encodeUrl, List.map_map, List.map_congr_left each, List.map_id']
  have length : (Base64.encodeUrl bytes).length =
      ((Base64.encodeChars bytes).filter fun c => c ≠ '=').length := List.length_map _
  have pad : standard '=' = '=' := by decide
  rw [base64Chars, unescapePadding_of_ne plain, List.map_append, back, List.map_replicate, pad,
    length, Base64.filter_append_pad, Base64.decodeChars_encodeChars]

theorem length_le_encodeChars (bytes : List UInt8) :
    bytes.length ≤ (Base64.encodeChars bytes).length := by
  induction bytes using Base64.encodeChars.induct with
  | case1 => exact Nat.le_refl 0
  | case2 a => simp [Base64.encodeChars]
  | case3 a b => simp [Base64.encodeChars]
  | case4 a b c rest ih =>
      simp only [Base64.encodeChars, List.length_cons]
      omega

/-- `utf8.encode`: a surrogate that is not paired counts as U+FFFD. -/
def utf8Encode (text : DartString) : List UInt8 := Json.utf8 (Utf16.decode text)

/-- A byte order mark at the start is discarded. -/
def dropBom : List UInt8 → List UInt8
  | 0xEF :: 0xBB :: 0xBF :: rest => rest
  | bytes => bytes

/-- `utf8.decode`, without a value where it throws. -/
def utf8Decode (bytes : List UInt8) : Option DartString := do
  let text ← (dropBom bytes).toByteArray.utf8Decode?
  return Utf16.encode text.toList

/-- The text begins with U+FEFF. -/
def BeginsWithBom (text : DartString) : Prop := (Utf16.decode text).head? = some (Char.ofNat 0xFEFF)

theorem dropBom_cases (bytes : List UInt8) :
    (∃ rest, bytes = 0xEF :: 0xBB :: 0xBF :: rest ∧ dropBom bytes = rest) ∨
    dropBom bytes = bytes := by
  unfold dropBom
  split
  · exact Or.inl ⟨_, rfl, rfl⟩
  · exact Or.inr rfl

theorem utf8_cons (c : Char) (text : List Char) :
    Json.utf8 (c :: text) = String.utf8EncodeChar c ++ Json.utf8 text := List.flatMap_cons

theorem utf8_bom (text : List Char) :
    Json.utf8 (Char.ofNat 0xFEFF :: text) = 0xEF :: 0xBB :: 0xBF :: Json.utf8 text := by
  have mark : String.utf8EncodeChar (Char.ofNat 0xFEFF) = [0xEF, 0xBB, 0xBF] := by decide
  rw [utf8_cons, mark]
  rfl

theorem head_of_bom {text : List Char} {rest : List UInt8}
    (begins : Json.utf8 text = 0xEF :: 0xBB :: 0xBF :: rest) :
    text.head? = some (Char.ofNat 0xFEFF) := by
  have mark : [Char.ofNat 0xFEFF].utf8Encode = [0xEF, 0xBB, 0xBF].toByteArray := by decide
  have bytes : text.utf8Encode = [Char.ofNat 0xFEFF].utf8Encode ++ rest.toByteArray := by
    rw [mark, ← List.toByteArray_append]
    exact congrArg List.toByteArray begins
  have read : text.utf8Encode.utf8Decode? = some text.toArray := List.utf8Decode?_utf8Encode
  rw [bytes, ByteArray.utf8Decode?_utf8Encode_singleton_append, Option.map_eq_some_iff] at read
  obtain ⟨later, -, same⟩ := read
  have chars : (#[Char.ofNat 0xFEFF] ++ later).toList = text := congrArg Array.toList same
  rw [← chars, Array.toList_append]
  rfl

theorem utf8Decode_utf8Encode {text : DartString} (plain : ¬ BeginsWithBom text) :
    utf8Decode (utf8Encode text) = some (Utf16.encode (Utf16.decode text)) := by
  have kept : dropBom (utf8Encode text) = utf8Encode text := by
    rcases dropBom_cases (utf8Encode text) with ⟨rest, begins, -⟩ | kept
    · exact (plain (head_of_bom begins)).elim
    · exact kept
  have read : (utf8Encode text).toByteArray.utf8Decode? = some (Utf16.decode text).toArray :=
    List.utf8Decode?_utf8Encode
  rw [utf8Decode, kept, read]
  rfl

theorem utf8Encode_of_utf8Decode {bytes : List UInt8} {text : DartString}
    (read : utf8Decode bytes = some text) :
    Utf16.WellFormed text ∧ utf8Encode text = dropBom bytes := by
  unfold utf8Decode at read
  obtain ⟨chars, decoded, same⟩ := Option.bind_eq_some_iff.mp read
  obtain rfl := Option.some.inj same
  refine ⟨⟨_, rfl⟩, ?_⟩
  have valid : (dropBom bytes).toByteArray.utf8Decode?.isSome := by
    rw [decoded]
    rfl
  have back := ByteArray.utf8Encode_get_utf8Decode? (h := valid)
  simp only [decoded, Option.get_some] at back
  have listed := congrArg (fun b : ByteArray => b.data.toList) back
  rw [List.utf8Encode, List.data_toByteArray, List.data_toByteArray] at listed
  rw [utf8Encode, Utf16.decode_encode]
  exact listed

/-- A value in a map that the app encodes. -/
inductive Scalar where
  | str (text : DartString)
  | int (i : Int64)
  | bool (b : Bool)

/-- A code unit by itself. A surrogate is escaped. -/
def writeUnit (u : UInt16) : List Char :=
  if Utf16.IsLead u ∨ Utf16.IsTrail u then
    [Json.backslash, 'u', 'd', Json.hexChar (u.toNat / 256 % 16), Json.hexChar (u.toNat / 16 % 16),
      Json.hexChar (u.toNat % 16)]
  else Json.escapeChar (Char.ofNat u.toNat)

def writeStringContent : DartString → List Char
  | [] => []
  | [u] => writeUnit u
  | u :: v :: rest =>
      if Utf16.IsLead u ∧ Utf16.IsTrail v then
        Json.escapeChar (Utf16.pair u v) ++ writeStringContent rest
      else writeUnit u ++ writeStringContent (v :: rest)

def Scalar.render : Scalar → List Char
  | .str text => Json.quoteChar :: (writeStringContent text ++ [Json.quoteChar])
  | .int i => Json.renderInt i.toInt
  | .bool b => Json.render (.bool b)

/-- What follows the first member of a map. -/
def renderMembers : List (String × Scalar) → List Char
  | [] => ['}']
  | (name, item) :: members =>
      ',' :: (Json.renderString name ++ ':' :: (item.render ++ renderMembers members))

/-- `jsonEncode` of a `Map<String, dynamic>`. -/
def jsonEncode : List (String × Scalar) → String
  | [] => String.ofList ['{', '}']
  | (name, item) :: members => String.ofList
      ('{' :: (Json.renderString name ++ ':' :: (item.render ++ renderMembers members)))

/-- The value that is written for a well formed string. -/
def Scalar.value : Scalar → Json.Value
  | .str text => .str (String.ofList (Utf16.decode text))
  | .int i => .num i.toInt
  | .bool b => .bool b

def Scalar.WellFormed : Scalar → Prop
  | .str text => Utf16.WellFormed text
  | .int _ => True
  | .bool _ => True

def values (members : List (String × Scalar)) : List (String × Json.Value) :=
  members.map fun member => (member.1, member.2.value)

theorem writeStringContent_cons {u : UInt16} (alone : ¬ Utf16.IsLead u) (rest : DartString) :
    writeStringContent (u :: rest) = writeUnit u ++ writeStringContent rest := by
  cases rest with
  | nil => exact (List.append_nil _).symm
  | cons v rest => rw [writeStringContent, if_neg fun pair => alone pair.1]

theorem writeStringContent_encodeChar (c : Char) (rest : DartString) :
    writeStringContent (Utf16.encodeChar c ++ rest) =
      Json.escapeChar c ++ writeStringContent rest := by
  rcases Utf16.encodeChar_cases c with
    ⟨u, units, notLead, notTrail, is⟩ | ⟨u, v, units, lead, trail, is⟩
  · rw [units, List.singleton_append, writeStringContent_cons notLead, writeUnit,
      if_neg (not_or.mpr ⟨notLead, notTrail⟩), is]
  · rw [units, List.cons_append, List.cons_append, List.nil_append, writeStringContent,
      if_pos ⟨lead, trail⟩, is]

theorem writeStringContent_encode (chars : List Char) (rest : DartString) :
    writeStringContent (Utf16.encode chars ++ rest) =
      chars.flatMap Json.escapeChar ++ writeStringContent rest := by
  induction chars with
  | nil => rfl
  | cons c chars ih =>
      have shape : Utf16.encode (c :: chars) ++ rest =
          Utf16.encodeChar c ++ (Utf16.encode chars ++ rest) := by
        rw [Utf16.encode, List.flatMap_cons, List.append_assoc]
        rfl
      rw [shape, writeStringContent_encodeChar, ih, List.flatMap_cons, List.append_assoc]

theorem render_of_wellFormed {item : Scalar} (wellFormed : item.WellFormed) :
    item.render = Json.render item.value := by
  cases item with
  | str text =>
      obtain ⟨chars, rfl⟩ := wellFormed
      have content := writeStringContent_encode chars []
      rw [List.append_nil, writeStringContent, List.append_nil] at content
      rw [Scalar.render, Scalar.value, content, Utf16.decode_encode, Json.render, Json.renderString,
        String.toList_ofList]
  | int i => rfl
  | bool b => rfl

theorem renderMembers_of_wellFormed {members : List (String × Scalar)}
    (wellFormed : ∀ member ∈ members, member.2.WellFormed) :
    renderMembers members = Json.renderMembers (values members) := by
  induction members with
  | nil => rfl
  | cons member members ih =>
      rw [List.forall_mem_cons] at wellFormed
      rw [renderMembers, render_of_wellFormed wellFormed.1, ih wellFormed.2]
      rfl

theorem jsonEncode_of_wellFormed {members : List (String × Scalar)}
    (wellFormed : ∀ member ∈ members, member.2.WellFormed) :
    jsonEncode members = String.ofList (Json.render (.obj (values members))) := by
  cases members with
  | nil => rfl
  | cons member members =>
      rw [List.forall_mem_cons] at wellFormed
      rw [jsonEncode, render_of_wellFormed wellFormed.1, renderMembers_of_wellFormed wellFormed.2]
      rfl

theorem readChars_unpaired {u : UInt16} {units : DartString}
    (unpaired : Utf16.Unpaired u units) (rest : List Char) :
    Json.readChars (writeStringContent (u :: units) ++ rest) = none := by
  have content : writeStringContent (u :: units) = writeUnit u ++ writeStringContent units := by
    cases units with
    | nil => exact (List.append_nil _).symm
    | cons v units => rw [writeStringContent, if_neg (unpaired.2 v rfl)]
  rw [content, writeUnit, if_pos unpaired.1]
  rfl

theorem readValue_broken {text : DartString} (broken : Utf16.Broken text) (bound : Nat)
    (rest : List Char) : Json.readValue bound ((Scalar.str text).render ++ rest) = none := by
  obtain ⟨chars, u, units, rfl, unpaired⟩ := broken
  cases bound with
  | zero => rfl
  | succ bound =>
      rw [Scalar.render, List.cons_append, List.append_assoc, Json.readValue_quote,
        writeStringContent_encode, List.append_assoc, Json.readChars_escapeChars,
        readChars_unpaired unpaired]
      rfl

theorem readMember_broken {item : Scalar} (broken : ¬ item.WellFormed) (name : String)
    (bound : Nat) (rest : List Char) :
    Json.readMember bound (Json.renderString name ++ ':' :: (item.render ++ rest)) = none := by
  cases bound with
  | zero => rfl
  | succ bound =>
      cases item with
      | str text =>
          have refused := (Utf16.wellFormed_or_broken text).resolve_left broken
          simp [Json.readMember, Json.readString_renderString, readValue_broken refused]
      | int i => exact absurd trivial broken
      | bool b => exact absurd trivial broken

theorem numberEnds_renderMembers (members : List (String × Scalar)) :
    Json.NumberEnds (renderMembers members) := by
  cases members with
  | nil => simp [renderMembers, Json.NumberEnds]
  | cons member members => simp [renderMembers, Json.NumberEnds]

theorem readMembers_broken {members : List (String × Scalar)}
    (broken : ∃ member ∈ members, ¬ member.2.WellFormed) (bound : Nat)
    (enough : (renderMembers members).length ≤ bound) :
    Json.readMembers bound (renderMembers members) = none := by
  induction members generalizing bound with
  | nil => simp at broken
  | cons member members ih =>
      cases bound with
      | zero => rfl
      | succ bound =>
          rw [renderMembers]
          by_cases wellFormed : member.2.WellFormed
          · have later : ∃ other ∈ members, ¬ other.2.WellFormed := by
              obtain ⟨other, among, refused⟩ := broken
              rcases List.mem_cons.mp among with rfl | among
              · exact absurd wellFormed refused
              · exact ⟨other, among, refused⟩
            have length := enough
            rw [renderMembers, render_of_wellFormed wellFormed] at length
            simp only [List.length_cons, List.length_append] at length
            have first := Json.readMember_render member.1 member.2.value bound
              (renderMembers members) (by omega) (numberEnds_renderMembers members)
            rw [render_of_wellFormed wellFormed]
            simp [Json.readMembers, first, ih later bound (by omega)]
          · simp [Json.readMembers, readMember_broken wellFormed]

/-- The reader of compact text refuses a map with an unpaired surrogate. -/
theorem ofSlice_jsonEncode {members : List (String × Scalar)}
    (broken : ∃ member ∈ members, ¬ member.2.WellFormed) :
    Json.ofSlice (Json.utf8 (jsonEncode members).toList) = none := by
  cases members with
  | nil => simp at broken
  | cons member members =>
      have bytes (text : List Char) : (Json.utf8 text).toByteArray = text.utf8Encode := rfl
      have more : (Json.renderString member.1 ++
          ':' :: (member.2.render ++ renderMembers members)).head? ≠ some '}' := by
        rw [Json.renderString_eq, List.cons_append, List.head?_cons]
        decide
      rw [jsonEncode, String.toList_ofList, Json.ofSlice, bytes, List.utf8Decode?_utf8Encode]
      have refused := readMembers_broken broken
      rw [renderMembers] at refused
      simp only [Option.bind_eq_bind, Option.bind_some, Json.readValue_brace _ more]
      rw [refused]
      · rfl
      · simp

end Dart

end Hysj.App
