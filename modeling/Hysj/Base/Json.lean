import Mathlib.Data.List.Basic
import Mathlib.Tactic.Common

set_option autoImplicit false

/- JSON values, their compact text and a reader of that text. The reader accepts
only compact text; it shows that the text determines the value. -/
namespace Hysj.Json

/-- A JSON value. Numbers are the integers a program writes; object members
keep the order in which they are written. -/
inductive Value where
  | null
  | bool (b : Bool)
  | num (i : Int)
  | str (s : String)
  | arr (items : List Value)
  | obj (members : List (String × Value))

abbrev quoteChar : Char := Char.ofNat 34
abbrev backslash : Char := Char.ofNat 92

def hexChars : List Char :=
  ['0', '1', '2', '3', '4', '5', '6', '7', '8', '9', 'a', 'b', 'c', 'd', 'e', 'f']

/-- The lower-case hexadecimal digit of a number below sixteen. -/
def hexChar (n : Nat) : Char := hexChars[n]?.getD '0'

/-- The text of one character of a string. Only the quote, the backslash and the
control characters are escaped; everything else stands for itself. -/
def escapeChar (c : Char) : List Char :=
  if c.toNat = 34 ∨ c.toNat = 92 then [backslash, c]
  else if c.toNat = 8 then [backslash, 'b']
  else if c.toNat = 9 then [backslash, 't']
  else if c.toNat = 10 then [backslash, 'n']
  else if c.toNat = 12 then [backslash, 'f']
  else if c.toNat = 13 then [backslash, 'r']
  else if c.toNat < 32 then
    [backslash, 'u', '0', '0', hexChar (c.toNat / 16), hexChar (c.toNat % 16)]
  else [c]

def renderString (s : String) : List Char :=
  quoteChar :: (s.toList.flatMap escapeChar ++ [quoteChar])

def renderInt (i : Int) : List Char :=
  if i < 0 then '-' :: Nat.toDigits 10 i.natAbs else Nat.toDigits 10 i.natAbs

mutual
/-- Compact text: no blank between tokens, members in their written order. -/
def render : Value → List Char
  | .null => ['n', 'u', 'l', 'l']
  | .bool true => ['t', 'r', 'u', 'e']
  | .bool false => ['f', 'a', 'l', 's', 'e']
  | .num i => renderInt i
  | .str s => renderString s
  | .arr [] => ['[', ']']
  | .arr (item :: items) => '[' :: (render item ++ renderItems items)
  | .obj [] => ['{', '}']
  | .obj ((name, item) :: members) =>
      '{' :: (renderString name ++ ':' :: (render item ++ renderMembers members))

/-- What follows the first item of an array. -/
def renderItems : List Value → List Char
  | [] => [']']
  | item :: items => ',' :: (render item ++ renderItems items)

/-- What follows the first member of an object. -/
def renderMembers : List (String × Value) → List Char
  | [] => ['}']
  | (name, item) :: members =>
      ',' :: (renderString name ++ ':' :: (render item ++ renderMembers members))
end

/-- The UTF-8 bytes of a text. -/
def utf8 (text : List Char) : List UInt8 := text.flatMap String.utf8EncodeChar

/-- The bytes of the compact text of a value. -/
def toVec (value : Value) : List UInt8 := utf8 (render value)

def hexValue (c : Char) : Option Nat :=
  let index := hexChars.idxOf c
  if index < 16 then some index else none

/-- The characters of a string up to its closing quote, and the text after it. -/
def readChars : List Char → Option (List Char × List Char)
  | [] => none
  | c :: rest =>
      if c.toNat = 34 then some ([], rest)
      else if c.toNat = 92 then
        match rest with
        | 'b' :: rest => (readChars rest).map fun r => (Char.ofNat 8 :: r.1, r.2)
        | 't' :: rest => (readChars rest).map fun r => (Char.ofNat 9 :: r.1, r.2)
        | 'n' :: rest => (readChars rest).map fun r => (Char.ofNat 10 :: r.1, r.2)
        | 'f' :: rest => (readChars rest).map fun r => (Char.ofNat 12 :: r.1, r.2)
        | 'r' :: rest => (readChars rest).map fun r => (Char.ofNat 13 :: r.1, r.2)
        | 'u' :: '0' :: '0' :: high :: low :: rest =>
            match hexValue high, hexValue low with
            | some h, some l =>
                (readChars rest).map fun r => (Char.ofNat (16 * h + l) :: r.1, r.2)
            | _, _ => none
        | 'u' :: _ => none
        | escaped :: rest => (readChars rest).map fun r => (escaped :: r.1, r.2)
        | [] => none
      else (readChars rest).map fun r => (c :: r.1, r.2)

def readString : List Char → Option (String × List Char)
  | [] => none
  | c :: rest =>
      if c.toNat = 34 then (readChars rest).map fun r => (String.ofList r.1, r.2) else none

def readNat (text : List Char) : Option (Nat × List Char) :=
  let digits := text.takeWhile Char.isDigit
  if digits = [] then none
  else some (Nat.ofDigitChars 10 digits 0, text.dropWhile Char.isDigit)

/-- The text after a fixed word. -/
def expect (word text : List Char) : Option (List Char) :=
  if word.isPrefixOf text then some (text.drop word.length) else none

mutual
/-- Read one value; the number bounds the nesting and the members still to read. -/
def readValue : Nat → List Char → Option (Value × List Char)
  | 0, _ => none
  | _ + 1, [] => none
  | bound + 1, c :: rest =>
      if c = 'n' then (expect ['u', 'l', 'l'] rest).map fun rest => (.null, rest)
      else if c = 't' then (expect ['r', 'u', 'e'] rest).map fun rest => (.bool true, rest)
      else if c = 'f' then (expect ['a', 'l', 's', 'e'] rest).map fun rest => (.bool false, rest)
      else if c = '-' then (readNat rest).map fun r => (.num (-(r.1 : Int)), r.2)
      else if c = '[' then
        if rest.head? = some ']' then some (.arr [], rest.tail)
        else do
          let (item, rest) ← readValue bound rest
          let (items, rest) ← readItems bound rest
          some (.arr (item :: items), rest)
      else if c = '{' then
        if rest.head? = some '}' then some (.obj [], rest.tail)
        else do
          let (member, rest) ← readMember bound rest
          let (members, rest) ← readMembers bound rest
          some (.obj (member :: members), rest)
      else if c.toNat = 34 then (readString (c :: rest)).map fun r => (.str r.1, r.2)
      else (readNat (c :: rest)).map fun r => (.num r.1, r.2)

def readItems : Nat → List Char → Option (List Value × List Char)
  | _ + 1, ']' :: rest => some ([], rest)
  | bound + 1, ',' :: rest => do
      let (item, rest) ← readValue bound rest
      let (items, rest) ← readItems bound rest
      some (item :: items, rest)
  | _, _ => none

def readMember : Nat → List Char → Option ((String × Value) × List Char)
  | 0, _ => none
  | bound + 1, text => do
      let (name, rest) ← readString text
      match rest with
      | ':' :: rest => do
          let (item, rest) ← readValue bound rest
          some ((name, item), rest)
      | _ => none

def readMembers : Nat → List Char → Option (List (String × Value) × List Char)
  | _ + 1, '}' :: rest => some ([], rest)
  | bound + 1, ',' :: rest => do
      let (member, rest) ← readMember bound rest
      let (members, rest) ← readMembers bound rest
      some (member :: members, rest)
  | _, _ => none
end

/-- The value whose compact text is the whole input. -/
def ofSlice (bytes : List UInt8) : Option Value := do
  let text ← bytes.toByteArray.utf8Decode?
  match readValue (text.toList.length + 1) text.toList with
  | some (value, []) => some value
  | _ => none

theorem hexValue_hexChar (n : Nat) (small : n < 16) : hexValue (hexChar n) = some n := by
  have all : ∀ m < 16, hexValue (hexChar m) = some m := by decide
  exact all n small

theorem ofNat_eq_of_toNat {c : Char} {n : Nat} (same : c.toNat = n) : Char.ofNat n = c := by
  rw [← same, Char.ofNat_toNat]

/-- Reading undoes the escape of one character, whatever follows it. -/
theorem readChars_escapeChar (c : Char) (rest : List Char) :
    readChars (escapeChar c ++ rest) = (readChars rest).map fun r => (c :: r.1, r.2) := by
  unfold escapeChar
  split
  · rename_i escaped
    rcases escaped with quote | slash
    · rw [← ofNat_eq_of_toNat quote]
      rfl
    · rw [← ofNat_eq_of_toNat slash]
      rfl
  · rename_i plain
    split
    · rename_i same
      rw [← ofNat_eq_of_toNat same]
      rfl
    · split
      · rename_i same
        rw [← ofNat_eq_of_toNat same]
        rfl
      · split
        · rename_i same
          rw [← ofNat_eq_of_toNat same]
          rfl
        · split
          · rename_i same
            rw [← ofNat_eq_of_toNat same]
            rfl
          · split
            · rename_i same
              rw [← ofNat_eq_of_toNat same]
              rfl
            · split
              · rename_i control
                have value : 16 * (c.toNat / 16) + c.toNat % 16 = c.toNat := by omega
                have high := hexValue_hexChar (c.toNat / 16) (by omega)
                have low := hexValue_hexChar (c.toNat % 16) (by omega)
                change readChars (backslash :: 'u' :: '0' :: '0' :: hexChar (c.toNat / 16) ::
                  hexChar (c.toNat % 16) :: rest) = _
                rw [readChars.eq_def]
                simp only [high, low, value, Char.ofNat_toNat]
                rfl
              · have notQuote : c.toNat ≠ 34 := fun same => plain (Or.inl same)
                have notSlash : c.toNat ≠ 92 := fun same => plain (Or.inr same)
                rw [List.singleton_append, readChars.eq_def]
                simp only [notQuote, notSlash, ↓reduceIte]

theorem readChars_escapeChars (cs rest : List Char) :
    readChars (cs.flatMap escapeChar ++ rest) =
      (readChars rest).map fun r => (cs ++ r.1, r.2) := by
  induction cs with
  | nil => exact Option.map_id'.symm
  | cons c cs ih =>
      rw [List.flatMap_cons, List.append_assoc, readChars_escapeChar, ih, Option.map_map]
      rfl

theorem readChars_escaped (cs rest : List Char) :
    readChars (cs.flatMap escapeChar ++ quoteChar :: rest) = some (cs, rest) := by
  have quoted : quoteChar.toNat = 34 := rfl
  have ended : readChars (quoteChar :: rest) = some ([], rest) := by
    rw [readChars.eq_def]
    simp only [quoted, ↓reduceIte]
  rw [readChars_escapeChars, ended, Option.map_some, List.append_nil]

theorem readString_renderString (s : String) (rest : List Char) :
    readString (renderString s ++ rest) = some (s, rest) := by
  have shape : renderString s ++ rest =
      quoteChar :: (s.toList.flatMap escapeChar ++ quoteChar :: rest) := by
    simp [renderString]
  have quoted : quoteChar.toNat = 34 := rfl
  rw [shape, readString]
  simp only [quoted, ↓reduceIte, readChars_escaped, Option.map_some, String.ofList_toList]

/-- A text that cannot continue a number. -/
def NumberEnds (rest : List Char) : Prop := ∀ c ∈ rest.head?, c.isDigit = false

theorem readNat_toDigits (n : Nat) (rest : List Char) (ends : NumberEnds rest) :
    readNat (Nat.toDigits 10 n ++ rest) = some (n, rest) := by
  have digits : ∀ c ∈ Nat.toDigits 10 n, c.isDigit = true :=
    fun c member => Nat.isDigit_of_mem_toDigits (by decide) (by decide) member
  have taken : (Nat.toDigits 10 n ++ rest).takeWhile Char.isDigit = Nat.toDigits 10 n := by
    rw [List.takeWhile_append_of_pos digits]
    cases rest with
    | nil => simp
    | cons c rest => simp [ends c rfl]
  have dropped : (Nat.toDigits 10 n ++ rest).dropWhile Char.isDigit = rest := by
    rw [List.dropWhile_append_of_pos digits]
    cases rest with
    | nil => rfl
    | cons c rest => simp [ends c rfl]
  simp only [readNat, taken, dropped, Nat.toDigits_ne_nil, ↓reduceIte,
    Nat.ofDigitChars_ten_toDigits]

theorem numberEnds_renderItems (items : List Value) (rest : List Char) :
    NumberEnds (renderItems items ++ rest) := by
  cases items <;> simp [renderItems, NumberEnds]

theorem numberEnds_renderMembers (members : List (String × Value)) (rest : List Char) :
    NumberEnds (renderMembers members ++ rest) := by
  cases members <;> simp [renderMembers, NumberEnds]

/-- No token of a value other than a number starts with a digit. -/
theorem digit_starts_number {c : Char} (digit : c.isDigit = true) :
    c ≠ 'n' ∧ c ≠ 't' ∧ c ≠ 'f' ∧ c ≠ '-' ∧ c ≠ '[' ∧ c ≠ '{' ∧ c.toNat ≠ 34 := by
  refine ⟨?_, ?_, ?_, ?_, ?_, ?_, ?_⟩
  all_goals intro same
  all_goals first
    | (subst same; revert digit; decide)
    | (rw [← ofNat_eq_of_toNat same] at digit; revert digit; decide)

theorem readValue_renderInt (i : Int) (bound : Nat) (rest : List Char)
    (ends : NumberEnds rest) :
    readValue (bound + 1) (renderInt i ++ rest) = some (.num i, rest) := by
  unfold renderInt
  split
  · rename_i negative
    have value : -(i.natAbs : Int) = i := by omega
    have reads (text : List Char) : readValue (bound + 1) ('-' :: text) =
        (readNat text).map fun r => (.num (-(r.1 : Int)), r.2) := by simp [readValue]
    rw [List.cons_append, reads, readNat_toDigits _ _ ends, Option.map_some, value]
  · rename_i positive
    have value : (i.natAbs : Int) = i := by omega
    have digits : ∀ c ∈ Nat.toDigits 10 i.natAbs, c.isDigit = true :=
      fun c member => Nat.isDigit_of_mem_toDigits (by decide) (by decide) member
    have read := readNat_toDigits i.natAbs rest ends
    cases split : Nat.toDigits 10 i.natAbs with
    | nil => exact absurd split Nat.toDigits_ne_nil
    | cons c cs =>
        rw [split] at read digits
        obtain ⟨n, t, f, minus, bracket, brace, quote⟩ := digit_starts_number (digits c (by simp))
        rw [List.cons_append] at read ⊢
        simp only [readValue, n, t, f, minus, bracket, brace, quote, ↓reduceIte, read,
          Option.map_some, value]

theorem renderString_eq (s : String) :
    renderString s = quoteChar :: (s.toList.flatMap escapeChar ++ [quoteChar]) := rfl

theorem render_head (value : Value) :
    ∃ c tail, render value = c :: tail ∧ c ≠ ']' := by
  cases value with
  | null => exact ⟨_, _, rfl, by decide⟩
  | bool b => cases b <;> exact ⟨_, _, rfl, by decide⟩
  | num i =>
      unfold render renderInt
      split
      · exact ⟨_, _, rfl, by decide⟩
      · cases split : Nat.toDigits 10 i.natAbs with
        | nil => exact absurd split Nat.toDigits_ne_nil
        | cons c cs =>
            have digit : c.isDigit = true :=
              Nat.isDigit_of_mem_toDigits (n := i.natAbs) (b := 10) (by decide) (by decide)
                (by rw [split]; simp)
            refine ⟨c, cs, rfl, ?_⟩
            rintro rfl
            revert digit
            decide
  | str s => exact ⟨_, _, rfl, by decide⟩
  | arr items => cases items <;> exact ⟨_, _, rfl, by decide⟩
  | obj members => cases members <;> exact ⟨_, _, rfl, by decide⟩

theorem readValue_quote (bound : Nat) (rest : List Char) :
    readValue (bound + 1) (quoteChar :: rest) =
      (readChars rest).map fun r => (.str (String.ofList r.1), r.2) := by
  have other : quoteChar ≠ 'n' ∧ quoteChar ≠ 't' ∧ quoteChar ≠ 'f' ∧ quoteChar ≠ '-' ∧
      quoteChar ≠ '[' ∧ quoteChar ≠ '{' ∧ quoteChar.toNat = 34 := by decide
  rw [readValue, readString]
  simp only [other, ↓reduceIte, Option.map_map]
  rfl

/-- The members of an object, as if others stood before them. -/
theorem readValue_brace (bound : Nat) {rest : List Char} (more : rest.head? ≠ some '}') :
    readValue (bound + 1) ('{' :: rest) =
      (readMembers (bound + 1) (',' :: rest)).map fun r => (.obj r.1, r.2) := by
  simp [readValue, readMembers, more, Option.map_bind, Function.comp_def]

mutual
/-- The reader inverts the printer on every value, with any text that cannot
continue a number behind it. The bound only has to cover the printed length. -/
theorem readValue_render (value : Value) (bound : Nat) (rest : List Char)
    (enough : (render value).length ≤ bound) (ends : NumberEnds rest) :
    readValue bound (render value ++ rest) = some (value, rest) := by
  cases bound with
  | zero =>
      obtain ⟨c, tail, shape, _⟩ := render_head value
      simp [shape] at enough
  | succ bound =>
    match value with
    | .null => rfl
    | .bool true => rfl
    | .bool false => rfl
    | .num i => exact readValue_renderInt i bound rest ends
    | .str s =>
        rw [render, renderString, List.cons_append, List.append_assoc, List.singleton_append,
          readValue_quote, readChars_escaped, Option.map_some, String.ofList_toList]
    | .arr [] => rfl
    | .arr (item :: items) =>
        have len : (render item).length + (renderItems items).length ≤ bound := by
          have printed := enough
          simp only [render, List.length_cons, List.length_append] at printed
          omega
        have first := readValue_render item bound (renderItems items ++ rest) (by omega)
          (numberEnds_renderItems items rest)
        have others := readItems_render items bound rest (by omega)
        obtain ⟨c, tail, shape, notBracket⟩ := render_head item
        rw [shape, List.cons_append] at first
        simp [render, readValue, shape, notBracket, first, others]
    | .obj [] => rfl
    | .obj ((name, item) :: members) =>
        have len : (renderString name).length + (1 + (render item).length) +
            (renderMembers members).length ≤ bound := by
          have printed := enough
          simp only [render, List.length_cons, List.length_append] at printed
          omega
        have first := readMember_render name item bound (renderMembers members ++ rest)
          (by omega) (numberEnds_renderMembers members rest)
        have others := readMembers_render members bound rest (by omega)
        have notBrace : (renderString name).head?.getD ':' ≠ '}' := by
          rw [renderString_eq, List.head?_cons]
          decide
        simp [render, readValue, notBrace, first, others]
termination_by bound

theorem readItems_render (items : List Value) (bound : Nat) (rest : List Char)
    (enough : (renderItems items).length ≤ bound) :
    readItems bound (renderItems items ++ rest) = some (items, rest) := by
  cases bound with
  | zero => cases items <;> simp [renderItems] at enough
  | succ bound =>
    match items with
    | [] => rfl
    | item :: items =>
        have len : (render item).length + (renderItems items).length ≤ bound := by
          have printed := enough
          simp only [renderItems, List.length_cons, List.length_append] at printed
          omega
        have first := readValue_render item bound (renderItems items ++ rest) (by omega)
          (numberEnds_renderItems items rest)
        have others := readItems_render items bound rest (by omega)
        simp [renderItems, readItems, first, others]
termination_by bound

theorem readMember_render (name : String) (item : Value) (bound : Nat) (rest : List Char)
    (enough : (renderString name).length + (1 + (render item).length) ≤ bound)
    (ends : NumberEnds rest) :
    readMember bound (renderString name ++ ':' :: (render item ++ rest)) =
      some ((name, item), rest) := by
  cases bound with
  | zero => omega
  | succ bound =>
      have read := readString_renderString name (':' :: (render item ++ rest))
      have value := readValue_render item bound rest (by omega) ends
      simp [readMember, read, value]
termination_by bound

theorem readMembers_render (members : List (String × Value)) (bound : Nat) (rest : List Char)
    (enough : (renderMembers members).length ≤ bound) :
    readMembers bound (renderMembers members ++ rest) = some (members, rest) := by
  cases bound with
  | zero =>
      match members with
      | [] => simp [renderMembers] at enough
      | (name, item) :: members => simp [renderMembers] at enough
  | succ bound =>
    match members with
    | [] => rfl
    | (name, item) :: members =>
        have len : (renderString name).length + (1 + (render item).length) +
            (renderMembers members).length ≤ bound := by
          have printed := enough
          simp only [renderMembers, List.length_cons, List.length_append] at printed
          omega
        have first := readMember_render name item bound (renderMembers members ++ rest)
          (by omega) (numberEnds_renderMembers members rest)
        have others := readMembers_render members bound rest (by omega)
        simp [renderMembers, readMembers, first, others]
termination_by bound
end

theorem ofSlice_toVec (value : Value) : ofSlice (toVec value) = some value := by
  have bytes : (toVec value).toByteArray = (render value).utf8Encode := rfl
  have read := readValue_render value ((render value).length + 1) []
    (Nat.le_succ _) (by simp [NumberEnds])
  rw [List.append_nil] at read
  simp [ofSlice, bytes, List.utf8Decode?_utf8Encode, read]

theorem utf8_injective : Function.Injective utf8 := by
  intro left right same
  have encoded : left.utf8Encode = right.utf8Encode := congrArg List.toByteArray same
  have decoded : left.utf8Encode.utf8Decode? = some left.toArray := List.utf8Decode?_utf8Encode
  rw [encoded, List.utf8Decode?_utf8Encode] at decoded
  exact (List.toArray_inj (Option.some.inj decoded)).symm

theorem toVec_injective : Function.Injective toVec := by
  intro left right same
  have read := ofSlice_toVec left
  rw [same, ofSlice_toVec] at read
  exact (Option.some.inj read).symm

theorem length_le_utf8 (text : List Char) : text.length ≤ (utf8 text).length := by
  induction text with
  | nil => exact Nat.le_refl 0
  | cons c text ih =>
      have atLeast := List.length_pos_of_ne_nil (String.utf8EncodeChar_ne_nil (c := c))
      have unfolded : utf8 (c :: text) = String.utf8EncodeChar c ++ utf8 text := rfl
      rw [unfolded, List.length_cons, List.length_append]
      omega

theorem length_renderMembers {members : List (String × Value)} {name : String} {item : Value}
    (member : (name, item) ∈ members) :
    (render item).length ≤ (renderMembers members).length := by
  induction members with
  | nil => cases member
  | cons head members ih =>
      obtain ⟨headName, headItem⟩ := head
      rw [renderMembers, List.length_cons, List.length_append, List.length_cons,
        List.length_append]
      rcases List.mem_cons.mp member with first | later
      · obtain ⟨rfl, rfl⟩ := Prod.mk.inj first
        omega
      · have shorter := ih later
        omega

theorem length_render_member {members : List (String × Value)} {name : String} {item : Value}
    (member : (name, item) ∈ members) :
    (render item).length ≤ (render (.obj members)).length := by
  have listed := length_renderMembers member
  cases members with
  | nil => cases member
  | cons head members =>
      obtain ⟨headName, headItem⟩ := head
      rw [renderMembers] at listed
      rw [render]
      exact listed

theorem length_renderItems (items : List Value) :
    2 * items.length ≤ (renderItems items).length := by
  induction items with
  | nil => exact Nat.zero_le _
  | cons item items ih =>
      obtain ⟨c, tail, shape, -⟩ := render_head item
      rw [renderItems, shape, List.length_cons, List.length_cons, List.length_append,
        List.length_cons]
      omega

theorem length_render_arr (items : List Value) :
    2 * items.length ≤ (render (.arr items)).length := by
  cases items with
  | nil => exact Nat.zero_le _
  | cons item items =>
      have listed := length_renderItems (item :: items)
      rw [renderItems] at listed
      rw [render]
      exact listed

end Hysj.Json
