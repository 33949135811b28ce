import Hysj.Shared.Types

set_option autoImplicit false

/- The texts of identifiers. -/
namespace Hysj.Shared.Uuid

open Json (hexChar)

/-- The value of a hexadecimal digit of either case. -/
def digit (c : Char) : Option Nat := Json.hexValue c.toLower

def readBytes : List Char → Option (List UInt8)
  | [] => some []
  | high :: low :: rest => do
      let h ← digit high
      let l ← digit low
      let bytes ← readBytes rest
      some (UInt8.ofNat (16 * h + l) :: bytes)
  | [_] => none

/-- Thirty-two digits. -/
def parseSimple (text : List Char) : Option Uuid := do
  let bytes ← readBytes text
  Crypto.tryInto 16 bytes

/-- Five groups of digits with hyphens between them. -/
def parseHyphenated (text : List Char) : Option Uuid :=
  if text[8]? = some '-' ∧ text[13]? = some '-' ∧ text[18]? = some '-' ∧ text[23]? = some '-' then
    parseSimple (text.take 8 ++ (text.drop 9).take 4 ++ (text.drop 14).take 4 ++
      (text.drop 19).take 4 ++ text.drop 24)
  else none

/-- `Uuid::parse_str`: the digits alone, hyphenated, in braces, or as a URN. -/
def parseStr (text : String) : Option Uuid :=
  let chars := text.toList
  if chars.length = 32 then parseSimple chars
  else if chars.length = 36 then parseHyphenated chars
  else if chars.length = 38 ∧ chars.head? = some '{' ∧ chars.getLast? = some '}' then
    parseHyphenated chars.tail.dropLast
  else if chars.length = 45 ∧ chars.take 9 = ['u', 'r', 'n', ':', 'u', 'u', 'i', 'd', ':'] then
    parseHyphenated (chars.drop 9)
  else none

theorem digit_hexChar (n : Nat) (small : n < 16) : digit (hexChar n) = some n := by
  have all : ∀ m < 16, digit (hexChar m) = some m := by decide
  exact all n small

/-- The digits of a byte string, two a byte. -/
def digits (bytes : List UInt8) : List Char :=
  bytes.flatMap fun b => [hexChar (b.toNat / 16), hexChar (b.toNat % 16)]

theorem readBytes_digits (bytes : List UInt8) : readBytes (digits bytes) = some bytes := by
  induction bytes with
  | nil => rfl
  | cons b bytes ih =>
      have small := b.toNat_lt
      have high := digit_hexChar (b.toNat / 16) (by omega)
      have low := digit_hexChar (b.toNat % 16) (by omega)
      have value : UInt8.ofNat (16 * (b.toNat / 16) + b.toNat % 16) = b := by
        rw [Nat.div_add_mod, UInt8.ofNat_toNat]
      change readBytes (hexChar (b.toNat / 16) :: hexChar (b.toNat % 16) :: digits bytes) = _
      simp only [readBytes, high, low, ih, value, Option.bind_eq_bind, Option.bind_some]

theorem toList_display (id : Uuid) : id.display.toList =
    digits (id.toList.take 4) ++ '-' :: digits ((id.toList.drop 4).take 2) ++
      '-' :: digits ((id.toList.drop 6).take 2) ++ '-' :: digits ((id.toList.drop 8).take 2) ++
      '-' :: digits ((id.toList.drop 10).take 6) := String.toList_ofList

theorem length_digits (bytes : List UInt8) : (digits bytes).length = 2 * bytes.length := by
  simp [digits, Nat.mul_comm]

@[simp] theorem length_display (id : Uuid) : id.display.toList.length = 36 := by
  simp [toList_display, length_digits]

theorem parseHyphenated_groups {a b c d e : List Char} (la : a.length = 8) (lb : b.length = 4)
    (lc : c.length = 4) (ld : d.length = 4) :
    parseHyphenated (a ++ '-' :: b ++ '-' :: c ++ '-' :: d ++ '-' :: e) =
      parseSimple (a ++ b ++ c ++ d ++ e) := by
  simp [parseHyphenated, List.getElem?_append, List.drop_append,
    List.drop_of_length_le, la, lb, lc, ld]

@[simp] theorem parseStr_display (id : Uuid) : parseStr id.display = some id := by
  have long := length_display id
  have hyphenated : parseStr id.display = parseHyphenated id.display.toList := by
    simp only [parseStr, long, Nat.reduceEqDiff, ↓reduceIte]
  have split (first count : Nat) : (id.toList.drop first).take count ++
      id.toList.drop (first + count) = id.toList.drop first := by
    rw [← List.drop_drop, List.take_append_drop]
  have pieces : id.toList.take 4 ++ (id.toList.drop 4).take 2 ++ (id.toList.drop 6).take 2 ++
      (id.toList.drop 8).take 2 ++ (id.toList.drop 10).take 6 = id.toList := by
    have last : (id.toList.drop 10).take 6 = id.toList.drop 10 :=
      List.take_of_length_le (by simp)
    simp only [List.append_assoc]
    rw [last, split 8 2, split 6 2, split 4 2, List.take_append_drop]
  have grouped := congrArg digits pieces
  simp only [digits, List.flatMap_append] at grouped
  have simple : parseHyphenated id.display.toList = parseSimple (digits id.toList) := by
    rw [toList_display, parseHyphenated_groups]
    · exact congrArg parseSimple grouped
    all_goals simp [length_digits]
  rw [hyphenated, simple, parseSimple, readBytes_digits]
  exact Crypto.tryInto_toList 16 id

theorem display_injective : Function.Injective display := by
  intro left right same
  have read := parseStr_display left
  rw [same, parseStr_display] at read
  exact (Option.some.inj read).symm

end Hysj.Shared.Uuid
