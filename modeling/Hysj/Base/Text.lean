import Mathlib.Data.List.Basic
import Mathlib.Data.String.Basic
import Mathlib.Tactic.Common

set_option autoImplicit false

/- Texts cut at byte offsets of their UTF-8, and unsigned numbers read from texts. -/
namespace Hysj.Text

/-- `str::len` -/
def byteSize : List Char → Nat
  | [] => 0
  | c :: text => c.utf8Size + byteSize text

/-- `str::split_at`; `none` is the panic of an offset inside a character or past the end. -/
def splitAt : List Char → Nat → Option (List Char × List Char)
  | text, 0 => some ([], text)
  | [], _ + 1 => none
  | c :: text, n + 1 =>
      if c.utf8Size ≤ n + 1 then
        (splitAt text (n + 1 - c.utf8Size)).map fun cut => (c :: cut.1, cut.2)
      else none

/-- `&text[first..last]` -/
def slice (text : List Char) (first last : Nat) : Option (List Char) := do
  let (_, rest) ← splitAt text first
  if first ≤ last then
    let (part, _) ← splitAt rest (last - first)
    some part
  else none

/-- `std::num::IntErrorKind`, as far as an unsigned number can fail to be read. -/
inductive IntErrorKind where
  | empty
  | invalidDigit
  | posOverflow

def IntErrorKind.display : IntErrorKind → String
  | .empty => "cannot parse integer from empty string"
  | .invalidDigit => "invalid digit found in string"
  | .posOverflow => "number too large to fit in target type"

/-- The value of a letter or a numeral as a digit of a large enough radix. -/
def digitValue (c : Char) : Option Nat :=
  if '0' ≤ c ∧ c ≤ '9' then some (c.toNat - '0'.toNat)
  else if 'a' ≤ c ∧ c ≤ 'z' then some (c.toNat - 'a'.toNat + 10)
  else if 'A' ≤ c ∧ c ≤ 'Z' then some (c.toNat - 'A'.toNat + 10)
  else none

/-- `char::to_digit` -/
def toDigit (radix : Nat) (c : Char) : Option Nat :=
  (digitValue c).filter fun value => value < radix

/-- Digits that continue a number. -/
def readDigits (greatest radix : Nat) : Nat → List Char → Except IntErrorKind Nat
  | number, [] => .ok number
  | number, c :: text =>
      match toDigit radix c with
      | none => .error .invalidDigit
      | some digit =>
          if greatest < number * radix + digit then .error .posOverflow
          else readDigits greatest radix (number * radix + digit) text

/-- `from_str_radix` of an unsigned type; there may be a plus sign before the digits. -/
def fromStrRadix (greatest radix : Nat) : List Char → Except IntErrorKind Nat
  | [] => .error .empty
  | ['+'] => .error .invalidDigit
  | ['-'] => .error .invalidDigit
  | '+' :: text => readDigits greatest radix 0 text
  | text => readDigits greatest radix 0 text

/-- `u8::from_str_radix` -/
def u8FromStrRadix (text : List Char) (radix : Nat) : Except IntErrorKind UInt8 :=
  (fromStrRadix 255 radix text).map UInt8.ofNat

theorem byteSize_append (text later : List Char) :
    byteSize (text ++ later) = byteSize text + byteSize later := by
  induction text with
  | nil => simp [byteSize]
  | cons c text ih =>
      simp only [List.cons_append, byteSize, ih]
      omega

theorem byteSize_eq_zero {text : List Char} : byteSize text = 0 ↔ text = [] := by
  cases text with
  | nil => simp [byteSize]
  | cons c text =>
      have positive := c.utf8Size_pos
      simp only [byteSize, reduceCtorEq, iff_false]
      omega

theorem byteSize_ofList (text : List Char) : (String.ofList text).utf8ByteSize = byteSize text := by
  induction text with
  | nil => rfl
  | cons c text ih =>
      have split : String.ofList (c :: text) = String.singleton c ++ String.ofList text := by
        apply String.toList_injective
        simp
      rw [split, String.utf8ByteSize_append, String.utf8ByteSize_singleton, ih, byteSize]

theorem byteSize_toList (text : String) : byteSize text.toList = text.utf8ByteSize := by
  rw [← byteSize_ofList, String.ofList_toList]

theorem splitAt_zero (text : List Char) : splitAt text 0 = some ([], text) := by
  cases text with
  | nil => rfl
  | cons c text => rfl

theorem splitAt_cons_of_le {c : Char} {n : Nat} (fits : c.utf8Size ≤ n) (text : List Char) :
    splitAt (c :: text) n = (splitAt text (n - c.utf8Size)).map fun cut => (c :: cut.1, cut.2) := by
  have positive := c.utf8Size_pos
  cases n with
  | zero => omega
  | succ n => rw [splitAt, if_pos fits]

theorem splitAt_cons_of_lt {c : Char} {n : Nat} (positive : 0 < n) (large : n < c.utf8Size)
    (text : List Char) : splitAt (c :: text) n = none := by
  cases n with
  | zero => omega
  | succ n => rw [splitAt, if_neg (Nat.not_le_of_lt large)]

theorem splitAt_append (first second : List Char) :
    splitAt (first ++ second) (byteSize first) = some (first, second) := by
  induction first with
  | nil => exact splitAt_zero second
  | cons c first ih =>
      rw [List.cons_append, byteSize, splitAt_cons_of_le (Nat.le_add_right _ _),
        Nat.add_sub_cancel_left, ih]
      rfl

theorem of_splitAt {text first second : List Char} {n : Nat}
    (cut : splitAt text n = some (first, second)) :
    text = first ++ second ∧ byteSize first = n := by
  induction text generalizing n first with
  | nil =>
      cases n with
      | zero =>
          rw [splitAt_zero] at cut
          cases cut
          exact ⟨rfl, rfl⟩
      | succ n => cases cut
  | cons c text ih =>
      by_cases start : n = 0
      · rw [start, splitAt_zero] at cut
        cases cut
        exact ⟨rfl, start.symm⟩
      · by_cases fits : c.utf8Size ≤ n
        · rw [splitAt_cons_of_le fits, Option.map_eq_some_iff] at cut
          obtain ⟨⟨front, rest⟩, inner, same⟩ := cut
          cases same
          obtain ⟨split, size⟩ := ih inner
          rw [split, byteSize, size]
          exact ⟨rfl, by omega⟩
        · rw [splitAt_cons_of_lt (by omega) (by omega)] at cut
          cases cut

theorem splitAt_eq_some {text first second : List Char} {n : Nat} :
    splitAt text n = some (first, second) ↔ text = first ++ second ∧ byteSize first = n := by
  constructor
  · exact of_splitAt
  · rintro ⟨rfl, rfl⟩
    exact splitAt_append first second

/-- A slice that begins where some characters end is cut from the rest. -/
theorem slice_append (front rest : List Char) (n : Nat) :
    slice (front ++ rest) (byteSize front)
    (byteSize front + n) = (splitAt rest n).map Prod.fst := by
  rw [slice, splitAt_append]
  simp only [Option.bind_eq_bind, Option.bind_some, Nat.le_add_right, if_true,
    Nat.add_sub_cancel_left]
  cases splitAt rest n with
  | none => rfl
  | some cut => rfl

theorem toDigit_lt {radix value : Nat} {c : Char} (is : toDigit radix c = some value) :
    value < radix := by
  rw [toDigit, Option.filter_eq_some_iff] at is
  exact of_decide_eq_true is.2

theorem toNat_of_digitValue {value : Nat} {c : Char} (is : digitValue c = some value) :
    c.toNat < 128 := by
  have below {last : Char} (small : last.toNat < 128) (le : c ≤ last) : c.toNat < 128 :=
    Nat.lt_of_le_of_lt (UInt32.le_iff_toNat_le.mp (Char.le_def.mp le)) small
  unfold digitValue at is
  split at is
  · rename_i within
    exact below (by decide) within.2
  · split at is
    · rename_i within
      exact below (by decide) within.2
    · split at is
      · rename_i within
        exact below (by decide) within.2
      · cases is

theorem toNat_of_toDigit {radix value : Nat} {c : Char} (is : toDigit radix c = some value) :
    c.toNat < 128 := by
  rw [toDigit, Option.filter_eq_some_iff] at is
  exact toNat_of_digitValue is.1

theorem utf8Size_eq_one_iff_toNat {c : Char} : c.utf8Size = 1 ↔ c.toNat < 128 := by
  rw [Char.utf8Size_eq_one_iff, UInt32.le_iff_toNat_le]
  exact Nat.lt_succ_iff.symm

theorem byteSize_eq_two {text : List Char} (two : byteSize text = 2) :
    (∃ c, text = [c] ∧ c.utf8Size = 2) ∨
      ∃ c d, text = [c, d] ∧ c.utf8Size = 1 ∧ d.utf8Size = 1 := by
  cases text with
  | nil => cases two
  | cons c text =>
      have positive := c.utf8Size_pos
      cases text with
      | nil => exact Or.inl ⟨c, rfl, two⟩
      | cons d text =>
          have positive' := d.utf8Size_pos
          cases text with
          | nil =>
              simp only [byteSize] at two
              exact Or.inr ⟨c, d, rfl, by omega, by omega⟩
          | cons e text =>
              have positive'' := e.utf8Size_pos
              simp only [byteSize] at two
              omega

variable {greatest radix : Nat}

theorem fromStrRadix_plus (c : Char) (text : List Char) :
    fromStrRadix greatest radix ('+' :: c :: text) = readDigits greatest radix 0 (c :: text) := rfl

theorem fromStrRadix_of_ne {c : Char} (other : c ≠ '+') (text : List Char) :
    fromStrRadix greatest radix (c :: text) = readDigits greatest radix 0 (c :: text) := by
  unfold fromStrRadix
  split
  · rename_i same
    cases same
  · rename_i same
    cases same
    exact absurd rfl other
  · rename_i same
    cases same
    have none : toDigit radix '-' = none := rfl
    rw [readDigits, none]
  · rename_i same
    cases same
    exact absurd rfl other
  · rfl

theorem readDigits_cons_of_le {number value : Nat} {c : Char} (is : toDigit radix c = some value)
    (fits : number * radix + value ≤ greatest) (text : List Char) :
    readDigits greatest radix number (c :: text) =
      readDigits greatest radix (number * radix + value) text := by
  rw [readDigits, is]
  exact if_neg (Nat.not_lt_of_le fits)

theorem of_readDigits_cons {number result : Nat} {c : Char} {text : List Char}
    (read : readDigits greatest radix number (c :: text) = .ok result) :
    ∃ value, toDigit radix c = some value ∧
      readDigits greatest radix (number * radix + value) text = .ok result := by
  rw [readDigits] at read
  cases is : toDigit radix c with
  | none =>
      rw [is] at read
      cases read
  | some value =>
      rw [is] at read
      dsimp only at read
      split at read
      · cases read
      · exact ⟨value, rfl, read⟩

section

open String

/-- The characters `m` have been passed since the last cut. -/
theorem splitOnAux_of_valid (c : Char) (l m r : List Char) (acc : List String) :
    splitOnAux (ofList (l ++ m ++ r)) (ofList [c]) ⟨utf8Len l⟩ ⟨utf8Len l + utf8Len m⟩ 0 acc =
      acc.reverse ++ (List.splitOnPPrepend (fun d => d == c) r m.reverse).map ofList := by
  have sepNext : Pos.Raw.next (ofList [c]) 0 = ⟨c.utf8Size⟩ := by
    simpa using next_of_valid [] c []
  have sepGet : Pos.Raw.get (ofList [c]) 0 = c := by
    simpa using get_of_valid [] [c]
  have sepEnd : Pos.Raw.atEnd (ofList [c]) ⟨c.utf8Size⟩ = true := by
    rw [atEnd_iff, rawEndPos_ofList]
    simp
  rw [splitOnAux]
  cases r with
  | nil =>
      have ended : Pos.Raw.atEnd (ofList (l ++ m ++ [])) ⟨utf8Len l + utf8Len m⟩ = true := by
        rw [atEnd_iff, rawEndPos_ofList]
        simp
      rw [if_pos ended, extract_of_valid]
      simp
  | cons d r =>
      have size := d.utf8Size_pos
      have more : ¬ Pos.Raw.atEnd (ofList (l ++ m ++ d :: r)) ⟨utf8Len l + utf8Len m⟩ = true := by
        rw [atEnd_iff, rawEndPos_ofList]
        simp
        omega
      have get : Pos.Raw.get (ofList (l ++ m ++ d :: r)) ⟨utf8Len l + utf8Len m⟩ = d := by
        have got := get_of_valid (l ++ m) (d :: r)
        rw [utf8Len_append] at got
        exact got
      have next : Pos.Raw.next (ofList (l ++ m ++ d :: r)) ⟨utf8Len l + utf8Len m⟩ =
          ⟨utf8Len l + utf8Len m + d.utf8Size⟩ := by
        have went := next_of_valid (l ++ m) d r
        rw [utf8Len_append] at went
        exact went
      have whole : l ++ m ++ d :: r = l ++ m ++ [d] ++ r := by simp
      rw [if_neg more, get, sepGet]
      by_cases same : d = c
      · subst same
        rw [if_pos (beq_self_eq_true _), next, sepNext]
        dsimp only
        rw [if_pos sepEnd]
        have back : (⟨utf8Len l + utf8Len m + d.utf8Size⟩ : Pos.Raw).unoffsetBy ⟨d.utf8Size⟩ =
            ⟨utf8Len l + utf8Len m⟩ := by
          simp [Pos.Raw.unoffsetBy]
        rw [back, extract_of_valid, List.splitOnPPrepend_cons_eq_if, if_pos (beq_self_eq_true _)]
        have ih := splitOnAux_of_valid d (l ++ m ++ [d]) [] r (ofList m :: acc)
        rw [List.append_nil, ← whole] at ih
        simp only [utf8Len_append, utf8Len_cons, utf8Len_nil, Nat.zero_add, Nat.add_zero] at ih
        rw [ih]
        simp
      · rw [if_neg (by simpa using same), List.splitOnPPrepend_cons_eq_if,
          if_neg (by simpa using same)]
        have ih := splitOnAux_of_valid c l (m ++ [d]) r acc
        have back : (⟨utf8Len l + utf8Len m⟩ : Pos.Raw).unoffsetBy 0 = ⟨utf8Len l + utf8Len m⟩ := by
          simp [Pos.Raw.unoffsetBy]
        rw [back, next]
        rw [← List.append_assoc, ← whole] at ih
        simp only [utf8Len_append, utf8Len_cons, utf8Len_nil, Nat.zero_add, ← Nat.add_assoc] at ih
        rw [ih]
        simp
termination_by r.length

theorem splitOn_eq_splitOnP (c : Char) (text : List Char) :
    (ofList text).splitOn (ofList [c]) = (text.splitOnP fun d => d == c).map ofList := by
  have nonempty : ¬ (ofList [c] == "") = true := by
    simp
  rw [splitOn, if_neg nonempty]
  have all := splitOnAux_of_valid c [] [] text []
  simpa using all

theorem splitOn_append_cons {c : Char} {text : List Char} (without : ∀ d ∈ text, d ≠ c)
    (rest : List Char) : (ofList (text ++ c :: rest)).splitOn (ofList [c]) =
      ofList text :: (ofList rest).splitOn (ofList [c]) := by
  have first : ∀ d ∈ text, (fun d => d == c) d = false := by simpa using without
  rw [splitOn_eq_splitOnP, splitOn_eq_splitOnP,
    List.splitOnP_append_cons_of_forall_mem first c (beq_self_eq_true c)]
  rfl

theorem splitOn_of_ne {c : Char} {text : List Char} (without : ∀ d ∈ text, d ≠ c) :
    (ofList text).splitOn (ofList [c]) = [ofList text] := by
  have whole : ∀ d ∈ text, (fun d => d == c) d = false := by simpa using without
  rw [splitOn_eq_splitOnP, List.splitOnP_eq_singleton whole]
  rfl

end

end Hysj.Text
