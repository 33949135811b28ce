import Mathlib.Algebra.GroupWithZero.Nat
import Hysj.Base.Serde

set_option autoImplicit false

/- How many bytes the compact text of a value takes. -/
namespace Hysj.Json

@[simp] theorem length_utf8_nil : (utf8 []).length = 0 := rfl

@[simp] theorem length_utf8_cons (c : Char) (text : List Char) :
    (utf8 (c :: text)).length = c.utf8Size + (utf8 text).length := by
  simp [utf8]

@[simp] theorem length_utf8_append (text later : List Char) :
    (utf8 (text ++ later)).length = (utf8 text).length + (utf8 later).length := by
  simp [utf8]

theorem length_utf8_of_ascii {text : List Char} (ascii : ∀ c ∈ text, c.utf8Size = 1) :
    (utf8 text).length = text.length := by
  induction text with
  | nil => rfl
  | cons c text ih =>
      rw [List.forall_mem_cons] at ascii
      rw [length_utf8_cons, List.length_cons, ascii.1, ih ascii.2]
      omega

/-- Every character of the string stands for itself. -/
def Unescaped (s : String) : Prop := ∀ c ∈ s.toList, escapeChar c = [c]

instance (s : String) : Decidable (Unescaped s) :=
  List.decidableBAll (fun c => escapeChar c = [c]) s.toList

theorem length_renderString {s : String} (plain : Unescaped s) :
    (utf8 (renderString s)).length = (utf8 s.toList).length + 2 := by
  have same : s.toList.flatMap escapeChar = s.toList := by
    rw [List.flatMap_congr plain, List.flatMap_singleton']
  have quote : quoteChar.utf8Size = 1 := rfl
  simp only [renderString, same, length_utf8_cons, length_utf8_append, length_utf8_nil, quote]
  omega

/-- The digits of a byte. -/
def decimals (b : UInt8) : Nat := if b.toNat < 10 then 1 else if b.toNat < 100 then 2 else 3

/-- The digits of all bytes. -/
def digits (data : List UInt8) : Nat := (data.map decimals).sum

theorem length_renderInt (b : UInt8) : (utf8 (renderInt b.toNat)).length = decimals b := by
  have text : renderInt b.toNat = Nat.toDigits 10 b.toNat := rfl
  have ascii : ∀ c ∈ Nat.toDigits 10 b.toNat, c.utf8Size = 1 := by
    intro c member
    have digit := Nat.isDigit_of_mem_toDigits (by decide) (by decide) member
    rw [Char.utf8Size_eq_one_iff]
    simp only [Char.isDigit, Bool.and_eq_true, decide_eq_true_eq] at digit
    have bound : c.val.toNat ≤ 57 := digit.2
    show c.val.toNat ≤ 127
    omega
  rw [text, length_utf8_of_ascii ascii]
  have small := b.toNat_lt
  have positive : 0 < (Nat.toDigits 10 b.toNat).length := Nat.length_toDigits_pos
  have one : (Nat.toDigits 10 b.toNat).length ≤ 1 ↔ b.toNat < 10 ^ 1 :=
    Nat.length_toDigits_le_iff (by decide) (by decide)
  have two : (Nat.toDigits 10 b.toNat).length ≤ 2 ↔ b.toNat < 10 ^ 2 :=
    Nat.length_toDigits_le_iff (by decide) (by decide)
  have three : (Nat.toDigits 10 b.toNat).length ≤ 3 ↔ b.toNat < 10 ^ 3 :=
    Nat.length_toDigits_le_iff (by decide) (by decide)
  unfold decimals
  split
  · omega
  · split <;> omega

theorem length_renderItems_bytes (data : List UInt8) :
    (utf8 (renderItems (data.map fun b => .num b.toNat))).length =
    digits data + data.length + 1 := by
  induction data with
  | nil => rfl
  | cons b data ih =>
      have comma : (',').utf8Size = 1 := rfl
      simp only [List.map_cons, renderItems, render, length_utf8_cons, length_utf8_append, comma,
        length_renderInt, ih, digits, List.sum_cons, List.length_cons]
      omega

/-- A byte vector takes its digits, and a frame that depends on its length only. -/
theorem length_render_bytes (data : List UInt8) :
    (utf8 (render (Serde.bytes data))).length = digits data + max data.length 1 + 1 := by
  cases data with
  | nil => rfl
  | cons b data =>
      have bracket : ('[').utf8Size = 1 := rfl
      have rest := length_renderItems_bytes data
      simp only [Serde.bytes, List.map_cons, render, length_utf8_cons, length_utf8_append, bracket,
        length_renderInt, rest, digits, List.sum_cons, List.length_cons]
      omega

end Hysj.Json
