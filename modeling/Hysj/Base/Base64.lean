import Mathlib.Tactic.Common

set_option autoImplicit false

/- Base64 with the standard alphabet and padding. The decoder is strict: it wants
the padding and zeros in the bits the padding stands for. -/
namespace Hysj.Base64

/-- The character of a number below 64. -/
def digit (n : Nat) : Char :=
  if n < 26 then Char.ofNat (65 + n)
  else if n < 52 then Char.ofNat (71 + n)
  else if n < 62 then Char.ofNat (n - 4)
  else if n = 62 then '+' else '/'

def value (c : Char) : Option Nat :=
  if 65 ≤ c.toNat ∧ c.toNat ≤ 90 then some (c.toNat - 65)
  else if 97 ≤ c.toNat ∧ c.toNat ≤ 122 then some (c.toNat - 71)
  else if 48 ≤ c.toNat ∧ c.toNat ≤ 57 then some (c.toNat + 4)
  else if c = '+' then some 62
  else if c = '/' then some 63
  else none

/-- Three bytes make four characters. -/
def encodeChars : List UInt8 → List Char
  | [] => []
  | [a] => [digit (a.toNat / 4), digit (a.toNat % 4 * 16), '=', '=']
  | [a, b] =>
      [digit (a.toNat / 4), digit (a.toNat % 4 * 16 + b.toNat / 16),
        digit (b.toNat % 16 * 4), '=']
  | a :: b :: c :: rest =>
      digit (a.toNat / 4) :: digit (a.toNat % 4 * 16 + b.toNat / 16) ::
        digit (b.toNat % 16 * 4 + c.toNat / 64) :: digit (c.toNat % 64) :: encodeChars rest

def decodeChars : List Char → Option (List UInt8)
  | [] => some []
  | [w, x, '=', '='] => do
      let w ← value w
      let x ← value x
      if x % 16 = 0 then some [UInt8.ofNat (w * 4 + x / 16)] else none
  | [w, x, y, '='] => do
      let w ← value w
      let x ← value x
      let y ← value y
      if y % 4 = 0 then
        some [UInt8.ofNat (w * 4 + x / 16), UInt8.ofNat (x % 16 * 16 + y / 4)]
      else none
  | w :: x :: y :: z :: rest => do
      let w ← value w
      let x ← value x
      let y ← value y
      let z ← value z
      let rest ← decodeChars rest
      some (UInt8.ofNat (w * 4 + x / 16) :: UInt8.ofNat (x % 16 * 16 + y / 4) ::
        UInt8.ofNat (y % 4 * 64 + z) :: rest)
  | _ => none

def encode (bytes : List UInt8) : String := String.ofList (encodeChars bytes)

def decode (text : String) : Option (List UInt8) := decodeChars text.toList

theorem value_digit {n : Nat} (small : n < 64) : value (digit n) = some n := by
  revert n
  decide

theorem digit_ne_pad {n : Nat} (small : n < 64) : digit n ≠ '=' := by
  revert n
  decide

theorem ofNat_toNat_eq {a : UInt8} {n : Nat} (same : n = a.toNat) : UInt8.ofNat n = a := by
  rw [same, UInt8.ofNat_toNat]

theorem decodeChars_encodeChars (bytes : List UInt8) :
    decodeChars (encodeChars bytes) = some bytes := by
  induction bytes using encodeChars.induct with
  | case1 => rfl
  | case2 a =>
      have small := a.toNat_lt
      rw [encodeChars, decodeChars, value_digit (by omega), value_digit (by omega)]
      simp only [Option.bind_eq_bind, Option.bind_some]
      rw [if_pos (by omega), ofNat_toNat_eq (a := a) (by omega)]
  | case3 a b =>
      have aSmall := a.toNat_lt
      have bSmall := b.toNat_lt
      have notPad := digit_ne_pad (show b.toNat % 16 * 4 < 64 by omega)
      rw [encodeChars, decodeChars, value_digit (by omega), value_digit (by omega),
        value_digit (by omega)]
      · simp only [Option.bind_eq_bind, Option.bind_some]
        rw [if_pos (by omega), ofNat_toNat_eq (a := a) (by omega),
          ofNat_toNat_eq (a := b) (by omega)]
      · exact notPad
  | case4 a b c rest ih =>
      have aSmall := a.toNat_lt
      have bSmall := b.toNat_lt
      have cSmall := c.toNat_lt
      have notPad := digit_ne_pad (show c.toNat % 64 < 64 by omega)
      rw [encodeChars, decodeChars, value_digit (by omega), value_digit (by omega),
        value_digit (by omega), value_digit (by omega), ih]
      · simp only [Option.bind_eq_bind, Option.bind_some]
        rw [ofNat_toNat_eq (a := a) (by omega), ofNat_toNat_eq (a := b) (by omega),
          ofNat_toNat_eq (a := c) (by omega)]
      · intro _ last _
        exact absurd last notPad
      · intro last _
        exact absurd last notPad

theorem decode_encode (bytes : List UInt8) : decode (encode bytes) = some bytes := by
  rw [decode, encode, String.toList_ofList, decodeChars_encodeChars]

example : encode [104, 105, 33, 63] = "aGkhPw==" := by decide

def urlSafe (c : Char) : Char :=
  if c = '+' then '-' else if c = '/' then '_' else c

/-- `URL_SAFE_NO_PAD` -/
def encodeUrl (bytes : List UInt8) : List Char :=
  ((encodeChars bytes).filter fun c => c ≠ '=').map urlSafe

/-- How many characters a text lacks of the next multiple of four. -/
def lacks (n : Nat) : Nat := (n + 3) / 4 * 4 - n

theorem filter_digit {n : Nat} (small : n < 64) (text : List Char) :
    (digit n :: text).filter (fun c => c ≠ '=') = digit n :: text.filter fun c => c ≠ '=' := by
  apply List.filter_cons_of_pos
  simp [digit_ne_pad small]

theorem filter_append_pad (bytes : List UInt8) :
    ((encodeChars bytes).filter fun c => c ≠ '=') ++
        List.replicate (lacks ((encodeChars bytes).filter fun c => c ≠ '=').length) '=' =
      encodeChars bytes := by
  induction bytes using encodeChars.induct with
  | case1 => rfl
  | case2 a =>
      have small := a.toNat_lt
      rw [encodeChars, filter_digit (by omega), filter_digit (by omega)]
      simp [lacks]
  | case3 a b =>
      have aSmall := a.toNat_lt
      have bSmall := b.toNat_lt
      rw [encodeChars, filter_digit (by omega), filter_digit (by omega), filter_digit (by omega)]
      simp [lacks]
  | case4 a b c rest ih =>
      have aSmall := a.toNat_lt
      have bSmall := b.toNat_lt
      have cSmall := c.toNat_lt
      rw [encodeChars, filter_digit (by omega), filter_digit (by omega), filter_digit (by omega),
        filter_digit (by omega)]
      have four (n : Nat) : lacks (n + 1 + 1 + 1 + 1) = lacks n := by
        unfold lacks
        omega
      simp only [List.length_cons, four, List.cons_append]
      rw [ih]

theorem mem_encodeChars {bytes : List UInt8} {c : Char} (member : c ∈ encodeChars bytes) :
    c = '=' ∨ ∃ n, n < 64 ∧ c = digit n := by
  induction bytes using encodeChars.induct with
  | case1 => cases member
  | case2 a =>
      have small := a.toNat_lt
      simp only [encodeChars, List.mem_cons, List.not_mem_nil, or_false, or_self] at member
      rcases member with same | same | same
      · exact Or.inr ⟨_, by omega, same⟩
      · exact Or.inr ⟨_, by omega, same⟩
      · exact Or.inl same
  | case3 a b =>
      have aSmall := a.toNat_lt
      have bSmall := b.toNat_lt
      simp only [encodeChars, List.mem_cons, List.not_mem_nil, or_false] at member
      rcases member with same | same | same | same
      · exact Or.inr ⟨_, by omega, same⟩
      · exact Or.inr ⟨_, by omega, same⟩
      · exact Or.inr ⟨_, by omega, same⟩
      · exact Or.inl same
  | case4 a b c rest ih =>
      have aSmall := a.toNat_lt
      have bSmall := b.toNat_lt
      have cSmall := c.toNat_lt
      simp only [encodeChars, List.mem_cons] at member
      rcases member with same | same | same | same | later
      · exact Or.inr ⟨_, by omega, same⟩
      · exact Or.inr ⟨_, by omega, same⟩
      · exact Or.inr ⟨_, by omega, same⟩
      · exact Or.inr ⟨_, by omega, same⟩
      · exact ih later

theorem mem_encodeUrl {bytes : List UInt8} {c : Char} (member : c ∈ encodeUrl bytes) :
    ∃ n, n < 64 ∧ c = urlSafe (digit n) := by
  obtain ⟨d, listed, rfl⟩ := List.mem_map.mp member
  obtain ⟨encoded, unpadded⟩ := List.mem_filter.mp listed
  rcases mem_encodeChars encoded with rfl | ⟨n, small, rfl⟩
  · cases unpadded
  · exact ⟨n, small, rfl⟩

/-- None of the characters has a meaning in a URL or in a token. -/
theorem ne_of_mem_encodeUrl {bytes : List UInt8} {c : Char} (member : c ∈ encodeUrl bytes) :
    c ≠ '%' ∧ c ≠ '.' := by
  have none_of_digit : ∀ n < 64, urlSafe (digit n) ≠ '%' ∧ urlSafe (digit n) ≠ '.' := by decide
  obtain ⟨n, small, rfl⟩ := mem_encodeUrl member
  exact none_of_digit n small

end Hysj.Base64

namespace Hysj

/-- The `STANDARD` engine of the `base64` crate. -/
structure Base64Engine where
  encode : List UInt8 → String
  decode : String → Except String (List UInt8)

def Base64Engine.Inverse (b64 : Base64Engine) : Prop :=
  ∀ data, b64.decode (b64.encode data) = .ok data

/-- The standard alphabet with one text for every error. -/
def Base64Engine.sample : Base64Engine where
  encode := Base64.encode
  decode text :=
    match Base64.decode text with
    | some data => .ok data
    | none => .error "Invalid symbol"

theorem Base64Engine.sample_inverse : Base64Engine.sample.Inverse := by
  intro data
  simp only [sample, Base64.decode_encode]

end Hysj
