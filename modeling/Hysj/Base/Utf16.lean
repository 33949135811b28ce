import Mathlib.Data.Nat.Notation

set_option autoImplicit false

/- Texts as sequences of UTF-16 code units, which need not be well formed. -/
namespace Hysj.Utf16

/-- The code units of a character. -/
def encodeChar (c : Char) : List UInt16 :=
  if c.toNat < 0x10000 then [UInt16.ofNat c.toNat]
  else
    [UInt16.ofNat (0xD800 + (c.toNat - 0x10000) / 0x400),
      UInt16.ofNat (0xDC00 + (c.toNat - 0x10000) % 0x400)]

def encode (text : List Char) : List UInt16 := text.flatMap encodeChar

def IsLead (u : UInt16) : Prop := 0xD800 ≤ u.toNat ∧ u.toNat < 0xDC00

def IsTrail (u : UInt16) : Prop := 0xDC00 ≤ u.toNat ∧ u.toNat < 0xE000

instance (u : UInt16) : Decidable (IsLead u) := inferInstanceAs (Decidable (_ ∧ _))

instance (u : UInt16) : Decidable (IsTrail u) := inferInstanceAs (Decidable (_ ∧ _))

/-- A code unit by itself. A surrogate that is not paired counts as U+FFFD. -/
def single (u : UInt16) : Char :=
  if IsLead u ∨ IsTrail u then Char.ofNat 0xFFFD else Char.ofNat u.toNat

/-- The character of two surrogates. -/
def pair (u v : UInt16) : Char :=
  Char.ofNat (0x10000 + (u.toNat - 0xD800) * 0x400 + (v.toNat - 0xDC00))

def decode : List UInt16 → List Char
  | [] => []
  | [u] => [single u]
  | u :: v :: rest =>
      if IsLead u ∧ IsTrail v then pair u v :: decode rest
      else single u :: decode (v :: rest)

/-- No surrogate is unpaired. -/
def WellFormed (text : List UInt16) : Prop := ∃ chars, text = encode chars

theorem decode_cons {u : UInt16} (alone : ¬ IsLead u) (rest : List UInt16) :
    decode (u :: rest) = single u :: decode rest := by
  cases rest with
  | nil => rfl
  | cons v rest => rw [decode, if_neg fun pair => alone pair.1]

theorem encodeChar_cases (c : Char) :
    (∃ u, encodeChar c = [u] ∧ ¬ IsLead u ∧ ¬ IsTrail u ∧ Char.ofNat u.toNat = c) ∨
    ∃ u v, encodeChar c = [u, v] ∧ IsLead u ∧ IsTrail v ∧ pair u v = c := by
  have valid : c.toNat < 0xD800 ∨ 0xDFFF < c.toNat ∧ c.toNat < 0x110000 := c.valid
  unfold encodeChar
  split
  · rename_i small
    have units : (UInt16.ofNat c.toNat).toNat = c.toNat := by
      rw [UInt16.toNat_ofNat']
      omega
    refine Or.inl ⟨_, rfl, ?_, ?_, ?_⟩
    · unfold IsLead
      omega
    · unfold IsTrail
      omega
    · rw [units, Char.ofNat_toNat]
  · rename_i large
    have lead : (UInt16.ofNat (0xD800 + (c.toNat - 0x10000) / 0x400)).toNat =
        0xD800 + (c.toNat - 0x10000) / 0x400 := by
      rw [UInt16.toNat_ofNat']
      omega
    have trail : (UInt16.ofNat (0xDC00 + (c.toNat - 0x10000) % 0x400)).toNat =
        0xDC00 + (c.toNat - 0x10000) % 0x400 := by
      rw [UInt16.toNat_ofNat']
      omega
    have whole : 0x10000 + (0xD800 + (c.toNat - 0x10000) / 0x400 - 0xD800) * 0x400 +
        (0xDC00 + (c.toNat - 0x10000) % 0x400 - 0xDC00) = c.toNat := by omega
    refine Or.inr ⟨_, _, rfl, ?_, ?_, ?_⟩
    · unfold IsLead
      omega
    · unfold IsTrail
      omega
    · rw [pair, lead, trail, whole, Char.ofNat_toNat]

theorem decode_encodeChar (c : Char) (rest : List UInt16) :
    decode (encodeChar c ++ rest) = c :: decode rest := by
  rcases encodeChar_cases c with ⟨u, units, notLead, notTrail, is⟩ | ⟨u, v, units, lead, trail, is⟩
  · rw [units, List.singleton_append, decode_cons notLead, single,
      if_neg (not_or.mpr ⟨notLead, notTrail⟩), is]
  · rw [units, List.cons_append, List.cons_append, List.nil_append, decode,
      if_pos ⟨lead, trail⟩, is]

theorem decode_encode (text : List Char) : decode (encode text) = text := by
  induction text with
  | nil => rfl
  | cons c text ih =>
      rw [encode, List.flatMap_cons, decode_encodeChar]
      exact congrArg _ ih

theorem encode_decode {text : List UInt16} (wellFormed : WellFormed text) :
    encode (decode text) = text := by
  obtain ⟨chars, rfl⟩ := wellFormed
  rw [decode_encode]

theorem toNat_ofNat {n : Nat} (valid : n.isValidChar) : (Char.ofNat n).toNat = n := by
  rw [Char.ofNat, dif_pos valid]
  rfl

theorem encodeChar_single {u : UInt16} (alone : ¬ (IsLead u ∨ IsTrail u)) :
    encodeChar (Char.ofNat u.toNat) = [u] := by
  have small := u.toNat_lt
  have valid : u.toNat.isValidChar := by
    unfold IsLead IsTrail at alone
    unfold Nat.isValidChar
    omega
  rw [encodeChar, toNat_ofNat valid, if_pos (by omega), UInt16.ofNat_toNat]

theorem encodeChar_pair {u v : UInt16} (lead : IsLead u) (trail : IsTrail v) :
    encodeChar (pair u v) = [u, v] := by
  unfold IsLead at lead
  unfold IsTrail at trail
  have valid : (0x10000 + (u.toNat - 0xD800) * 0x400 + (v.toNat - 0xDC00)).isValidChar := by
    unfold Nat.isValidChar
    omega
  have high : 0xD800 + (0x10000 + (u.toNat - 0xD800) * 0x400 + (v.toNat - 0xDC00) - 0x10000) /
      0x400 = u.toNat := by omega
  have low : 0xDC00 + (0x10000 + (u.toNat - 0xD800) * 0x400 + (v.toNat - 0xDC00) - 0x10000) %
      0x400 = v.toNat := by omega
  rw [encodeChar, pair, toNat_ofNat valid, if_neg (by omega), high, low, UInt16.ofNat_toNat,
    UInt16.ofNat_toNat]

/-- A surrogate that makes up no character with the code unit after it. -/
def Unpaired (u : UInt16) (rest : List UInt16) : Prop :=
  (IsLead u ∨ IsTrail u) ∧ ∀ v ∈ rest.head?, ¬ (IsLead u ∧ IsTrail v)

/-- Some surrogate is unpaired, the first of them after characters. -/
def Broken (text : List UInt16) : Prop :=
  ∃ chars u rest, text = encode chars ++ u :: rest ∧ Unpaired u rest

theorem wellFormed_cons {c : Char} {text : List UInt16} (wellFormed : WellFormed text) :
    WellFormed (encodeChar c ++ text) := by
  obtain ⟨chars, rfl⟩ := wellFormed
  exact ⟨c :: chars, rfl⟩

theorem broken_cons {c : Char} {text : List UInt16} (broken : Broken text) :
    Broken (encodeChar c ++ text) := by
  obtain ⟨chars, u, rest, rfl, unpaired⟩ := broken
  exact ⟨c :: chars, u, rest, (List.append_assoc _ _ _).symm, unpaired⟩

theorem wellFormed_or_broken (text : List UInt16) : WellFormed text ∨ Broken text := by
  induction text using decode.induct with
  | case1 => exact Or.inl ⟨[], rfl⟩
  | case2 u =>
      by_cases surrogate : IsLead u ∨ IsTrail u
      · exact Or.inr ⟨[], u, [], rfl, surrogate, fun v member => by cases member⟩
      · have whole : WellFormed (encodeChar (Char.ofNat u.toNat) ++ []) :=
          wellFormed_cons ⟨[], rfl⟩
        rw [encodeChar_single surrogate] at whole
        exact Or.inl whole
  | case3 u v rest paired ih =>
      have units := encodeChar_pair paired.1 paired.2
      have shape : u :: v :: rest = encodeChar (pair u v) ++ rest := by
        rw [units]
        rfl
      rw [shape]
      exact ih.imp wellFormed_cons broken_cons
  | case4 u v rest notPaired ih =>
      by_cases surrogate : IsLead u ∨ IsTrail u
      · refine Or.inr ⟨[], u, v :: rest, rfl, surrogate, ?_⟩
        intro w member
        obtain rfl := Option.some.inj member
        exact notPaired
      · have shape : u :: v :: rest = encodeChar (Char.ofNat u.toNat) ++ v :: rest := by
          rw [encodeChar_single surrogate]
          rfl
        rw [shape]
        exact ih.imp wellFormed_cons broken_cons

end Hysj.Utf16
