import Mathlib.Data.Nat.Notation

set_option autoImplicit false

/- Bytes read as UTF-8. -/
namespace Hysj.Utf8

/-- A character that has begun: its bits so far, how many bytes it still owes, and the least
and the greatest that the next may be. -/
structure Begun where
  bits : Nat
  owed : Nat
  least : Nat
  greatest : Nat

/-- A byte that stands first in a character. `none` stands for bytes that are no character. -/
def first (b : UInt8) : List (Option Char) × Option Begun :=
  let n := b.toNat
  if n < 128 then ([some (Char.ofNat n)], none)
  else if 194 ≤ n ∧ n ≤ 223 then ([], some ⟨n - 192, 1, 128, 191⟩)
  else if n = 224 then ([], some ⟨0, 2, 160, 191⟩)
  else if n = 237 then ([], some ⟨13, 2, 128, 159⟩)
  else if 225 ≤ n ∧ n ≤ 239 then ([], some ⟨n - 224, 2, 128, 191⟩)
  else if n = 240 then ([], some ⟨0, 3, 144, 191⟩)
  else if 241 ≤ n ∧ n ≤ 243 then ([], some ⟨n - 240, 3, 128, 191⟩)
  else if n = 244 then ([], some ⟨4, 3, 128, 143⟩)
  else ([none], none)

/-- The characters, with one `none` for each longest piece that begins no character. -/
def decode : Option Begun → List UInt8 → List (Option Char)
  | none, [] => []
  | some _, [] => [none]
  | none, b :: rest => (first b).1 ++ decode (first b).2 rest
  | some begun, b :: rest =>
      if begun.least ≤ b.toNat ∧ b.toNat ≤ begun.greatest then
        let bits := begun.bits * 64 + (b.toNat - 128)
        if begun.owed = 1 then some (Char.ofNat bits) :: decode none rest
        else decode (some ⟨bits, begun.owed - 1, 128, 191⟩) rest
      else none :: (first b).1 ++ decode (first b).2 rest

/-- `String::from_utf8` -/
def fromUtf8 (bytes : List UInt8) : Option String :=
  ((decode none bytes).mapM id).map String.ofList

/-- `String::from_utf8_lossy` puts U+FFFD where there is no character. -/
def fromUtf8Lossy (bytes : List UInt8) : String :=
  String.ofList ((decode none bytes).map fun c => c.getD (Char.ofNat 65533))

theorem decode_first {b : UInt8} {begun : Begun} (begins : first b = ([], some begun))
    (rest : List UInt8) : decode none (b :: rest) = decode (some begun) rest := by
  rw [decode, begins]
  rfl

theorem decode_next {bits owed least greatest : Nat} {b : UInt8}
    (inside : least ≤ b.toNat ∧ b.toNat ≤ greatest) (more : owed ≠ 1) (rest : List UInt8) :
    decode (some ⟨bits, owed, least, greatest⟩) (b :: rest) =
      decode (some ⟨bits * 64 + (b.toNat - 128), owed - 1, 128, 191⟩) rest := by
  rw [decode, if_pos inside]
  exact if_neg more

theorem decode_last {bits least greatest : Nat} {b : UInt8}
    (inside : least ≤ b.toNat ∧ b.toNat ≤ greatest) (rest : List UInt8) :
    decode (some ⟨bits, 1, least, greatest⟩) (b :: rest) =
      some (Char.ofNat (bits * 64 + (b.toNat - 128))) :: decode none rest := by
  rw [decode, if_pos inside]
  exact if_pos rfl

/-- The bytes of a character are read as it, whatever comes after them. -/
theorem decode_utf8EncodeChar (c : Char) (rest : List UInt8) :
    decode none (String.utf8EncodeChar c ++ rest) = some c :: decode none rest := by
  have valid : c.toNat < 0xD800 ∨ 0xDFFF < c.toNat ∧ c.toNat < 0x110000 := c.valid
  have back : Char.ofNat c.toNat = c := Char.ofNat_toNat c
  have byte {n : Nat} (small : n < 256) : (UInt8.ofNat n).toNat = n :=
    UInt8.toNat_ofNat_of_lt small
  unfold String.utf8EncodeChar
  simp only [Char.toNat] at valid back
  generalize c.val.toNat = v at *
  dsimp only
  split
  · rename_i one
    have low : (UInt8.ofNat v).toNat = v := byte (by omega)
    have begins : first (UInt8.ofNat v) = ([some c], none) := by
      rw [first, low, if_pos (by omega), back]
    rw [List.singleton_append, decode, begins]
    rfl
  · split
    · rename_i two
      have lead := byte (show v / 64 % 32 + 192 < 256 by omega)
      have last := byte (show v % 64 + 128 < 256 by omega)
      have begins : first (UInt8.ofNat (v / 64 % 32 + 192)) = ([], some ⟨v / 64, 1, 128, 191⟩) := by
        rw [first, lead, if_neg (by omega), if_pos (by omega)]
        rw [show v / 64 % 32 + 192 - 192 = v / 64 by omega]
      have whole : v / 64 * 64 + (v % 64 + 128 - 128) = v := by omega
      rw [List.cons_append, List.singleton_append, decode_first begins,
        decode_last (by rw [last]; omega), last, whole, back]
    · split
      · rename_i three
        have lead := byte (show v / 4096 % 16 + 224 < 256 by omega)
        have next := byte (show v / 64 % 64 + 128 < 256 by omega)
        have last := byte (show v % 64 + 128 < 256 by omega)
        -- the bounds of the second byte leave out long forms and surrogates
        obtain ⟨least, greatest, begins, inside⟩ : ∃ least greatest,
            first (UInt8.ofNat (v / 4096 % 16 + 224)) =
              ([], some ⟨v / 4096, 2, least, greatest⟩) ∧
            least ≤ v / 64 % 64 + 128 ∧ v / 64 % 64 + 128 ≤ greatest := by
          rw [first, lead, if_neg (by omega), if_neg (by omega)]
          by_cases least : v / 4096 % 16 + 224 = 224
          · exact ⟨160, 191, by rw [if_pos least, show v / 4096 = 0 by omega], by omega⟩
          · rw [if_neg least]
            by_cases surrogates : v / 4096 % 16 + 224 = 237
            · exact ⟨128, 159, by rw [if_pos surrogates, show v / 4096 = 13 by omega], by omega⟩
            · refine ⟨128, 191, ?_, by omega⟩
              rw [if_neg surrogates, if_pos (by omega),
                show v / 4096 % 16 + 224 - 224 = v / 4096 by omega]
        have whole :
            (v / 4096 * 64 + (v / 64 % 64 + 128 - 128)) * 64 + (v % 64 + 128 - 128) = v := by
          omega
        rw [List.cons_append, List.cons_append, List.singleton_append, decode_first begins,
          decode_next (by rw [next]; exact inside) (by omega), next,
          decode_last (by rw [last]; omega), last, whole, back]
      · rename_i four
        have lead := byte (show v / 262144 % 8 + 240 < 256 by omega)
        have second := byte (show v / 4096 % 64 + 128 < 256 by omega)
        have third := byte (show v / 64 % 64 + 128 < 256 by omega)
        have last := byte (show v % 64 + 128 < 256 by omega)
        -- and characters beyond the last one
        obtain ⟨least, greatest, begins, inside⟩ : ∃ least greatest,
            first (UInt8.ofNat (v / 262144 % 8 + 240)) =
              ([], some ⟨v / 262144, 3, least, greatest⟩) ∧
            least ≤ v / 4096 % 64 + 128 ∧ v / 4096 % 64 + 128 ≤ greatest := by
          rw [first, lead, if_neg (by omega), if_neg (by omega), if_neg (by omega),
            if_neg (by omega), if_neg (by omega)]
          by_cases least : v / 262144 % 8 + 240 = 240
          · exact ⟨144, 191, by rw [if_pos least, show v / 262144 = 0 by omega], by omega⟩
          · rw [if_neg least]
            by_cases middle : 241 ≤ v / 262144 % 8 + 240 ∧ v / 262144 % 8 + 240 ≤ 243
            · refine ⟨128, 191, ?_, by omega⟩
              rw [if_pos middle, show v / 262144 % 8 + 240 - 240 = v / 262144 by omega]
            · refine ⟨128, 143, ?_, by omega⟩
              rw [if_neg middle, if_pos (by omega), show v / 262144 = 4 by omega]
        have whole : ((v / 262144 * 64 + (v / 4096 % 64 + 128 - 128)) * 64 +
            (v / 64 % 64 + 128 - 128)) * 64 + (v % 64 + 128 - 128) = v := by
          omega
        rw [List.cons_append, List.cons_append, List.cons_append, List.singleton_append,
          decode_first begins, decode_next (by rw [second]; exact inside) (by omega), second,
          decode_next (by rw [third]; omega) (by omega), third,
          decode_last (by rw [last]; omega), last, whole, back]

theorem decode_utf8 (text : List Char) :
    decode none (text.flatMap String.utf8EncodeChar) = text.map some := by
  induction text with
  | nil => rfl
  | cons c text ih => rw [List.flatMap_cons, decode_utf8EncodeChar, ih, List.map_cons]

theorem fromUtf8_utf8 (text : List Char) :
    fromUtf8 (text.flatMap String.utf8EncodeChar) = some (String.ofList text) := by
  have each : (text.map some).mapM id = some text := by
    induction text with
    | nil => rfl
    | cons c text ih =>
        rw [List.map_cons, List.mapM_cons, ih]
        rfl
  rw [fromUtf8, decode_utf8, each, Option.map_some]

end Hysj.Utf8
