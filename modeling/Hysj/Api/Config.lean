import Hysj.Base.Result
import Hysj.Base.Text
import Hysj.Shared.Uuid

set_option autoImplicit false

/- The signing seed in the environment, which is read from hexadecimal. -/
namespace Hysj.Api.Config

open Crypto (ByteArr tryInto tryInto_eq_some)
open Text

/-- An error has its contexts before it, the last one first. `none` is a panic. -/
abbrev Fallible (α : Type) := ExceptT (List String) Option α

/-- `(0..last).step_by(step)` -/
def stepBy (last step : Nat) : List Nat := List.range' 0 ((last + step - 1) / step) step

/-- `u8::from_str_radix(&hex[i..i + 2], 16)` -/
def readPair (hex : List Char) (i : Nat) : Fallible UInt8 :=
  ExceptT.mk ((slice hex i (i + 2)).map fun pair =>
    (u8FromStrRadix pair 16).mapError fun e =>
      ["Invalid hex at position " ++ toString i ++ ": " ++ e.display])

def hexToBytes (hex : String) : Fallible (List UInt8) :=
  if hex.utf8ByteSize % 2 ≠ 0 then throw ["Hex string has odd length"]
  else (stepBy hex.utf8ByteSize 2).mapM (readPair hex.toList)

/-- `cert_bytes.try_into()` -/
def toSeed (certBytes : List UInt8) : Fallible (ByteArr 32) :=
  match tryInto 32 certBytes with
  | some seed => pure seed
  | none => throw ["CERT_SIGNING_KEY must be exactly 32 bytes (64 hex chars), got " ++
      toString certBytes.length]

/-- The part of `AppConfig::from_env` that reads the seed, with what `std::env::var` has answered.
-/
def certSigningSeed (certSigningKey : Except String String) : Fallible (ByteArr 32) := do
  let certHex ← ExceptT.mk (some (certSigningKey.mapError fun e =>
    ["CERT_SIGNING_KEY must be set (64 hex chars)", e]))
  let certBytes ← ExceptT.adapt ("CERT_SIGNING_KEY must be a 64-character hex string" :: ·)
    (hexToBytes certHex)
  toSeed certBytes

def upperHexChars : List Char :=
  ['0', '1', '2', '3', '4', '5', '6', '7', '8', '9', 'A', 'B', 'C', 'D', 'E', 'F']

/-- The character is the hexadecimal digit of the value, in either case. -/
def IsDigit (c : Char) (value : Nat) : Prop :=
  Json.hexChars[value]? = some c ∨ upperHexChars[value]? = some c

instance (c : Char) (value : Nat) : Decidable (IsDigit c value) := instDecidableOr

/-- The bytes that a hexadecimal text denotes. -/
inductive Denotes : List Char → List UInt8 → Prop
  | nil : Denotes [] []
  | cons {high low : Char} {h l : Nat} {text : List Char} {bytes : List UInt8}
      (first : IsDigit high h) (second : IsDigit low l) (rest : Denotes text bytes) :
      Denotes (high :: low :: text) (UInt8.ofNat (16 * h + l) :: bytes)

/-- Exactly the hexadecimal texts are read, as the bytes they denote, and others are errors. -/
def ReadsExactly (hex : String) : Prop :=
  (∀ bytes, (hexToBytes hex).run = some (.ok bytes) ↔ Denotes hex.toList bytes) ∧
    ((∀ bytes, ¬ Denotes hex.toList bytes) → ∃ e, (hexToBytes hex).run = some (.error e))

/-- The byte that two characters are read as. A plus sign may stand in place of the first digit. -/
inductive Readable : List Char → UInt8 → Prop
  | digits {high low : Char} {h l : Nat} (first : IsDigit high h) (second : IsDigit low l) :
      Readable [high, low] (UInt8.ofNat (16 * h + l))
  | plus {low : Char} {l : Nat} (second : IsDigit low l) : Readable ['+', low] (UInt8.ofNat l)

/-- A text of readable pairs, and the bytes they are read as. -/
inductive Reads : List Char → List UInt8 → Prop
  | nil : Reads [] []
  | cons {pair text : List Char} {b : UInt8} {bytes : List UInt8} (read : Readable pair b)
      (rest : Reads text bytes) : Reads (pair ++ text) (b :: bytes)

/-- The first two bytes that are no readable pair are whole characters. -/
inductive Refused : List Char → Prop
  | here {pair text : List Char} (two : byteSize pair = 2) (unread : ∀ b, ¬ Readable pair b) :
      Refused (pair ++ text)
  | later {pair text : List Char} {b : UInt8} (read : Readable pair b) (rest : Refused text) :
      Refused (pair ++ text)

/-- The first two bytes that are no readable pair end inside a character. -/
inductive Cut : List Char → Prop
  | here {text : List Char} (more : text ≠ []) (inside : splitAt text 2 = none) : Cut text
  | later {pair text : List Char} {b : UInt8} (read : Readable pair b) (rest : Cut text) :
      Cut (pair ++ text)

theorem isDigit_of_toDigit {c : Char} {value : Nat} (is : toDigit 16 c = some value) :
    IsDigit c value := by
  have all : ∀ n < 128, (toDigit 16 (Char.ofNat n)).all fun v => IsDigit (Char.ofNat n) v := by
    decide +kernel
  have here := all c.toNat (toNat_of_toDigit is)
  rw [Char.ofNat_toNat, is] at here
  exact of_decide_eq_true here

theorem IsDigit.toDigit {c : Char} {value : Nat} (is : IsDigit c value) :
    toDigit 16 c = some value := by
  have all : ∀ v < 16, (Json.hexChars[v]?.all fun c => Text.toDigit 16 c = some v) ∧
      upperHexChars[v]?.all fun c => Text.toDigit 16 c = some v := by
    decide
  rcases is with lower | upper
  · have here := (all value (List.getElem?_eq_some_iff.mp lower).1).1
    rw [lower] at here
    exact of_decide_eq_true here
  · have here := (all value (List.getElem?_eq_some_iff.mp upper).1).2
    rw [upper] at here
    exact of_decide_eq_true here

theorem IsDigit.lt {c : Char} {value : Nat} (is : IsDigit c value) : value < 16 :=
  toDigit_lt is.toDigit

theorem IsDigit.utf8Size {c : Char} {value : Nat} (is : IsDigit c value) : c.utf8Size = 1 :=
  utf8Size_eq_one_iff_toNat.mpr (toNat_of_toDigit is.toDigit)

theorem IsDigit.ne_plus {c : Char} {value : Nat} (is : IsDigit c value) : c ≠ '+' := by
  rintro rfl
  have digit := is.toDigit
  cases digit

theorem Readable.byteSize {pair : List Char} {b : UInt8} (read : Readable pair b) :
    byteSize pair = 2 := by
  cases read with
  | digits first second => simp [Text.byteSize, first.utf8Size, second.utf8Size]
  | plus second =>
      have plus : ('+').utf8Size = 1 := rfl
      simp [Text.byteSize, plus, second.utf8Size]

theorem Readable.u8FromStrRadix {pair : List Char} {b : UInt8} (read : Readable pair b) :
    u8FromStrRadix pair 16 = .ok b := by
  cases read with
  | @digits high low h l first second =>
      have small := first.lt
      have small' := second.lt
      rw [Text.u8FromStrRadix, fromStrRadix_of_ne first.ne_plus,
        readDigits_cons_of_le first.toDigit (by omega),
        readDigits_cons_of_le second.toDigit (by omega), readDigits, Nat.zero_mul, Nat.zero_add,
        Nat.mul_comm]
      rfl
  | @plus low l second =>
      have small := second.lt
      rw [Text.u8FromStrRadix, fromStrRadix_plus, readDigits_cons_of_le second.toDigit (by omega),
        readDigits, Nat.zero_mul, Nat.zero_add]
      rfl

theorem readable_of_u8FromStrRadix {pair : List Char} {b : UInt8} (two : byteSize pair = 2)
    (read : u8FromStrRadix pair 16 = .ok b) : Readable pair b := by
  rw [Text.u8FromStrRadix] at read
  obtain ⟨number, is, rfl⟩ : ∃ n, fromStrRadix 255 16 pair = .ok n ∧ UInt8.ofNat n = b := by
    cases result : fromStrRadix 255 16 pair with
    | error e =>
        rw [result] at read
        cases read
    | ok n =>
        rw [result] at read
        exact ⟨n, rfl, Except.ok.inj read⟩
  rcases byteSize_eq_two two with ⟨c, rfl, wide⟩ | ⟨c, d, rfl, -, -⟩
  · -- a character of two bytes is no digit
    have other : c ≠ '+' := by
      rintro rfl
      cases wide
    rw [fromStrRadix_of_ne other] at is
    obtain ⟨value, digit, -⟩ := of_readDigits_cons is
    have narrow := (isDigit_of_toDigit digit).utf8Size
    omega
  · by_cases plus : c = '+'
    · rw [plus, fromStrRadix_plus] at is
      obtain ⟨l, second, last⟩ := of_readDigits_cons is
      rw [readDigits, Nat.zero_mul, Nat.zero_add] at last
      rw [plus, ← Except.ok.inj last]
      exact .plus (isDigit_of_toDigit second)
    · rw [fromStrRadix_of_ne plus] at is
      obtain ⟨h, first, is⟩ := of_readDigits_cons is
      obtain ⟨l, second, last⟩ := of_readDigits_cons is
      rw [readDigits, Nat.zero_mul, Nat.zero_add, Nat.mul_comm] at last
      rw [← Except.ok.inj last]
      exact .digits (isDigit_of_toDigit first) (isDigit_of_toDigit second)

theorem readPair_append (front : List Char) {pair : List Char} (two : byteSize pair = 2)
    (text : List Char) :
    (readPair (front ++ (pair ++ text)) (byteSize front)).run =
      some ((u8FromStrRadix pair 16).mapError fun e =>
        ["Invalid hex at position " ++ toString (byteSize front) ++ ": " ++ e.display]) := by
  rw [readPair, slice_append, ← two, splitAt_append]
  rfl

theorem readPair_cut {front text : List Char} (inside : splitAt text 2 = none) :
    (readPair (front ++ text) (byteSize front)).run = none := by
  rw [readPair, slice_append, inside]
  rfl

section

variable {α β : Type} {f : α → Fallible β} {a : α} {rest : List α}

theorem mapM_cons_of_panic (panics : (f a).run = none) : ((a :: rest).mapM f).run = none := by
  rw [List.mapM_cons, ExceptT.run_bind, panics]
  rfl

theorem mapM_cons_of_error {e : List String} (fails : (f a).run = some (.error e)) :
    ((a :: rest).mapM f).run = some (.error e) := by
  rw [List.mapM_cons, ExceptT.run_bind, fails]
  rfl

theorem mapM_cons_of_ok {b : β} (returns : (f a).run = some (.ok b)) :
    ((a :: rest).mapM f).run = (rest.mapM f).run.map fun r => r.map (b :: ·) := by
  rw [List.mapM_cons, ExceptT.run_bind, returns]
  change (rest.mapM f >>= fun bytes => pure (b :: bytes)).run = _
  rw [ExceptT.run_bind]
  cases (rest.mapM f).run with
  | none => rfl
  | some result =>
      cases result with
      | error e => rfl
      | ok bytes => rfl

end

/-- The pairs from an offset on. -/
def readPairs (hex : List Char) (i n : Nat) : Fallible (List UInt8) :=
  (List.range' i n 2).mapM (readPair hex)

theorem readPairs_of_readable {front pair : List Char} {b : UInt8} (read : Readable pair b)
    (text : List Char) (n : Nat) :
    (readPairs (front ++ (pair ++ text)) (byteSize front) (n + 1)).run =
      (readPairs ((front ++ pair) ++ text) (byteSize (front ++ pair)) n).run.map
        fun r => r.map (b :: ·) := by
  have first : (readPair (front ++ (pair ++ text)) (byteSize front)).run = some (.ok b) := by
    rw [readPair_append front read.byteSize, read.u8FromStrRadix]
    rfl
  rw [readPairs, List.range'_succ, mapM_cons_of_ok first, readPairs, byteSize_append,
    read.byteSize, List.append_assoc]

/-- Every text of an even number of bytes is of one of the three kinds. -/
theorem kinds (n : Nat) (text : List Char) (size : byteSize text = 2 * n) :
    (∃ bytes, Reads text bytes) ∨ Refused text ∨ Cut text := by
  induction n generalizing text with
  | zero =>
      rw [byteSize_eq_zero.mp size]
      exact Or.inl ⟨[], .nil⟩
  | succ n ih =>
      cases cut : splitAt text 2 with
      | none =>
          have more : text ≠ [] := by
            rintro rfl
            rw [byteSize] at size
            omega
          exact Or.inr (Or.inr (.here more cut))
      | some parts =>
          obtain ⟨split, two⟩ := splitAt_eq_some.mp cut
          rw [split]
          by_cases read : ∃ b, Readable parts.1 b
          · obtain ⟨b, read⟩ := read
            have rest : byteSize parts.2 = 2 * n := by
              rw [split, byteSize_append, two] at size
              omega
            rcases ih parts.2 rest with ⟨bytes, reads⟩ | refused | within
            · exact Or.inl ⟨b :: bytes, .cons read reads⟩
            · exact Or.inr (Or.inl (.later read refused))
            · exact Or.inr (Or.inr (.later read within))
          · exact Or.inr (Or.inl (.here two (not_exists.mp read)))

theorem Reads.byteSize {text : List Char} {bytes : List UInt8} (reads : Reads text bytes) :
    byteSize text = 2 * bytes.length := by
  induction reads with
  | nil => rfl
  | cons read rest ih =>
      rw [byteSize_append, read.byteSize, ih, List.length_cons]
      omega

theorem Reads.run {text : List Char} {bytes : List UInt8} (reads : Reads text bytes)
    (front : List Char) :
    (readPairs (front ++ text) (Text.byteSize front) bytes.length).run = some (.ok bytes) := by
  induction reads generalizing front with
  | nil => rfl
  | cons read rest ih =>
      rw [List.length_cons, readPairs_of_readable read, ih]
      rfl

theorem Refused.run {text : List Char} (refused : Refused text) (front : List Char) {n : Nat}
    (size : byteSize text = 2 * n) :
    ∃ e, (readPairs (front ++ text) (byteSize front) n).run = some (.error e) := by
  induction refused generalizing front n with
  | @here pair text two unread =>
      cases n with
      | zero =>
          rw [byteSize_append] at size
          omega
      | succ n =>
          cases result : u8FromStrRadix pair 16 with
          | ok b => exact absurd (readable_of_u8FromStrRadix two result) (unread b)
          | error e =>
              have first := readPair_append front two text
              rw [result] at first
              exact ⟨_, by rw [readPairs, List.range'_succ]; exact mapM_cons_of_error first⟩
  | @later pair text b read rest ih =>
      rw [byteSize_append, read.byteSize] at size
      cases n with
      | zero => omega
      | succ n =>
          obtain ⟨e, fails⟩ := ih (front ++ pair) (n := n) (by omega)
          exact ⟨e, by rw [readPairs_of_readable read, fails]; rfl⟩

theorem Cut.run {text : List Char} (within : Cut text) (front : List Char) {n : Nat}
    (size : byteSize text = 2 * n) :
    (readPairs (front ++ text) (byteSize front) n).run = none := by
  induction within generalizing front n with
  | @here text more inside =>
      cases n with
      | zero => exact absurd (byteSize_eq_zero.mp size) more
      | succ n =>
          rw [readPairs, List.range'_succ]
          exact mapM_cons_of_panic (readPair_cut inside)
  | @later pair text b read rest ih =>
      rw [byteSize_append, read.byteSize] at size
      cases n with
      | zero => omega
      | succ n =>
          rw [readPairs_of_readable read, ih (front ++ pair) (by omega)]
          rfl

variable {hex : String} {bytes : List UInt8}

theorem hexToBytes_of_odd (odd : hex.utf8ByteSize % 2 = 1) :
    (hexToBytes hex).run = some (.error ["Hex string has odd length"]) := by
  rw [hexToBytes, if_pos (by omega)]
  rfl

theorem hexToBytes_of_even {n : Nat} (even : hex.utf8ByteSize = 2 * n) :
    hexToBytes hex = readPairs hex.toList 0 n := by
  have count : (2 * n + 2 - 1) / 2 = n := by omega
  rw [hexToBytes, if_neg (by omega), stepBy, even, count, readPairs]

theorem Reads.hexToBytes (reads : Reads hex.toList bytes) :
    (hexToBytes hex).run = some (.ok bytes) := by
  have size := reads.byteSize
  rw [byteSize_toList] at size
  rw [hexToBytes_of_even size]
  exact reads.run []

theorem Refused.hexToBytes {n : Nat} (even : hex.utf8ByteSize = 2 * n)
    (refused : Refused hex.toList) :
    ∃ e, (hexToBytes hex).run = some (.error e) := by
  rw [hexToBytes_of_even even]
  exact refused.run [] (by rw [byteSize_toList, even])

theorem Cut.hexToBytes {n : Nat} (even : hex.utf8ByteSize = 2 * n) (within : Cut hex.toList) :
    (hexToBytes hex).run = none := by
  rw [hexToBytes_of_even even]
  exact within.run [] (by rw [byteSize_toList, even])

theorem outcome (hex : String) :
    (∃ bytes, (hexToBytes hex).run = some (.ok bytes) ∧ Reads hex.toList bytes) ∨
      (∃ e, (hexToBytes hex).run = some (.error e) ∧
        (hex.utf8ByteSize % 2 = 1 ∨ Refused hex.toList)) ∨
      (hexToBytes hex).run = none ∧ hex.utf8ByteSize % 2 = 0 ∧ Cut hex.toList := by
  by_cases odd : hex.utf8ByteSize % 2 = 1
  · exact Or.inr (Or.inl ⟨_, hexToBytes_of_odd odd, Or.inl odd⟩)
  · have even : hex.utf8ByteSize = 2 * (hex.utf8ByteSize / 2) := by omega
    rcases kinds _ hex.toList
      ((byteSize_toList hex).trans even) with ⟨bytes, reads⟩ | refused | within
    · exact Or.inl ⟨bytes, reads.hexToBytes, reads⟩
    · obtain ⟨e, fails⟩ := refused.hexToBytes even
      exact Or.inr (Or.inl ⟨e, fails, Or.inr refused⟩)
    · exact Or.inr (Or.inr ⟨within.hexToBytes even, by omega, within⟩)

theorem hexToBytes_eq_ok : (hexToBytes hex).run = some (.ok bytes) ↔ Reads hex.toList bytes := by
  constructor
  · intro returned
    rcases outcome hex with ⟨bytes', is, reads⟩ | ⟨e, is, -⟩ | ⟨is, -⟩
    · rw [is] at returned
      cases returned
      exact reads
    · rw [is] at returned
      cases returned
    · rw [is] at returned
      cases returned
  · exact Reads.hexToBytes

theorem hexToBytes_eq_error : (∃ e, (hexToBytes hex).run = some (.error e)) ↔
    hex.utf8ByteSize % 2 = 1 ∨ Refused hex.toList := by
  constructor
  · rintro ⟨e, fails⟩
    rcases outcome hex with ⟨bytes', is, -⟩ | ⟨e, -, why⟩ | ⟨is, -⟩
    · rw [is] at fails
      cases fails
    · exact why
    · rw [is] at fails
      cases fails
  · intro why
    by_cases odd : hex.utf8ByteSize % 2 = 1
    · exact ⟨_, hexToBytes_of_odd odd⟩
    · exact (why.resolve_left odd).hexToBytes (n := hex.utf8ByteSize / 2) (by omega)

theorem hexToBytes_eq_none :
    (hexToBytes hex).run = none ↔ hex.utf8ByteSize % 2 = 0 ∧ Cut hex.toList := by
  constructor
  · intro panics
    rcases outcome hex with ⟨bytes', is, -⟩ | ⟨e, is, -⟩ | ⟨-, why⟩
    · rw [is] at panics
      cases panics
    · rw [is] at panics
      cases panics
    · exact why
  · rintro ⟨even, within⟩
    exact within.hexToBytes (n := hex.utf8ByteSize / 2) (by omega)

theorem Denotes.reads {text : List Char} (denotes : Denotes text bytes) : Reads text bytes := by
  induction denotes with
  | nil => exact .nil
  | cons first second rest ih => exact .cons (.digits first second) ih

theorem Denotes.digit {text : List Char} (denotes : Denotes text bytes) :
    ∀ c ∈ text, ∃ value, IsDigit c value := by
  induction denotes with
  | nil => exact List.forall_mem_nil _
  | cons first second rest ih =>
      simp only [List.forall_mem_cons]
      exact ⟨⟨_, first⟩, ⟨_, second⟩, ih⟩

theorem Denotes.hexToBytes (denotes : Denotes hex.toList bytes) :
    (hexToBytes hex).run = some (.ok bytes) := denotes.reads.hexToBytes

/-- A text is read exactly unless one of two things happens: a plus sign is read in place of a
digit and nothing is refused, or bytes are cut before anything is refused. -/
theorem reads_exactly_iff (hex : String) : ReadsExactly hex ↔
    hex.utf8ByteSize % 2 = 1 ∨ (∃ bytes, Denotes hex.toList bytes) ∨ Refused hex.toList := by
  rw [or_left_comm, ← hexToBytes_eq_error]
  constructor
  · rintro ⟨-, refuses⟩
    by_cases denotes : ∃ bytes, Denotes hex.toList bytes
    · exact Or.inl denotes
    · exact Or.inr (refuses (not_exists.mp denotes))
  · rintro (⟨bytes, denotes⟩ | ⟨e, fails⟩)
    · refine ⟨fun other => ⟨?_, Denotes.hexToBytes⟩, fun none => absurd denotes (none bytes)⟩
      intro returned
      rw [denotes.hexToBytes] at returned
      cases returned
      exact denotes
    · refine ⟨fun bytes => ⟨?_, Denotes.hexToBytes⟩, fun _ => ⟨e, fails⟩⟩
      intro returned
      rw [fails] at returned
      cases returned

/-- A plus sign is read for a digit, and a character of two bytes between two letters is cut. -/
theorem plus_sign_read : ¬ ReadsExactly "+5" ∧
    (hexToBytes (String.ofList ['a', Char.ofNat 233, 'b'])).run = none := by
  constructor
  · rintro ⟨reads, -⟩
    have chars : "+5".toList = ['+', '5'] := rfl
    have five : Reads "+5".toList [5] := by
      rw [chars]
      exact .cons (.plus (l := 5) (by decide)) .nil
    obtain ⟨value, digit⟩ := ((reads [5]).mp five.hexToBytes).digit '+' (by simp [chars])
    exact digit.ne_plus rfl
  · refine hexToBytes_eq_none.mpr ⟨?_, .here ?_ ?_⟩
    · rw [byteSize_ofList]
      rfl
    · simp
    · rw [String.toList_ofList]
      rfl

theorem run_bind_eq_ok {α β : Type} {x : Fallible α} {f : α → Fallible β} {b : β} :
    (x >>= f).run = some (.ok b) ↔ ∃ a, x.run = some (.ok a) ∧ (f a).run = some (.ok b) := by
  rw [ExceptT.run_bind]
  cases x.run with
  | none => simp
  | some result =>
      cases result with
      | error e => simp
      | ok a => simp

theorem run_adapt_eq_ok {α : Type} {g : List String → List String} {x : Fallible α} {a : α} :
    (ExceptT.adapt g x).run = some (.ok a) ↔ x.run = some (.ok a) := by
  rw [ExceptT.run_adapt]
  cases x.run with
  | none => simp
  | some result =>
      cases result with
      | error e => simp
      | ok a => simp

theorem toSeed_eq_ok {seed : ByteArr 32} :
    (toSeed bytes).run = some (.ok seed) ↔ bytes = seed.toList := by
  rw [← tryInto_eq_some, toSeed]
  cases tryInto 32 bytes with
  | none => simp
  | some made => simp

/-- The seeds are read from the texts of thirty-two readable pairs. -/
theorem certSigningSeed_eq_ok {seed : ByteArr 32} :
    (certSigningSeed (.ok hex)).run = some (.ok seed) ↔ Reads hex.toList seed.toList := by
  rw [← hexToBytes_eq_ok, certSigningSeed, run_bind_eq_ok]
  constructor
  · rintro ⟨certHex, is, rest⟩
    cases is
    obtain ⟨certBytes, read, made⟩ := run_bind_eq_ok.mp rest
    rw [← toSeed_eq_ok.mp made]
    exact run_adapt_eq_ok.mp read
  · intro read
    refine ⟨hex, rfl, run_bind_eq_ok.mpr ⟨seed.toList, run_adapt_eq_ok.mpr read, ?_⟩⟩
    exact toSeed_eq_ok.mpr rfl

theorem denotes_digits (bytes : List UInt8) : Denotes (Shared.Uuid.digits bytes) bytes := by
  induction bytes with
  | nil => exact .nil
  | cons b bytes ih =>
      have all : ∀ n < 16, IsDigit (Json.hexChar n) n := by decide
      have small := b.toNat_lt
      have value : UInt8.ofNat (16 * (b.toNat / 16) + b.toNat % 16) = b := by
        rw [Nat.div_add_mod, UInt8.ofNat_toNat]
      have both := Denotes.cons (all (b.toNat / 16) (by omega)) (all (b.toNat % 16) (by omega)) ih
      rw [value] at both
      exact both

theorem certSigningSeed_digits (seed : ByteArr 32) :
    (certSigningSeed (.ok (String.ofList (Shared.Uuid.digits seed.toList)))).run =
      some (.ok seed) := by
  rw [certSigningSeed_eq_ok, String.toList_ofList]
  exact (denotes_digits seed.toList).reads

end Hysj.Api.Config
