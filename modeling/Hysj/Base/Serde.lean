import Hysj.Base.Json

set_option autoImplicit false

/- What derived `Serialize` and `Deserialize` implementations make of JSON values. -/
namespace Hysj.Serde

open Json (Value)

/-- A `Vec<u8>` is an array of numbers. -/
def bytes (data : List UInt8) : Value := .arr (data.map fun b => .num b.toNat)

def word (n : UInt32) : Value := .num n.toNat

/-- An `Option` is `null` or its value. -/
def optional {α : Type} (toJson : α → Value) : Option α → Value
  | none => .null
  | some a => toJson a

/-- The fields of a struct under their names. An object may hold them in any order and
others beside them, none twice; an array holds them in order. -/
def fields (names : List String) : Value → Option (List (Option Value))
  | .obj members =>
      names.mapM fun name =>
        match members.filter fun member => member.1 = name with
        | [] => some none
        | [member] => some (some member.2)
        | _ => none
  | .arr items => if items.length = names.length then some (items.map some) else none
  | _ => none

/-- A field that has to be there. -/
def required {α : Type} (read : Value → Option α) (field : Option Value) : Option α :=
  field.bind read

/-- A field of type `Option`, absent or `null` when there is no value. -/
def readOptional {α : Type} (read : Value → Option α) : Option Value → Option (Option α)
  | none => some none
  | some .null => some none
  | some value => (read value).map some

def readByte : Value → Option UInt8
  | .num i => if 0 ≤ i ∧ i < 256 then some (UInt8.ofNat i.toNat) else none
  | _ => none

def readBytes : Value → Option (List UInt8)
  | .arr items => items.mapM readByte
  | _ => none

def readWord : Value → Option UInt32
  | .num i => if 0 ≤ i ∧ i < 4294967296 then some (UInt32.ofNat i.toNat) else none
  | _ => none

def readStr : Value → Option String
  | .str s => some s
  | _ => none

def readBool : Value → Option Bool
  | .bool b => some b
  | _ => none

/-- A variant without data, under its name. -/
def readVariant {α : Type} (variants : List (String × α)) : Value → Option α
  | .str name => variants.lookup name
  | .obj [(name, .null)] => variants.lookup name
  | _ => none

/-- The tag of an internally tagged variant, and the value of its fields. -/
def tagged (tag : String) : Value → Option (String × Value)
  | .obj members =>
      match members.filter fun member => member.1 = tag with
      | [(_, .str name)] => some (name, .obj (members.filter fun member => member.1 ≠ tag))
      | _ => none
  | .arr (.str name :: items) => some (name, .arr items)
  | _ => none

def readArr {α : Type} (read : Value → Option α) : Value → Option (List α)
  | .arr items => items.mapM read
  | _ => none

theorem filter_name {members : List (String × Value)} {name : String} {value : Value}
    (distinct : (members.map Prod.fst).Nodup) (member : (name, value) ∈ members) :
    (members.filter fun member => member.1 = name) = [(name, value)] := by
  induction members with
  | nil => cases member
  | cons head members ih =>
      obtain ⟨fresh, distinct⟩ := List.nodup_cons.mp distinct
      rcases List.mem_cons.mp member with rfl | later
      · have others : (members.filter fun member => member.1 = name) = [] := by
          rw [List.filter_eq_nil_iff]
          intro other listed same
          exact fresh (List.mem_map.mpr ⟨other, listed, of_decide_eq_true same⟩)
        rw [List.filter_cons_of_pos (by simp), others]
      · have different : head.1 ≠ name := by
          rintro rfl
          exact fresh (List.mem_map.mpr ⟨_, later, rfl⟩)
        rw [List.filter_cons_of_neg (by simpa using different), ih distinct later]

theorem fields_obj {members : List (String × Value)} (distinct : (members.map Prod.fst).Nodup) :
    fields (members.map Prod.fst) (.obj members) =
      some (members.map fun member => some member.2) := by
  have part (listed : List (String × Value)) (inside : listed ⊆ members) :
      (listed.map Prod.fst).mapM (fun name =>
        match members.filter fun member => member.1 = name with
        | [] => some none
        | [member] => some (some member.2)
        | _ => none) = some (listed.map fun member => some member.2) := by
    induction listed with
    | nil => rfl
    | cons member listed ih =>
        rw [List.map_cons, List.mapM_cons, filter_name distinct (inside List.mem_cons_self),
          ih fun other later => inside (List.mem_cons_of_mem _ later)]
        rfl
  exact part members (List.Subset.refl members)

theorem tagged_obj {tag name : String} {members : List (String × Value)}
    (other : tag ∉ members.map Prod.fst) :
    tagged tag (.obj ((tag, .str name) :: members)) = some (name, .obj members) := by
  have different : ∀ member ∈ members, member.1 ≠ tag := by
    rintro member listed rfl
    exact other (List.mem_map.mpr ⟨member, listed, rfl⟩)
  have none_ : members.filter (fun member => member.1 = tag) = [] := by
    rw [List.filter_eq_nil_iff]
    simpa using fun name value listed => different (name, value) listed
  have all : members.filter (fun member => decide (member.1 ≠ tag)) = members := by
    rw [List.filter_eq_self]
    simpa using fun name value listed => different (name, value) listed
  simp only [tagged, List.filter_cons, decide_true, ↓reduceIte, none_, ne_eq, not_true_eq_false,
    decide_false, Bool.false_eq_true]
  exact congrArg (fun rest => some (name, Value.obj rest)) all

theorem mapM_map {α β : Type} {write : α → β} {read : β → Option α}
    (inverse : ∀ a, read (write a) = some a) (items : List α) :
    (items.map write).mapM read = some items := by
  induction items with
  | nil => rfl
  | cons item items ih => rw [List.map_cons, List.mapM_cons, inverse, ih]; rfl

theorem readByte_num (b : UInt8) : readByte (.num b.toNat) = some b := by
  have small := b.toNat_lt
  have inside : (0 : Int) ≤ b.toNat ∧ (b.toNat : Int) < 256 := by omega
  rw [readByte, if_pos inside, Int.toNat_natCast, UInt8.ofNat_toNat]

@[simp] theorem readBytes_bytes (data : List UInt8) : readBytes (bytes data) = some data :=
  mapM_map readByte_num data

@[simp] theorem readWord_word (n : UInt32) : readWord (word n) = some n := by
  have small := n.toNat_lt
  have inside : (0 : Int) ≤ n.toNat ∧ (n.toNat : Int) < 4294967296 := by omega
  rw [word, readWord, if_pos inside, Int.toNat_natCast, UInt32.ofNat_toNat]

@[simp] theorem required_bytes (data : List UInt8) :
    required readBytes (some (bytes data)) = some data := by
  rw [required, Option.bind_some, readBytes_bytes]

@[simp] theorem required_word (n : UInt32) : required readWord (some (word n)) = some n := by
  rw [required, Option.bind_some, readWord_word]

@[simp] theorem required_str (s : String) : required readStr (some (.str s)) = some s := rfl

@[simp] theorem required_bool (b : Bool) : required readBool (some (.bool b)) = some b := rfl

theorem readOptional_optional {α : Type} {write : α → Value} {read : Value → Option α}
    (inverse : ∀ a, read (write a) = some a) (notNull : ∀ a, write a ≠ .null)
    (value : Option α) : readOptional read (some (optional write value)) = some value := by
  cases value with
  | none => rfl
  | some a =>
      have value := inverse a
      rw [optional]
      cases written : write a with
      | null => exact absurd written (notNull a)
      | _ =>
          rw [written] at value
          simp only [readOptional, value, Option.map_some]

@[simp] theorem readOptional_bytes (data : Option (List UInt8)) :
    readOptional readBytes (some (optional bytes data)) = some data := by
  apply readOptional_optional readBytes_bytes
  intro a same
  cases same

@[simp] theorem readOptional_word (n : Option UInt32) :
    readOptional readWord (some (optional word n)) = some n := by
  apply readOptional_optional readWord_word
  intro a same
  cases same

@[simp] theorem readOptional_str (s : Option String) :
    readOptional readStr (some (optional Value.str s)) = some s := by
  have inverse (a : String) : readStr (.str a) = some a := rfl
  apply readOptional_optional inverse
  intro a same
  cases same

theorem readArr_map {α : Type} {write : α → Value} {read : Value → Option α}
    (inverse : ∀ a, read (write a) = some a) (items : List α) :
    readArr read (.arr (items.map write)) = some items := mapM_map inverse items

end Hysj.Serde

namespace Hysj

/-- `serde_json` on the reading side: the value a text stands for, and the texts of the
errors for a text that is no JSON and for a value of another shape. -/
structure SerdeJson where
  fromSlice : List UInt8 → Except String Json.Value
  mismatch : List UInt8 → String

/-- A reader of compact text in place of `serde_json`. -/
def SerdeJson.sample : SerdeJson where
  fromSlice data :=
    match Json.ofSlice data with
    | some value => .ok value
    | none => .error "expected value"
  mismatch _ := "invalid type"

/-- What is written is read back. -/
def SerdeJson.Lawful (serde : SerdeJson) : Prop :=
  ∀ value, serde.fromSlice (Json.toVec value) = .ok value

theorem SerdeJson.sample_fromSlice (value : Json.Value) :
    sample.fromSlice (Json.toVec value) = .ok value := by
  simp only [sample, Json.ofSlice_toVec]

theorem SerdeJson.sample_lawful : sample.Lawful := sample_fromSlice

end Hysj
