import Mathlib.Algebra.Ring.Nat
import Mathlib.Data.Finmap

set_option autoImplicit false

/- A map of bounded size that drops its oldest entry to make room for a new one. -/
namespace Hysj

variable {ι κ : Type} [DecidableEq ι]

/-- A map of at most `capacity` entries with the age of each: an association list
without repeated keys, the youngest entry first. -/
structure BoundedFifo (ι κ : Type) (capacity : Nat) where
  entries : AList fun _ : ι => κ
  bounded : entries.keys.length ≤ capacity

theorem kreplace_perm (index : ι) (value : κ) (entries : List (Sigma fun _ : ι => κ))
    (present : index ∈ entries.keys) :
    (List.kreplace index value entries).Perm (⟨index, value⟩ :: entries.kerase index) := by
  induction entries with
  | nil => cases present
  | cons first rest ih =>
      unfold List.kreplace
      by_cases here : index = first.1
      · simp only [List.lookmap_cons, if_pos here, List.kerase_cons_eq here]
        exact List.Perm.refl _
      · simp only [List.lookmap_cons, if_neg here, List.kerase_cons_ne here]
        have later : index ∈ rest.keys := (List.mem_cons.mp present).resolve_left here
        exact ((ih later).cons first).trans (List.Perm.swap _ _ _)

/-- Replacing the value of a present key is inserting it, but for the order. -/
theorem toFinmap_replace {entries : AList fun _ : ι => κ} {index : ι} (value : κ)
    (present : index ∈ entries) :
    (entries.replace index value).toFinmap = (entries.insert index value).toFinmap :=
  AList.toFinmap_eq.mpr (kreplace_perm index value entries.entries present)

namespace BoundedFifo

variable {capacity : Nat}

def empty : BoundedFifo ι κ capacity := ⟨∅, Nat.zero_le capacity⟩

def lookup (m : BoundedFifo ι κ capacity) (index : ι) : Option κ := m.entries.lookup index

def oldest? (m : BoundedFifo ι κ capacity) : Option ι := m.entries.keys.getLast?

/-- The entries without the oldest one. -/
def dropOldest (m : BoundedFifo ι κ capacity) : AList fun _ : ι => κ :=
  match m.oldest? with
  | none => m.entries
  | some oldest => m.entries.erase oldest

theorem keys_dropOldest (m : BoundedFifo ι κ capacity) :
    m.dropOldest.keys = m.entries.keys.dropLast := by
  have distinct := m.entries.keys_nodup
  unfold dropOldest oldest?
  rcases List.eq_nil_or_concat m.entries.keys with empty | ⟨younger, oldest, split⟩
  · simp [empty]
  · rw [split, List.concat_eq_append] at distinct
    have last : oldest ∉ younger := fun member =>
      List.disjoint_of_nodup_append distinct member (List.mem_singleton_self oldest)
    rw [split, List.concat_eq_append, List.getLast?_append, List.dropLast_concat]
    show (m.entries.erase oldest).keys = younger
    rw [AList.keys_erase, split, List.concat_eq_append, List.erase_append_right _ last,
      List.erase_cons_head, List.append_nil]

/-- The entries after an insertion: a present key keeps its place, a new one is the
youngest, and makes the oldest go if the map is full. -/
def inserted (m : BoundedFifo ι κ capacity) (index : ι) (value : κ) : AList fun _ : ι => κ :=
  if index ∈ m.entries then m.entries.replace index value
  else if m.entries.keys.length < capacity then m.entries.insert index value
  else m.dropOldest.insert index value

theorem inserted_of_mem {m : BoundedFifo ι κ capacity} {index : ι} (present : index ∈ m.entries)
    (value : κ) : m.inserted index value = m.entries.replace index value :=
  if_pos present

theorem inserted_of_room {m : BoundedFifo ι κ capacity} {index : ι} (fresh : index ∉ m.entries)
    (room : m.entries.keys.length < capacity) (value : κ) :
    m.inserted index value = m.entries.insert index value := by
  rw [inserted, if_neg fresh, if_pos room]

theorem inserted_of_full {m : BoundedFifo ι κ capacity} {index : ι} (fresh : index ∉ m.entries)
    (full : m.entries.keys.length = capacity) (value : κ) :
    m.inserted index value = m.dropOldest.insert index value := by
  rw [inserted, if_neg fresh, if_neg (by omega)]

theorem length_keys_insert_le (entries : AList fun _ : ι => κ) (index : ι) (value : κ) :
    (entries.insert index value).keys.length ≤ entries.keys.length + 1 := by
  rw [AList.keys_insert, List.length_cons]
  have shorter := List.length_erase_le (a := index) (l := entries.keys)
  omega

theorem length_inserted_le [NeZero capacity] (m : BoundedFifo ι κ capacity)
    (index : ι) (value : κ) :
    (m.inserted index value).keys.length ≤ capacity := by
  have bounded := m.bounded
  have positive := Nat.pos_of_ne_zero (NeZero.ne capacity)
  by_cases present : index ∈ m.entries
  · rw [inserted_of_mem present, AList.keys_replace]
    exact bounded
  · by_cases room : m.entries.keys.length < capacity
    · rw [inserted_of_room present room]
      have one := length_keys_insert_le m.entries index value
      omega
    · rw [inserted_of_full present (by omega)]
      have one := length_keys_insert_le m.dropOldest index value
      rw [keys_dropOldest, List.length_dropLast] at one
      omega

def insert [NeZero capacity] (m : BoundedFifo ι κ capacity) (index : ι) (value : κ) :
    BoundedFifo ι κ capacity :=
  ⟨m.inserted index value, m.length_inserted_le index value⟩

theorem length_keys_erase_le (m : BoundedFifo ι κ capacity) (index : ι) :
    (m.entries.erase index).keys.length ≤ capacity := by
  rw [AList.keys_erase]
  exact le_trans List.length_erase_le m.bounded

/-- The entry asked for, and the map without it. -/
def take (m : BoundedFifo ι κ capacity) (index : ι) : Option κ × BoundedFifo ι κ capacity :=
  (m.lookup index, ⟨m.entries.erase index, m.length_keys_erase_le index⟩)

theorem take_of_none {m : BoundedFifo ι κ capacity} {index : ι} (absent : m.lookup index = none) :
    m.take index = (none, m) := by
  have unmentioned : index ∉ m.entries.keys := AList.lookup_eq_none.mp absent
  have same : m.entries.erase index = m.entries :=
    AList.ext (List.kerase_of_notMem_keys unmentioned)
  unfold take
  simp only [absent, same]

end BoundedFifo

end Hysj
