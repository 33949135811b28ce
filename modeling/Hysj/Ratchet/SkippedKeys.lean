import Mathlib.Data.Finmap
import Mathlib.Data.Finset.Card

set_option autoImplicit false

namespace Hysj.Ratchet

variable {ι κ : Type} [DecidableEq ι]

/-- Maximum number of skipped message keys to store. -/
def MAX_SKIPPED_KEYS : Nat := 1000

/-- Message keys of skipped messages. The index `ι` is the pair of a ratchet key
and a message number; a hash map has no order of its own. -/
structure SkippedKeys (ι κ : Type) [DecidableEq ι] where
  keys : Finmap fun _ : ι => κ
  insertionOrder : List ι

namespace SkippedKeys

def new : SkippedKeys ι κ := ⟨∅, []⟩

def len (store : SkippedKeys ι κ) : Nat := store.keys.keys.card

def isEmpty (store : SkippedKeys ι κ) : Bool := store.len = 0

def lookup (store : SkippedKeys ι κ) (index : ι) : Option κ := store.keys.lookup index

/-- The eviction loop: drop the oldest entries while the map is full. -/
def evict (keys : Finmap fun _ : ι => κ) : List ι → (Finmap fun _ : ι => κ) × List ι
  | [] => (keys, [])
  | oldest :: order =>
      if MAX_SKIPPED_KEYS ≤ keys.keys.card then evict (keys.erase oldest) order
      else (keys, oldest :: order)

def insert (store : SkippedKeys ι κ) (index : ι) (messageKey : κ) : SkippedKeys ι κ :=
  if index ∈ store.keys then { store with keys := store.keys.insert index messageKey }
  else
    let evicted := evict store.keys store.insertionOrder
    { keys := evicted.1.insert index messageKey, insertionOrder := evicted.2 ++ [index] }

def take (store : SkippedKeys ι κ) (index : ι) : Option κ × SkippedKeys ι κ :=
  match store.keys.lookup index with
  | some messageKey =>
      (some messageKey,
        { keys := store.keys.erase index
          insertionOrder := store.insertionOrder.filter (fun k => k ≠ index) })
  | none => (none, store)

@[ext] theorem ext {left right : SkippedKeys ι κ} (keys : left.keys = right.keys)
    (order : left.insertionOrder = right.insertionOrder) : left = right := by
  cases left
  cases right
  cases keys
  cases order
  rfl

@[simp] theorem lookup_new (index : ι) : (new : SkippedKeys ι κ).lookup index = none :=
  Finmap.lookup_empty index

theorem take_of_none {store : SkippedKeys ι κ} {index : ι} (absent : store.lookup index = none) :
    store.take index = (none, store) := by
  unfold take
  rw [show store.keys.lookup index = none from absent]

theorem take_of_some {store : SkippedKeys ι κ} {index : ι} {messageKey : κ}
    (present : store.lookup index = some messageKey) :
    store.take index = (some messageKey,
      { keys := store.keys.erase index
        insertionOrder := store.insertionOrder.filter (fun k => k ≠ index) }) := by
  unfold take
  rw [show store.keys.lookup index = some messageKey from present]

/-- What `take` leaves: everything but the entry asked for. -/
theorem lookup_take (store : SkippedKeys ι κ) (index other : ι) :
    (store.take index).2.lookup other = if other = index then none else store.lookup other := by
  cases present : store.lookup index with
  | none =>
      rw [take_of_none present]
      split
      · rename_i same
        rw [same, present]
      · rfl
  | some messageKey =>
      rw [take_of_some present]
      split
      · rename_i same
        rw [same]
        exact Finmap.lookup_erase index store.keys
      · rename_i different
        exact Finmap.lookup_erase_ne different

theorem take_ne {store : SkippedKeys ι κ} {index : ι} {messageKey : κ}
    (present : store.lookup index = some messageKey) : (store.take index).2 ≠ store := by
  intro same
  have gone := lookup_take store index index
  rw [same, present, if_pos rfl] at gone
  cases gone

theorem evict_of_room (keys : Finmap fun _ : ι => κ) (order : List ι)
    (room : keys.keys.card < MAX_SKIPPED_KEYS) : evict keys order = (keys, order) := by
  cases order with
  | nil => rfl
  | cons oldest order => rw [evict, if_neg (by omega)]

theorem lookup_evict {keys : Finmap fun _ : ι => κ} {order : List ι} {index : ι}
    {messageKey : κ} (present : (evict keys order).1.lookup index = some messageKey) :
    keys.lookup index = some messageKey := by
  induction order generalizing keys with
  | nil => exact present
  | cons oldest order ih =>
      rw [evict] at present
      split at present
      · have kept := ih present
        by_cases same : index = oldest
        · rw [same, Finmap.lookup_erase] at kept
          cases kept
        · rwa [Finmap.lookup_erase_ne same] at kept
      · exact present

@[simp] theorem lookup_insert_self (store : SkippedKeys ι κ) (index : ι) (messageKey : κ) :
    (store.insert index messageKey).lookup index = some messageKey := by
  unfold insert
  split <;> exact Finmap.lookup_insert _

/-- With room in the store an insertion touches no other entry. -/
theorem lookup_insert_of_room (store : SkippedKeys ι κ) (index other : ι) (messageKey : κ)
    (room : store.len < MAX_SKIPPED_KEYS) :
    (store.insert index messageKey).lookup other =
      if other = index then some messageKey else store.lookup other := by
  by_cases same : other = index
  · rw [if_pos same, same, lookup_insert_self]
  · rw [if_neg same]
    unfold insert
    split
    · exact Finmap.lookup_insert_of_ne _ same
    · rw [evict_of_room _ _ room]
      exact Finmap.lookup_insert_of_ne _ same

theorem lookup_insert_cases {store : SkippedKeys ι κ} {index other : ι} {added found : κ}
    (present : (store.insert index added).lookup other = some found) :
    (other = index ∧ found = added) ∨ (other ≠ index ∧ store.lookup other = some found) := by
  by_cases same : other = index
  · rw [same, lookup_insert_self] at present
    exact Or.inl ⟨same, (Option.some.inj present).symm⟩
  · refine Or.inr ⟨same, ?_⟩
    unfold insert at present
    split at present
    · exact (Finmap.lookup_insert_of_ne _ same).symm.trans present
    · exact lookup_evict ((Finmap.lookup_insert_of_ne _ same).symm.trans present)

/-- The index occurs in the store, with a key or in the order of eviction. -/
def Mentions (store : SkippedKeys ι κ) (index : ι) : Prop :=
  index ∈ store.keys ∨ index ∈ store.insertionOrder

theorem not_mentions_new (index : ι) : ¬ (new : SkippedKeys ι κ).Mentions index := by
  rintro (present | ordered)
  · exact Finmap.notMem_empty present
  · cases ordered

theorem mentions_evict {keys : Finmap fun _ : ι => κ} {order : List ι} {index : ι}
    (mentioned : index ∈ (evict keys order).1 ∨ index ∈ (evict keys order).2) :
    index ∈ keys ∨ index ∈ order := by
  induction order generalizing keys with
  | nil => exact mentioned
  | cons oldest order ih =>
      rw [evict] at mentioned
      split at mentioned
      · rcases ih mentioned with present | ordered
        · exact Or.inl (Finmap.mem_erase.mp present).2
        · exact Or.inr (List.mem_cons_of_mem _ ordered)
      · exact mentioned

theorem mentions_insert {store : SkippedKeys ι κ} {index other : ι} {messageKey : κ}
    (mentioned : (store.insert index messageKey).Mentions other) :
    other = index ∨ store.Mentions other := by
  unfold insert at mentioned
  split at mentioned
  · rcases mentioned with present | ordered
    · exact (Finmap.mem_insert.mp present).imp id Or.inl
    · exact Or.inr (Or.inr ordered)
  · have kept : other = index ∨ other ∈ (evict store.keys store.insertionOrder).1 ∨
        other ∈ (evict store.keys store.insertionOrder).2 := by
      rcases mentioned with present | ordered
      · exact (Finmap.mem_insert.mp present).imp id Or.inl
      · rcases List.mem_append.mp ordered with before | last
        · exact Or.inr (Or.inr before)
        · exact Or.inl (List.mem_singleton.mp last)
    exact kept.imp id mentions_evict

theorem mentions_take {store : SkippedKeys ι κ} {index other : ι}
    (mentioned : (store.take index).2.Mentions other) : store.Mentions other := by
  cases present : store.lookup index with
  | none =>
      rw [take_of_none present] at mentioned
      exact mentioned
  | some messageKey =>
      rw [take_of_some present] at mentioned
      rcases mentioned with kept | ordered
      · exact Or.inl (Finmap.mem_erase.mp kept).2
      · exact Or.inr (List.mem_of_mem_filter ordered)

theorem len_insert_le_of_room (store : SkippedKeys ι κ) (index : ι) (messageKey : κ)
    (room : store.len < MAX_SKIPPED_KEYS) :
    (store.insert index messageKey).len ≤ store.len + 1 := by
  have bound : ∀ keys : Finmap fun _ : ι => κ,
      (keys.insert index messageKey).keys.card ≤ keys.keys.card + 1 := by
    intro keys
    have covered : (keys.insert index messageKey).keys ⊆ Insert.insert index keys.keys := by
      intro k member
      rw [Finmap.mem_keys, Finmap.mem_insert] at member
      rcases member with rfl | member
      · exact Finset.mem_insert_self _ _
      · exact Finset.mem_insert_of_mem (Finmap.mem_keys.mpr member)
    exact (Finset.card_le_card covered).trans (Finset.card_insert_le _ _)
  unfold insert
  split
  · exact bound store.keys
  · rw [evict_of_room _ _ room]
    exact bound store.keys

end SkippedKeys

end Hysj.Ratchet
