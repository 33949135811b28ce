import Hysj.Base.BoundedFifo
import Hysj.Ratchet.SkippedKeys

set_option autoImplicit false

/- The map of skipped keys and its order of eviction stay in step: together they
are a map of at most `MAX_SKIPPED_KEYS` entries that drops its oldest one. -/
namespace Hysj.Ratchet

variable {ι κ : Type} [DecidableEq ι]

instance : NeZero MAX_SKIPPED_KEYS := ⟨by decide⟩

/-- The reference model of `SkippedKeys`. -/
abbrev SkippedFifo (ι κ : Type) [DecidableEq ι] := BoundedFifo ι κ MAX_SKIPPED_KEYS

/-- The store holds the entries of the reference model, its order of insertion
being the keys from the oldest to the youngest. -/
structure Represents (m : SkippedFifo ι κ) (store : SkippedKeys ι κ) : Prop where
  keys : store.keys = m.entries.toFinmap
  order : store.insertionOrder = m.entries.keys.reverse

namespace Represents

variable {m : SkippedFifo ι κ} {store : SkippedKeys ι κ}

theorem new : Represents (BoundedFifo.empty : SkippedFifo ι κ) SkippedKeys.new :=
  ⟨rfl, rfl⟩

theorem len_eq (same : Represents m store) : store.len = m.entries.keys.length := by
  unfold SkippedKeys.len
  rw [same.keys]
  rfl

theorem lookup_eq (same : Represents m store) (index : ι) :
    store.lookup index = m.lookup index := by
  unfold SkippedKeys.lookup
  rw [same.keys]
  exact Finmap.lookup_toFinmap index m.entries

theorem nodup_order (same : Represents m store) : store.insertionOrder.Nodup := by
  rw [same.order]
  exact List.nodup_reverse.mpr m.entries.keys_nodup

theorem mem_keys (same : Represents m store) (index : ι) :
    index ∈ store.keys ↔ index ∈ m.entries := by
  rw [same.keys]
  exact Finmap.mem_toFinmap

theorem mem_order (same : Represents m store) (index : ι) :
    index ∈ store.insertionOrder ↔ index ∈ store.keys := by
  rw [same.mem_keys, same.order, List.mem_reverse]
  exact AList.mem_keys.symm

theorem len_le (same : Represents m store) : store.len ≤ MAX_SKIPPED_KEYS := by
  rw [same.len_eq]
  exact m.bounded

theorem evict_of_full (same : Represents m store)
    (full : m.entries.keys.length = MAX_SKIPPED_KEYS) :
    SkippedKeys.evict store.keys store.insertionOrder =
      (m.dropOldest.toFinmap, m.dropOldest.keys.reverse) := by
  have shorter := congrArg List.length (BoundedFifo.keys_dropOldest m)
  rw [List.length_dropLast, full] at shorter
  have room : m.dropOldest.toFinmap.keys.card < MAX_SKIPPED_KEYS := by
    show m.dropOldest.keys.length < MAX_SKIPPED_KEYS
    rw [shorter]
    decide
  have last : store.insertionOrder.head? = m.oldest? := by
    rw [same.order, List.head?_reverse]
    rfl
  have dropped : m.dropOldest.keys.reverse = store.insertionOrder.tail := by
    rw [same.order, BoundedFifo.keys_dropOldest, List.tail_reverse]
  cases order : store.insertionOrder with
  | nil =>
      have none_left := congrArg List.length (same.order.symm.trans order)
      rw [List.length_reverse, full] at none_left
      cases none_left
  | cons oldest younger =>
      rw [order, List.head?_cons] at last
      rw [order, List.tail_cons] at dropped
      have erased : store.keys.erase oldest = m.dropOldest.toFinmap := by
        rw [same.keys, Finmap.erase_toFinmap]
        unfold BoundedFifo.dropOldest
        rw [← last]
      have at_capacity : MAX_SKIPPED_KEYS ≤ store.keys.keys.card :=
        (same.len_eq.trans full).ge
      rw [SkippedKeys.evict, if_pos at_capacity, erased, SkippedKeys.evict_of_room _ _ room,
        dropped]

theorem insert (same : Represents m store) (index : ι) (messageKey : κ) :
    Represents (m.insert index messageKey) (store.insert index messageKey) := by
  by_cases present : index ∈ m.entries
  · have found : index ∈ store.keys := (same.mem_keys index).mpr present
    have entries : (m.insert index messageKey).entries = m.entries.replace index messageKey :=
      BoundedFifo.inserted_of_mem present messageKey
    rw [SkippedKeys.insert, if_pos found]
    constructor
    · rw [entries, toFinmap_replace messageKey present, same.keys]
      exact Finmap.insert_toFinmap index messageKey m.entries
    · rw [entries, AList.keys_replace]
      exact same.order
  · have missing : index ∉ store.keys := fun found => present ((same.mem_keys index).mp found)
    rw [SkippedKeys.insert, if_neg missing]
    by_cases room : m.entries.keys.length < MAX_SKIPPED_KEYS
    · have entries : (m.insert index messageKey).entries = m.entries.insert index messageKey :=
        BoundedFifo.inserted_of_room present room messageKey
      rw [SkippedKeys.evict_of_room _ _ (same.len_eq.trans_lt room)]
      constructor
      · rw [entries, ← Finmap.insert_toFinmap, ← same.keys]
      · rw [entries, AList.keys_insert, List.erase_of_not_mem present,
          List.reverse_cons, ← same.order]
    · have full : m.entries.keys.length = MAX_SKIPPED_KEYS := by
        have bounded := m.bounded
        omega
      have entries : (m.insert index messageKey).entries = m.dropOldest.insert index messageKey :=
        BoundedFifo.inserted_of_full present full messageKey
      have unmentioned : index ∉ m.dropOldest.keys := by
        rw [BoundedFifo.keys_dropOldest]
        exact fun member => present (List.mem_of_mem_dropLast member)
      rw [same.evict_of_full full]
      constructor
      · rw [entries]
        exact Finmap.insert_toFinmap index messageKey m.dropOldest
      · rw [entries, AList.keys_insert, List.erase_of_not_mem unmentioned, List.reverse_cons]

theorem take (same : Represents m store) (index : ι) :
    (store.take index).1 = (m.take index).1 ∧
      Represents (m.take index).2 (store.take index).2 := by
  cases found : m.lookup index with
  | none =>
      rw [SkippedKeys.take_of_none ((same.lookup_eq index).trans found),
        BoundedFifo.take_of_none found]
      exact ⟨rfl, same⟩
  | some messageKey =>
      rw [SkippedKeys.take_of_some ((same.lookup_eq index).trans found)]
      refine ⟨found.symm, ?_, ?_⟩
      · show store.keys.erase index = (m.entries.erase index).toFinmap
        rw [same.keys, Finmap.erase_toFinmap]
      · show store.insertionOrder.filter (fun k => k ≠ index) = (m.entries.erase index).keys.reverse
        rw [AList.keys_erase, m.entries.keys_nodup.erase_eq_filter, same.order, List.filter_reverse]
        congr 1
        apply List.filter_congr
        intro k _
        by_cases taken : k = index <;> simp [taken]

end Represents

/-- A call on the store of skipped keys. -/
inductive StoreCall (ι κ : Type) where
  | insert (index : ι) (messageKey : κ)
  | take (index : ι)

namespace SkippedKeys

/-- The store after a call, and what the call returns; an insertion returns nothing. -/
def perform (store : SkippedKeys ι κ) : StoreCall ι κ → Option κ × SkippedKeys ι κ
  | .insert index messageKey => (none, store.insert index messageKey)
  | .take index => store.take index

def performAll (store : SkippedKeys ι κ) : List (StoreCall ι κ) → List (Option κ) × SkippedKeys ι κ
  | [] => ([], store)
  | call :: calls =>
      let done := store.perform call
      let rest := performAll done.2 calls
      (done.1 :: rest.1, rest.2)

end SkippedKeys

namespace SkippedFifo

def perform (m : SkippedFifo ι κ) : StoreCall ι κ → Option κ × SkippedFifo ι κ
  | .insert index messageKey => (none, m.insert index messageKey)
  | .take index => m.take index

def performAll (m : SkippedFifo ι κ) : List (StoreCall ι κ) → List (Option κ) × SkippedFifo ι κ
  | [] => ([], m)
  | call :: calls =>
      let done := perform m call
      let rest := performAll done.2 calls
      (done.1 :: rest.1, rest.2)

end SkippedFifo

theorem Represents.perform {m : SkippedFifo ι κ} {store : SkippedKeys ι κ}
    (same : Represents m store) (call : StoreCall ι κ) :
    (store.perform call).1 = (SkippedFifo.perform m call).1 ∧
      Represents (SkippedFifo.perform m call).2 (store.perform call).2 := by
  cases call with
  | insert index messageKey => exact ⟨rfl, same.insert index messageKey⟩
  | take index => exact same.take index

theorem Represents.performAll {m : SkippedFifo ι κ} {store : SkippedKeys ι κ}
    (same : Represents m store) (calls : List (StoreCall ι κ)) :
    (store.performAll calls).1 = (SkippedFifo.performAll m calls).1 ∧
      Represents (SkippedFifo.performAll m calls).2 (store.performAll calls).2 := by
  induction calls generalizing m store with
  | nil => exact ⟨rfl, same⟩
  | cons call calls ih =>
      have step := same.perform call
      have rest := ih step.2
      refine ⟨?_, rest.2⟩
      show (store.perform call).1 :: _ = (SkippedFifo.perform m call).1 :: _
      rw [step.1, rest.1]

/-- Every sequence of calls on a new store returns what the reference model returns and
leaves what it leaves, with an order of eviction that lists each stored key once. -/
theorem skippedKeys_refines_fifo (calls : List (StoreCall ι κ)) :
    let store := (SkippedKeys.new.performAll calls).2
    let reference := (SkippedFifo.performAll BoundedFifo.empty calls).2
    store.insertionOrder.Nodup ∧
      (∀ index, index ∈ store.insertionOrder ↔ index ∈ store.keys) ∧
      store.len ≤ MAX_SKIPPED_KEYS ∧
      store.keys = reference.entries.toFinmap ∧
      store.insertionOrder = reference.entries.keys.reverse ∧
      (SkippedKeys.new.performAll calls).1 =
        (SkippedFifo.performAll BoundedFifo.empty calls).1 := by
  intro store reference
  obtain ⟨results, same⟩ := Represents.performAll (Represents.new (ι := ι) (κ := κ)) calls
  exact ⟨same.nodup_order, same.mem_order, same.len_le, same.keys, same.order, results⟩

end Hysj.Ratchet
