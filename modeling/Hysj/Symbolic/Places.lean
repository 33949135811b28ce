import Hysj.Symbolic.Term

set_option autoImplicit false

/- Every key of a session has a place: the number of root steps behind its chain, and its
index on the chain. A receiver moves over the places in order, so a place it has passed
without storing its key is spent for good. -/
namespace Hysj.Symbolic

open Ratchet

/-- How many root steps lie behind a root key. -/
def Term.rootDepth : Term → Option Nat
  | .sharedSecret => some 0
  | .rootKey rk _ => rk.rootDepth.map fun depth => depth + 1
  | _ => none

def Term.chainPlace : Term → Option (Nat × Nat)
  | .chainKey rk _ => rk.rootDepth.map fun depth => (depth, 0)
  | .nextChain ck => ck.chainPlace.map fun place => (place.1, place.2 + 1)
  | _ => none

def Term.keyPlace : Term → Option (Nat × Nat)
  | .messageKey ck => ck.chainPlace
  | _ => none

theorem chainPlace_chainKeyAt {ck : Term} {k i : Nat} (place : ck.chainPlace = some (k, i))
    (n : Nat) : (chainKeyAt symbolicOps ck n).chainPlace = some (k, i + n) := by
  induction n with
  | zero => exact place
  | succ n ih =>
      rw [chainKeyAt_succ]
      show Option.map _ (chainKeyAt symbolicOps ck n).chainPlace = _
      rw [ih]
      rfl

/-- A place behind a receiver that has taken `depth` root steps and `r` keys of its current
receiving chain. Its receiving chains are every second one, the current one two steps back. -/
def Passed (depth r : Nat) (place : Nat × Nat) : Prop :=
  place.1 % 2 = depth % 2 ∧ place.1 + 2 ≤ depth ∧ (place.1 + 2 = depth → place.2 < r)

abbrev SymbolicStore := SkippedKeys (Term × UInt32) Term

/-- The keys in a store are keys of passed places, one for each place. -/
structure StoreAt (depth r : Nat) (store : SymbolicStore) : Prop where
  stocked : ∀ index key, store.lookup index = some key →
    ∃ place, key.keyPlace = some place ∧ Passed depth r place
  apart : ∀ index index' key key', store.lookup index = some key →
    store.lookup index' = some key' → key.keyPlace = key'.keyPlace → index = index'

/-- The receiver can still come to the key of a place: it lies ahead or is stored. -/
def Available (store : SymbolicStore) (depth r : Nat) (place : Nat × Nat) : Prop :=
  Passed depth r place → ∃ index key, store.lookup index = some key ∧ key.keyPlace = some place

/-- A receiver moves on: passed places stay behind it, and spent keys stay spent. -/
structure Onward (store : SymbolicStore) (depth r : Nat) (store' : SymbolicStore)
    (depth' r' : Nat) : Prop where
  passed : ∀ place, Passed depth r place → Passed depth' r' place
  available : ∀ place, Available store' depth' r' place → Available store depth r place

theorem Onward.refl (store : SymbolicStore) (depth r : Nat) : Onward store depth r store depth r :=
  ⟨fun _ passed => passed, fun _ available => available⟩

theorem Onward.trans {store store' store'' : SymbolicStore} {depth depth' depth'' r r' r'' : Nat}
    (first : Onward store depth r store' depth' r')
    (second : Onward store' depth' r' store'' depth'' r'') :
    Onward store depth r store'' depth'' r'' where
  passed place passed := second.passed place (first.passed place passed)
  available place available := first.available place (second.available place available)

theorem StoreAt.new (depth r : Nat) : StoreAt depth r SkippedKeys.new where
  stocked index key present := by
    rw [SkippedKeys.lookup_new] at present
    cases present
  apart index _ key _ present := by
    rw [SkippedKeys.lookup_new] at present
    cases present

theorem StoreAt.pass {store : SymbolicStore} {depth r depth' r' : Nat} (at_ : StoreAt depth r store)
    (passes : ∀ place, Passed depth r place → Passed depth' r' place) :
    StoreAt depth' r' store ∧ Onward store depth r store depth' r' := by
  refine ⟨⟨?_, at_.apart⟩, passes, ?_⟩
  · intro index key present
    obtain ⟨place, keyPlace, passed⟩ := at_.stocked index key present
    exact ⟨place, keyPlace, passes place passed⟩
  · intro place available passed
    exact available (passes place passed)

theorem passed_succ {depth r : Nat} {place : Nat × Nat} (passed : Passed depth r place) :
    Passed depth (r + 1) place := by
  unfold Passed at passed ⊢
  omega

theorem passed_ratchet {depth r : Nat} {place : Nat × Nat} (passed : Passed depth r place) :
    Passed (depth + 2) 0 place := by
  unfold Passed at passed ⊢
  omega

theorem StoreAt.insert {store : SymbolicStore} {depth r : Nat} (at_ : StoreAt depth r store)
    (started : 2 ≤ depth) (index : Term × UInt32) {key : Term}
    (here : key.keyPlace = some (depth - 2, r)) :
    StoreAt depth (r + 1) (store.insert index key) ∧
      Onward store depth r (store.insert index key) depth (r + 1) := by
  have notPassed : ¬ Passed depth r (depth - 2, r) := by
    unfold Passed
    omega
  have ahead : ∀ index' key', store.lookup index' = some key' →
      key'.keyPlace ≠ some (depth - 2, r) := by
    intro index' key' present same
    obtain ⟨place, keyPlace, passed⟩ := at_.stocked index' key' present
    obtain rfl := Option.some.inj (keyPlace.symm.trans same)
    exact notPassed passed
  refine ⟨⟨?_, ?_⟩, fun _ => passed_succ, ?_⟩
  · intro index' key' present
    rcases SkippedKeys.lookup_insert_cases present with ⟨rfl, rfl⟩ | ⟨-, old⟩
    · refine ⟨_, here, ?_⟩
      unfold Passed
      omega
    · obtain ⟨place, keyPlace, passed⟩ := at_.stocked index' key' old
      exact ⟨place, keyPlace, passed_succ passed⟩
  · intro left right leftKey rightKey leftPresent rightPresent same
    rcases SkippedKeys.lookup_insert_cases leftPresent with ⟨rfl, rfl⟩ | ⟨-, leftOld⟩
    · rcases SkippedKeys.lookup_insert_cases rightPresent with ⟨rfl, rfl⟩ | ⟨-, rightOld⟩
      · rfl
      · exact absurd (same.symm.trans here) (ahead right rightKey rightOld)
    · rcases SkippedKeys.lookup_insert_cases rightPresent with ⟨rfl, rfl⟩ | ⟨-, rightOld⟩
      · exact absurd (same.trans here) (ahead left leftKey leftOld)
      · exact at_.apart left right leftKey rightKey leftOld rightOld same
  · intro place available passed
    obtain ⟨index', key', present, keyPlace⟩ := available (passed_succ passed)
    rcases SkippedKeys.lookup_insert_cases present with ⟨rfl, rfl⟩ | ⟨-, old⟩
    · obtain rfl := Option.some.inj (keyPlace.symm.trans here)
      exact absurd passed notPassed
    · exact ⟨index', key', old, keyPlace⟩

/-- The loop of `skip_missed_messages` stores the keys from the receiver's place on. -/
theorem StoreAt.skipLoop {depth : Nat} (started : 2 ≤ depth) (dhHex : Term) (count : Nat)
    {n : UInt32} {ck : Term} {store : SymbolicStore} {r : Nat} (at_ : StoreAt depth r store)
    (here : ck.chainPlace = some (depth - 2, r)) :
    StoreAt depth (r + count) (RatchetState.skipLoop symbolicOps dhHex count n ck store).2 ∧
      Onward store depth r (RatchetState.skipLoop symbolicOps dhHex count n ck store).2 depth
        (r + count) := by
  induction count generalizing n ck store r with
  | zero => exact ⟨at_, Onward.refl store depth r⟩
  | succ count ih =>
      have place : (symbolicOps.deriveChainKey ck).2.keyPlace = some (depth - 2, r) := here
      obtain ⟨inserted, onward⟩ := at_.insert started (dhHex, n) place
      have next : (symbolicOps.deriveChainKey ck).1.chainPlace = some (depth - 2, r + 1) :=
        chainPlace_chainKeyAt here 1
      obtain ⟨rest, further⟩ := ih (n := n + 1) inserted next
      rw [RatchetState.skipLoop, show r + (count + 1) = r + 1 + count by omega]
      exact ⟨rest, onward.trans further⟩

theorem StoreAt.take {store : SymbolicStore} {depth r : Nat} (at_ : StoreAt depth r store)
    {index : Term × UInt32} {key : Term} (present : store.lookup index = some key) :
    StoreAt depth r (store.take index).2 ∧ Onward store depth r (store.take index).2 depth r ∧
      ∃ place, key.keyPlace = some place ∧ Available store depth r place ∧
        ¬ Available (store.take index).2 depth r place := by
  have old : ∀ index' key', (store.take index).2.lookup index' = some key' →
      index' ≠ index ∧ store.lookup index' = some key' := by
    intro index' key' left
    rw [SkippedKeys.lookup_take] at left
    split at left
    · cases left
    · rename_i other
      exact ⟨other, left⟩
  refine ⟨⟨?_, ?_⟩, ⟨fun _ passed => passed, ?_⟩, ?_⟩
  · intro index' key' left
    exact at_.stocked index' key' (old index' key' left).2
  · intro left right leftKey rightKey leftPresent rightPresent
    exact at_.apart left right leftKey rightKey (old _ _ leftPresent).2 (old _ _ rightPresent).2
  · intro place available passed
    obtain ⟨index', key', left, keyPlace⟩ := available passed
    exact ⟨index', key', (old index' key' left).2, keyPlace⟩
  · obtain ⟨place, keyPlace, passed⟩ := at_.stocked index key present
    refine ⟨place, keyPlace, fun _ => ⟨index, key, present, keyPlace⟩, ?_⟩
    intro available
    obtain ⟨index', key', left, samePlace⟩ := available passed
    obtain ⟨other, still⟩ := old index' key' left
    exact other (at_.apart index' index key' key still present (samePlace.trans keyPlace.symm))

theorem StoreAt.spend {store : SymbolicStore} {depth r : Nat} (at_ : StoreAt depth r store)
    (started : 2 ≤ depth) :
    Available store depth r (depth - 2, r) ∧ ¬ Available store depth (r + 1) (depth - 2, r) := by
  have notPassed : ¬ Passed depth r (depth - 2, r) := by
    unfold Passed
    omega
  constructor
  · intro passed
    exact absurd passed notPassed
  · intro available
    obtain ⟨index, key, present, keyPlace⟩ := available (by unfold Passed; omega)
    obtain ⟨place, samePlace, passed⟩ := at_.stocked index key present
    obtain rfl := Option.some.inj (samePlace.symm.trans keyPlace)
    exact notPassed passed

end Hysj.Symbolic
