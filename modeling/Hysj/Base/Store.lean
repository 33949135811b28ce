import Mathlib.Data.List.AList

set_option autoImplicit false

namespace Hysj

/-- An entry of a store, with the time it goes away, if any. When it was written and under
which serial number its key appeared is history. -/
structure Entry (β : Type) where
  value : β
  expiresAt : Option Nat
  storedAt : Nat
  serial : Nat

/-- The entry has not expired. -/
def Entry.Live {β : Type} (entry : Entry β) (now : Nat) : Prop := ∀ t ∈ entry.expiresAt, now < t

instance {β : Type} (entry : Entry β) (now : Nat) : Decidable (entry.Live now) :=
  inferInstanceAs (Decidable (∀ t ∈ entry.expiresAt, now < t))

/-- A key-value store with a clock, whose entries may expire. -/
structure Store (κ β : Type) [DecidableEq κ] where
  now : Nat
  serial : Nat
  entries : AList fun _ : κ => Entry β

namespace Store

variable {κ β : Type} [DecidableEq κ]

def empty (now : Nat) : Store κ β := ⟨now, 0, ∅⟩

/-- What can be read under a key. -/
def peek (s : Store κ β) (key : κ) : Option (Entry β) :=
  (s.entries.lookup key).filter fun entry => entry.Live s.now

def get? (s : Store κ β) (key : κ) : Option β := (s.peek key).map Entry.value

def keys (s : Store κ β) : List κ := s.entries.keys.filter fun key => (s.peek key).isSome

/-- Write a value with a lifetime. A key that is there keeps its serial number. -/
def set (s : Store κ β) (key : κ) (value : β) (ttl : Option Nat) : Store κ β :=
  { s with
    serial := s.serial + 1
    entries := s.entries.insert key
      { value := value
        expiresAt := ttl.map fun n => s.now + n
        storedAt := s.now
        serial := ((s.peek key).map Entry.serial).getD s.serial } }

def del (s : Store κ β) (key : κ) : Store κ β := { s with entries := s.entries.erase key }

/-- Give a key that is there another lifetime. -/
def expire (s : Store κ β) (key : κ) (ttl : Nat) : Store κ β :=
  match s.peek key with
  | some entry =>
      { s with entries := s.entries.insert key { entry with expiresAt := some (s.now + ttl) } }
  | none => s

def advance (s : Store κ β) (duration : Nat) : Store κ β := { s with now := s.now + duration }

variable {s : Store κ β} {key other : κ} {value : β} {entry : Entry β} {ttl : Option Nat}

theorem peek_eq_some :
    s.peek key = some entry ↔ s.entries.lookup key = some entry ∧ entry.Live s.now := by
  rw [peek, Option.filter_eq_some_iff, decide_eq_true_iff]

theorem get?_eq_some :
    s.get? key = some value ↔ ∃ entry, s.peek key = some entry ∧ entry.value = value := by
  rw [get?, Option.map_eq_some_iff]

theorem get?_eq_none : s.get? key = none ↔ s.peek key = none := by
  rw [get?, Option.map_eq_none_iff]

theorem nodup_keys (s : Store κ β) : s.keys.Nodup := s.entries.keys_nodup.filter _

@[simp] theorem mem_keys : key ∈ s.keys ↔ (s.peek key).isSome := by
  rw [keys, List.mem_filter]
  constructor
  · exact And.right
  · intro present
    obtain ⟨entry, found⟩ := Option.isSome_iff_exists.mp present
    refine ⟨AList.mem_keys.mp (AList.lookup_isSome.mp ?_), present⟩
    rw [(peek_eq_some.mp found).1]
    rfl

@[simp] theorem now_set : (s.set key value ttl).now = s.now := rfl

@[simp] theorem now_del : (s.del key).now = s.now := rfl

@[simp] theorem now_expire (n : Nat) : (s.expire key n).now = s.now := by
  unfold expire
  split <;> rfl

@[simp] theorem now_advance (n : Nat) : (s.advance n).now = s.now + n := rfl

@[simp] theorem peek_empty (now : Nat) : (empty now : Store κ β).peek key = none := rfl

theorem peek_set (lasts : ∀ n ∈ ttl, 0 < n) : (s.set key value ttl).peek key =
    some ⟨value, ttl.map fun n => s.now + n, s.now,
      ((s.peek key).map Entry.serial).getD s.serial⟩ := by
  refine peek_eq_some.mpr ⟨AList.lookup_insert _, ?_⟩
  intro t expires
  obtain ⟨n, given, rfl⟩ := Option.map_eq_some_iff.mp expires
  have long := lasts n given
  show s.now < s.now + n
  omega

theorem of_peek_set (found : (s.set key value ttl).peek key = some entry) :
    entry.value = value ∧ entry.expiresAt = ttl.map (fun n => s.now + n) ∧
      entry.storedAt = s.now := by
  have written := (peek_eq_some.mp found).1
  have new : (s.set key value ttl).entries.lookup key = _ := AList.lookup_insert _
  rw [new] at written
  rw [← Option.some.inj written]
  exact ⟨rfl, rfl, rfl⟩

theorem get?_set (lasts : ∀ n ∈ ttl, 0 < n) : (s.set key value ttl).get? key = some value := by
  rw [get?, peek_set lasts]
  rfl

@[simp] theorem peek_set_of_ne (different : other ≠ key) :
    (s.set key value ttl).peek other = s.peek other := by
  unfold peek set
  rw [AList.lookup_insert_ne different]

@[simp] theorem peek_del : (s.del key).peek key = none := by
  unfold peek del
  rw [AList.lookup_erase]
  rfl

@[simp] theorem peek_del_of_ne (different : other ≠ key) :
    (s.del key).peek other = s.peek other := by
  unfold peek del
  rw [AList.lookup_erase_ne different]

@[simp] theorem get?_set_of_ne (different : other ≠ key) :
    (s.set key value ttl).get? other = s.get? other := by
  rw [get?, peek_set_of_ne different, get?]

@[simp] theorem get?_del : (s.del key).get? key = none := by
  rw [get?, peek_del]
  rfl

@[simp] theorem get?_del_of_ne (different : other ≠ key) :
    (s.del key).get? other = s.get? other := by
  rw [get?, peek_del_of_ne different, get?]

@[simp] theorem peek_expire_of_ne {n : Nat} (different : other ≠ key) :
    (s.expire key n).peek other = s.peek other := by
  unfold expire
  split
  · unfold peek
    rw [AList.lookup_insert_ne different]
  · rfl

theorem expire_of_none {n : Nat} (absent : s.peek key = none) : s.expire key n = s := by
  unfold expire
  rw [absent]

theorem peek_expire {n : Nat} (found : s.peek key = some entry) (lasts : 0 < n) :
    (s.expire key n).peek key = some { entry with expiresAt := some (s.now + n) } := by
  unfold expire
  rw [found]
  refine peek_eq_some.mpr ⟨AList.lookup_insert _, ?_⟩
  intro t expires
  obtain rfl := Option.some.inj expires
  show s.now < s.now + n
  omega

theorem peek_advance {n : Nat} :
    (s.advance n).peek key = some entry ↔ s.peek key = some entry ∧ entry.Live (s.now + n) := by
  rw [peek_eq_some, peek_eq_some]
  constructor
  · rintro ⟨found, live⟩
    refine ⟨⟨found, fun t expires => ?_⟩, live⟩
    have later : s.now + n < t := live t expires
    omega
  · rintro ⟨⟨found, -⟩, live⟩
    exact ⟨found, live⟩

end Store

end Hysj
