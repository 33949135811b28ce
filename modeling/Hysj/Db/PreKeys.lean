import Hysj.Db.Tables

set_option autoImplicit false

/- The statements over one-time pre-keys. -/
namespace Hysj.Db

open Crypto Shared

/-- `SELECT identity_public_key, identity_dh_public_key FROM users WHERE id = ..` -/
def findIdentityKeys (userId : Uuid) : Statement (Bytes × Bytes) := fun t =>
  match t.users.find? fun row => row.id = userId with
  | some row => (.ok (row.identityPublicKey, row.identityDhPublicKey), t)
  | none => (.error .notFound, t)

/-- The device has the key, and nobody was given it. -/
abbrev PreKey.Available (row : PreKey) (deviceId : Uuid) : Prop :=
  row.deviceId = deviceId ∧ row.isUsed = false

/-- `ORDER BY id ASC LIMIT 1` -/
def oldest : List PreKey → Option PreKey
  | [] => none
  | row :: rows =>
      match oldest rows with
      | none => some row
      | some other => if other.id < row.id then some other else some row

/-- The subselect of `claim_one_time_pre_key`, which skips the rows that are locked and locks the
one it finds. -/
def lockPreKey (deviceId : Uuid) : Statement (Option Nat) := fun t =>
  match oldest (t.preKeys.filter fun row => row.Available deviceId ∧ row.id ∉ t.preKeyLocks) with
  | some row => (.ok (some row.id), { t with preKeyLocks := row.id :: t.preKeyLocks })
  | none => (.ok none, t)

/-- The lock of a row ends with the statement. -/
def Tables.unlocked (t : Tables) (id : Nat) : Tables :=
  { t with preKeyLocks := t.preKeyLocks.filter fun other => other ≠ id }

def PreKey.used (id : Nat) (row : PreKey) : PreKey :=
  if row.id = id then { row with isUsed := true } else row

/-- The update of `claim_one_time_pre_key`, for the row that is locked. -/
def usePreKey (id : Nat) : Statement (Option PreKey) := fun t =>
  let preKeys := t.preKeys.map (PreKey.used id)
  (.ok (preKeys.find? fun row => row.id = id), { t.unlocked id with preKeys := preKeys })

/-- The keys of a device that nobody was given. -/
def Tables.available (t : Tables) (deviceId : Uuid) : List PreKey :=
  t.preKeys.filter fun row => row.Available deviceId

def countAvailablePreKeys (deviceId : Uuid) : Statement Nat := fun t =>
  (.ok (t.available deviceId).length, t)

section

variable {t : Tables} {row : PreKey} {rows : List PreKey} {id : Nat} {d : Uuid} {key : Bytes}

theorem mem_of_oldest (found : oldest rows = some row) : row ∈ rows := by
  induction rows generalizing row with
  | nil => cases found
  | cons first rest ih =>
      unfold oldest at found
      split at found
      · obtain rfl := Option.some.inj found
        exact List.mem_cons_self
      · rename_i other later
        split at found
        · obtain rfl := Option.some.inj found
          exact List.mem_cons_of_mem _ (ih later)
        · obtain rfl := Option.some.inj found
          exact List.mem_cons_self

theorem oldest_eq_none : oldest rows = none ↔ rows = [] := by
  cases rows with
  | nil => exact iff_of_true rfl rfl
  | cons first rest =>
      apply iff_of_false
      · unfold oldest
        split
        · exact Option.some_ne_none _
        · split
          · exact Option.some_ne_none _
          · exact Option.some_ne_none _
      · exact List.cons_ne_nil _ _

/-- The subselect answers with a key that can be given, which it locks, or every such key is locked
by others. -/
theorem lockPreKey_cases (t : Tables) (d : Uuid) :
    (∃ row ∈ t.preKeys, row.Available d ∧ row.id ∉ t.preKeyLocks ∧
      lockPreKey d t = (.ok (some row.id), { t with preKeyLocks := row.id :: t.preKeyLocks })) ∨
    (∀ row ∈ t.preKeys, row.Available d → row.id ∈ t.preKeyLocks) ∧
      lockPreKey d t = (.ok none, t) := by
  unfold lockPreKey
  cases found : oldest (t.preKeys.filter fun row => row.Available d ∧ row.id ∉ t.preKeyLocks) with
  | some row =>
      obtain ⟨there, free⟩ := List.mem_filter.mp (mem_of_oldest found)
      obtain ⟨available, free⟩ := of_decide_eq_true free
      exact Or.inl ⟨row, there, available, free, rfl⟩
  | none =>
      have nothing := oldest_eq_none.mp found
      rw [List.filter_eq_nil_iff] at nothing
      refine Or.inr ⟨?_, rfl⟩
      intro row there available
      by_contra free
      exact nothing row there (decide_eq_true ⟨available, free⟩)

@[simp] theorem PreKey.id_used : (row.used id).id = row.id := by
  unfold used
  split <;> rfl

@[simp] theorem PreKey.deviceId_used : (row.used id).deviceId = row.deviceId := by
  unfold used
  split <;> rfl

theorem PreKey.used_of_ne (other : row.id ≠ id) : row.used id = row := if_neg other

theorem PreKey.used_of_isUsed (gone : row.isUsed = true) : row.used id = row := by
  unfold used
  split
  · cases row
    obtain rfl : _ = true := gone
    rfl
  · rfl

theorem PreKey.Available.of_used (available : (row.used id).Available d) : row.Available d := by
  obtain ⟨ofDevice, free⟩ := available
  refine ⟨PreKey.deviceId_used.symm.trans ofDevice, ?_⟩
  unfold used at free
  split at free
  · cases free
  · exact free

/-- The update answers with the row of the key, which it marks. -/
theorem usePreKey_fst (ids : (t.preKeys.map PreKey.id).Nodup) (there : row ∈ t.preKeys)
    (is : row.id = id) : (usePreKey id t).1 = .ok (some { row with isUsed := true }) := by
  have marked : row.used id = { row with isUsed := true } := if_pos is
  have listed : row.used id ∈ t.preKeys.map (PreKey.used id) := List.mem_map_of_mem there
  unfold usePreKey
  dsimp only
  congr 1
  cases found : (t.preKeys.map (PreKey.used id)).find? (fun row => row.id = id) with
  | none =>
      have absent := List.find?_eq_none.mp found _ listed
      simp [is] at absent
  | some other =>
      obtain ⟨first, known, rfl⟩ := List.mem_map.mp (List.mem_of_find?_eq_some found)
      have same := List.find?_some found
      rw [decide_eq_true_iff, PreKey.id_used, ← is] at same
      rw [List.inj_on_of_nodup_map ids known there same, marked]

theorem ids_usePreKey : (usePreKey id t).2.preKeys.map PreKey.id = t.preKeys.map PreKey.id := by
  show (t.preKeys.map (PreKey.used id)).map PreKey.id = _
  rw [List.map_map]
  apply List.map_congr_left
  intro row _
  exact PreKey.id_used

end

end Hysj.Db
