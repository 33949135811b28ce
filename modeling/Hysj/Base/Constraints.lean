import Mathlib.Data.List.Nodup

set_option autoImplicit false

/- Tables with a key, and what insertions, updates and deletions keep of it. -/
namespace Hysj

variable {ρ κ : Type}

/-- No two rows have one key. -/
def Unique (key : ρ → κ) (rows : List ρ) : Prop := (rows.map key).Nodup

instance [DecidableEq κ] (key : ρ → κ) (rows : List ρ) : Decidable (Unique key rows) :=
  inferInstanceAs (Decidable (rows.map key).Nodup)

namespace Unique

variable {key : ρ → κ} {rows : List ρ} {row row' : ρ}

theorem nil : Unique key [] := List.nodup_nil

theorem append (unique : Unique key rows) (fresh : ∀ old ∈ rows, key old ≠ key row) :
    Unique key (rows ++ [row]) := by
  have apart : key row ∉ rows.map key := by
    intro member
    obtain ⟨old, there, same⟩ := List.mem_map.mp member
    exact fresh old there same
  show ((rows ++ [row]).map key).Nodup
  rw [List.map_append, List.map_singleton, ← List.concat_eq_append]
  exact List.Nodup.concat apart unique

theorem filter (unique : Unique key rows) (keep : ρ → Bool) : Unique key (rows.filter keep) :=
  unique.sublist (List.filter_sublist.map key)

/-- Rows that are changed in place keep the keys apart if none gets another key. -/
theorem map (unique : Unique key rows) {change : ρ → ρ} (same : ∀ row, key (change row) = key row) :
    Unique key (rows.map change) := by
  have keys : (rows.map change).map key = rows.map key := by
    simp only [List.map_map, Function.comp_def, same]
  unfold Unique
  rw [keys]
  exact unique

theorem eq_of_key (unique : Unique key rows) (there : row ∈ rows) (there' : row' ∈ rows)
    (same : key row = key row') : row = row' := List.inj_on_of_nodup_map unique there there' same

theorem find? [DecidableEq κ] (unique : Unique key rows) (there : row ∈ rows) :
    rows.find? (fun old => key old = key row) = some row := by
  cases found : rows.find? fun old => key old = key row with
  | none =>
      have none_has := List.find?_eq_none.mp found row there
      simp at none_has
  | some old =>
      have same : key old = key row := by simpa using List.find?_some found
      rw [unique.eq_of_key (List.mem_of_find?_eq_some found) there same]

/-- Rows that are set to one key keep the keys apart if no other row has it. -/
theorem set [DecidableEq κ] {ι : Type} [DecidableEq ι] {id : ρ → ι} {i : ι} {k : κ} {change : ρ → ρ}
    (unique : Unique key rows) (ids : Unique id rows) (becomes : ∀ row, key (change row) = k)
    (free : ∀ row ∈ rows, id row ≠ i → key row ≠ k) :
    Unique key (rows.map fun row => if id row = i then change row else row) := by
  induction rows with
  | nil => exact List.nodup_nil
  | cons first rows ih =>
      obtain ⟨new, rest⟩ := List.nodup_cons.mp unique
      obtain ⟨alone, others⟩ := List.nodup_cons.mp ids
      have inner := ih rest others fun row there => free row (List.mem_cons_of_mem _ there)
      refine List.nodup_cons.mpr ⟨?_, inner⟩
      intro member
      simp only [List.map_map, List.mem_map, Function.comp_apply] at member
      obtain ⟨row, there, same⟩ := member
      have apart : id row ≠ id first := fun shared =>
        alone (List.mem_map.mpr ⟨row, there, shared⟩)
      by_cases isFirst : id first = i
      · have other : id row ≠ i := fun is => apart (is.trans isFirst.symm)
        rw [if_pos isFirst, if_neg other, becomes] at same
        exact free row (List.mem_cons_of_mem _ there) other same
      · rw [if_neg isFirst] at same
        by_cases isRow : id row = i
        · rw [if_pos isRow, becomes] at same
          exact free first List.mem_cons_self isFirst same.symm
        · rw [if_neg isRow] at same
          exact new (List.mem_map.mpr ⟨row, there, same⟩)

end Unique

section

variable {key : ρ → κ} {rows : List ρ} {row : ρ} {P : ρ → Prop}

theorem forall_mem_concat (each : ∀ old ∈ rows, P old) (last : P row) :
    ∀ old ∈ rows ++ [row], P old :=
  List.forall_mem_append.mpr ⟨each, List.forall_mem_singleton.mpr last⟩

theorem forall_mem_filter (each : ∀ old ∈ rows, P old) (keep : ρ → Bool) :
    ∀ old ∈ rows.filter keep, P old := fun old member => each old (List.mem_of_mem_filter member)

theorem forall_mem_map {change : ρ → ρ} (each : ∀ old ∈ rows, P (change old)) :
    ∀ new ∈ rows.map change, P new := List.forall_mem_map.mpr each

theorem exists_mem_map {k : κ} {change : ρ → ρ} (same : ∀ row, key (change row) = key row)
    (has : ∃ row ∈ rows, key row = k) : ∃ row ∈ rows.map change, key row = k := by
  obtain ⟨row, member, is⟩ := has
  exact ⟨change row, List.mem_map_of_mem member, (same row).trans is⟩

theorem exists_mem_concat {k : κ} (has : ∃ old ∈ rows, key old = k) :
    ∃ old ∈ rows ++ [row], key old = k := by
  obtain ⟨old, member, is⟩ := has
  exact ⟨old, List.mem_append_left _ member, is⟩

theorem exists_mem_filter {k : κ} {keep : ρ → Bool} (has : ∃ row ∈ rows, key row = k)
    (stays : ∀ row, key row = k → keep row = true) : ∃ row ∈ rows.filter keep, key row = k := by
  obtain ⟨row, member, is⟩ := has
  exact ⟨row, List.mem_filter.mpr ⟨member, stays row is⟩, is⟩

/-- No row has a pair of columns that was looked for and not found. -/
theorem pair_ne_of_any {α β : Type} [DecidableEq α] [DecidableEq β] {left : ρ → α} {right : ρ → β}
    {a : α} {b : β} (fresh : ¬ (rows.any fun old => left old = a ∧ right old = b) = true) :
    ∀ old ∈ rows, (left old, right old) ≠ (a, b) := by
  intro old member same
  exact fresh (List.any_eq_true.mpr ⟨old, member, decide_eq_true (Prod.mk.inj same)⟩)

theorem column_ite {change : ρ → ρ} {P : ρ → Prop} [DecidablePred P]
    (kept : ∀ row, key (change row) = key row) (row : ρ) :
    key (if P row then change row else row) = key row := by
  split
  · exact kept row
  · rfl

section

variable {change : ρ → ρ} {P : ρ → Prop} [DecidablePred P]

theorem Unique.update (unique : Unique key rows) (kept : ∀ row, key (change row) = key row) :
    Unique key (rows.map fun row => if P row then change row else row) :=
  unique.map (column_ite kept)

theorem forall_mem_update {Q : ρ → Prop} (each : ∀ old ∈ rows, Q old)
    (kept : ∀ row, Q row → Q (change row)) :
    ∀ new ∈ rows.map fun row => if P row then change row else row, Q new := by
  refine forall_mem_map fun old there => ?_
  split
  · exact kept old (each old there)
  · exact each old there

theorem exists_mem_update {k : κ} (kept : ∀ row, key (change row) = key row)
    (has : ∃ row ∈ rows, key row = k) :
    ∃ row ∈ rows.map fun row => if P row then change row else row, key row = k :=
  exists_mem_map (column_ite kept) has

end

end

end Hysj
