import Mathlib.Data.Set.Basic

set_option autoImplicit false

/- Deletion of rows to which other rows refer, as SQL defines it. -/
namespace Hysj

/-- What a foreign key says of the deletion of the row that it refers to. -/
inductive OnDelete where
  | cascade
  | setNull
  | noAction
  deriving DecidableEq

structure Reference (κ : Type) where
  target : κ
  onDelete : OnDelete

/-- Rows, with the key by which others refer to them and the references that they hold. -/
structure Schema (ρ κ : Type) where
  key : ρ → Option κ
  refs : ρ → List (Reference κ)
  /-- null in place of those references to deleted rows that ask for it -/
  nullify : (κ → Prop) → ρ → ρ
  key_nullify : ∀ gone row, key (nullify gone row) = key row
  refs_nullify : ∀ gone row ref, ref ∈ refs (nullify gone row) ↔
    ref ∈ refs row ∧ ¬ (ref.onDelete = .setNull ∧ gone ref.target)

namespace Schema

variable {ρ κ : Type} (S : Schema ρ κ) (rows : Set ρ) (k : κ)

/-- The rows that a deletion of the rows with a key removes. -/
inductive Doomed : ρ → Prop where
  | target {row : ρ} (member : row ∈ rows) (has : S.key row = some k) : Doomed row
  | cascade {row parent : ρ} {k' : κ} (member : row ∈ rows)
      (refers : ⟨k', .cascade⟩ ∈ S.refs row) (has : S.key parent = some k')
      (doomed : Doomed parent) : Doomed row

/-- A removed row has the key. -/
def Gone (k' : κ) : Prop := ∃ row, S.Doomed rows k row ∧ S.key row = some k'

/-- A row that stays refers to one that would go, and its foreign key has no action. -/
def Blocked : Prop :=
  ∃ row ∈ rows, ¬ S.Doomed rows k row ∧ ∃ k', ⟨k', .noAction⟩ ∈ S.refs row ∧ S.Gone rows k k'

/-- The rows after the deletion. -/
def remaining : Set ρ :=
  {row | ∃ old ∈ rows, ¬ S.Doomed rows k old ∧ row = S.nullify (S.Gone rows k) old}

/-- No reference dangles. -/
def Consistent : Prop :=
  ∀ row ∈ rows, ∀ ref ∈ S.refs row, ∃ parent ∈ rows, S.key parent = some ref.target

variable {S rows k} {row : ρ}

theorem Doomed.mem (doomed : S.Doomed rows k row) : row ∈ rows := by
  cases doomed with
  | target member has => exact member
  | cascade member refers has doomed => exact member

theorem gone_of_mem (member : row ∈ rows) (has : S.key row = some k) : S.Gone rows k k :=
  ⟨row, .target member has, has⟩

/-- After a deletion that is not blocked no row refers to a removed one. -/
theorem not_gone_of_remaining (free : ¬ S.Blocked rows k) (stays : row ∈ S.remaining rows k)
    {ref : Reference κ} (refers : ref ∈ S.refs row) : ¬ S.Gone rows k ref.target := by
  intro gone
  obtain ⟨old, member, spared, rfl⟩ := stays
  obtain ⟨held, nulled⟩ := (S.refs_nullify _ _ _).mp refers
  obtain ⟨target, onDelete⟩ := ref
  cases onDelete with
  | cascade =>
      obtain ⟨parent, doomed, has⟩ := gone
      exact spared (.cascade member held has doomed)
  | setNull => exact nulled ⟨rfl, gone⟩
  | noAction => exact free ⟨old, member, spared, target, held, gone⟩

theorem Consistent.remaining (consistent : S.Consistent rows) (free : ¬ S.Blocked rows k) :
    S.Consistent (S.remaining rows k) := by
  intro row stays ref refers
  have there := not_gone_of_remaining free stays refers
  obtain ⟨old, member, -, rfl⟩ := stays
  obtain ⟨parent, present, has⟩ := consistent old member ref ((S.refs_nullify _ _ _).mp refers).1
  have spared : ¬ S.Doomed rows k parent := fun doomed => there ⟨parent, doomed, has⟩
  refine ⟨_, ⟨parent, present, spared, rfl⟩, ?_⟩
  rw [S.key_nullify, has]

end Schema

end Hysj
