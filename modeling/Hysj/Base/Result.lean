import Mathlib.Data.List.Basic

set_option autoImplicit false

/- `Result` and its `?`. -/
namespace Hysj.Result

variable {ε ε' α β : Type}

@[simp] theorem bind_eq_ok {x : Except ε α} {f : α → Except ε β} {b : β} :
    x >>= f = .ok b ↔ ∃ a, x = .ok a ∧ f a = .ok b := by
  cases x with
  | error e => simp [bind, Except.bind]
  | ok a => simp [bind, Except.bind]

@[simp] theorem pure_eq_ok {a b : α} : (pure a : Except ε α) = .ok b ↔ a = b :=
  ⟨Except.ok.inj, congrArg Except.ok⟩

@[simp] theorem mapError_eq_ok {x : Except ε α} {f : ε → ε'} {a : α} :
    x.mapError f = .ok a ↔ x = .ok a := by
  cases x with
  | error e => exact ⟨fun same => (by cases same), fun same => (by cases same)⟩
  | ok b =>
      change (.ok b : Except ε' α) = .ok a ↔ _
      simp

/-- A fallible step on an `Option` goes through when there is no value, or the step does. -/
theorem mapM_eq_ok {f : α → Except ε β} {source : Option α} {target : Option β} :
    source.mapM f = .ok target ↔
      (source = none ∧ target = none) ∨
        ∃ a b, source = some a ∧ target = some b ∧ f a = .ok b := by
  cases source with
  | none =>
      change (.ok none : Except ε (Option β)) = .ok target ↔ _
      simp [eq_comm]
  | some a =>
      change some <$> f a = .ok target ↔ _
      cases result : f a with
      | error e =>
          change (.error e : Except ε (Option β)) = .ok target ↔ _
          simp [result]
      | ok b =>
          change (.ok (some b) : Except ε (Option β)) = .ok target ↔ _
          simp [result, eq_comm]

theorem ok_or_error (x : Except ε α) : (∃ a, x = .ok a) ∨ ∃ e, x = .error e := by
  cases x with
  | error e => exact Or.inr ⟨e, rfl⟩
  | ok a => exact Or.inl ⟨a, rfl⟩

theorem exists_mapM_eq_ok {f : α → Except ε β} {source : List α} :
    (∃ target, source.mapM f = .ok target) ↔ ∀ a ∈ source, ∃ b, f a = .ok b := by
  induction source with
  | nil => exact ⟨fun _ a member => (List.not_mem_nil member).elim, fun _ => ⟨[], rfl⟩⟩
  | cons a source ih =>
      rw [List.mapM_cons]
      simp only [bind_eq_ok, pure_eq_ok, List.forall_mem_cons, ← ih]
      constructor
      · rintro ⟨target, b, first, rest, through, rfl⟩
        exact ⟨⟨b, first⟩, rest, through⟩
      · rintro ⟨⟨b, first⟩, rest, through⟩
        exact ⟨b :: rest, b, first, rest, through, rfl⟩

theorem length_mapM {f : α → Except ε β} {source : List α} {target : List β}
    (through : source.mapM f = .ok target) : target.length = source.length := by
  induction source generalizing target with
  | nil =>
      obtain rfl := Except.ok.inj through
      rfl
  | cons a source ih =>
      rw [List.mapM_cons] at through
      simp only [bind_eq_ok, pure_eq_ok] at through
      obtain ⟨b, -, rest, later, rfl⟩ := through
      rw [List.length_cons, List.length_cons, ih later]

end Hysj.Result
