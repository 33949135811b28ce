import Mathlib.Data.List.Induction
import Mathlib.Logic.Function.Basic

set_option autoImplicit false

/- A table that remembers computed values under an index of the arguments, which need not tell the
arguments apart. -/
namespace Hysj.Memo

section

variable {α β γ : Type} [DecidableEq β]

/-- A value that is there is given out, another is computed and remembered. -/
def ask (index : α → β) (compute : α → γ) (t : β → Option γ) (a : α) : γ × (β → Option γ) :=
  match t (index a) with
  | some value => (value, t)
  | none => (compute a, Function.update t (index a) (some (compute a)))

inductive Event (α : Type) where
  | ask (a : α)
  | clear

variable (index : α → β) (compute : α → γ)

def next (t : β → Option γ) : Event α → (β → Option γ)
  | .ask a => (ask index compute t a).2
  | .clear => fun _ => none

/-- The table after events. -/
def after (t : β → Option γ) (events : List (Event α)) : β → Option γ :=
  events.foldl (next index compute) t

/-- Whatever is asked for, the answer is the computed value. -/
def Transparent (events : List (Event α)) : Prop :=
  ∀ before a later, events = before ++ .ask a :: later →
    (ask index compute (after index compute (fun _ => none) before) a).1 = compute a

/-- Two that are asked for under one index with no clearing between them have one value. -/
def Agreeing (events : List (Event α)) : Prop :=
  ∀ before a between a' later, events = before ++ .ask a :: (between ++ .ask a' :: later) →
    .clear ∉ between → index a = index a' → compute a = compute a'

variable {index compute} {t : β → Option γ} {a : α} {b : β} {value : γ} {events : List (Event α)}

theorem ask_of_none (absent : t (index a) = none) : ask index compute t a =
    (compute a, Function.update t (index a) (some (compute a))) := by
  unfold ask
  rw [absent]

theorem ask_of_some (there : t (index a) = some value) : ask index compute t a = (value, t) := by
  unfold ask
  rw [there]

theorem remembered (index : α → β) (compute : α → γ) (t : β → Option γ) (a : α) :
    (ask index compute t a).2 (index a) = some (ask index compute t a).1 := by
  cases there : t (index a) with
  | none =>
      rw [ask_of_none there]
      exact Function.update_self ..
  | some value =>
      rw [ask_of_some there]
      exact there

/-- What is remembered was there before, or was computed just now. -/
theorem of_next (there : next index compute t (.ask a) b = some value) :
    t b = some value ∨ index a = b ∧ value = compute a := by
  rw [next] at there
  cases known : t (index a) with
  | some other =>
      rw [ask_of_some known] at there
      exact Or.inl there
  | none =>
      rw [ask_of_none known] at there
      dsimp only at there
      by_cases same : b = index a
      · rw [same, Function.update_self] at there
        exact Or.inr ⟨same.symm, (Option.some.inj there).symm⟩
      · rw [Function.update_of_ne same] at there
        exact Or.inl there

theorem next_of_some (there : t b = some value) : next index compute t (.ask a) b = some value := by
  rw [next]
  cases known : t (index a) with
  | some other =>
      rw [ask_of_some known]
      exact there
  | none =>
      rw [ask_of_none known]
      have other : b ≠ index a := by
        intro same
        rw [same, known] at there
        cases there
      dsimp only
      rw [Function.update_of_ne other]
      exact there

theorem after_append (t : β → Option γ) (first second : List (Event α)) :
    after index compute t (first ++ second) =
      after index compute (after index compute t first) second := List.foldl_append

theorem after_of_some (there : t b = some value) (kept : .clear ∉ events) :
    after index compute t events b = some value := by
  induction events generalizing t with
  | nil => exact there
  | cons e events ih =>
      rw [List.mem_cons, not_or] at kept
      cases e with
      | clear => exact (kept.1 rfl).elim
      | ask a => exact ih (next_of_some there) kept.2

/-- Every value in the table was computed for some argument that was asked for since the last
clearing. -/
theorem of_after (there : after index compute (fun _ => none) events b = some value) :
    ∃ before a later, events = before ++ .ask a :: later ∧ .clear ∉ later ∧ index a = b ∧
      value = compute a := by
  induction events using List.reverseRecOn with
  | nil => cases there
  | append_singleton events e ih =>
      rw [after_append] at there
      cases e with
      | clear => cases there
      | ask a =>
          rcases of_next there with old | ⟨same, is⟩
          · obtain ⟨before, a', later, rfl, kept, same, is⟩ := ih old
            refine ⟨before, a', later ++ [.ask a], by simp, ?_, same, is⟩
            simp [kept]
          · exact ⟨events, a, [], rfl, List.not_mem_nil, same, is⟩

/-- The table is transparent exactly if its index tells apart what has to be. -/
theorem transparent_iff (index : α → β) (compute : α → γ) (events : List (Event α)) :
    Transparent index compute events ↔ Agreeing index compute events := by
  constructor
  · intro transparent before a between a' later is kept same
    have first := transparent before a (between ++ .ask a' :: later) is
    have second := transparent (before ++ .ask a :: between) a' later (by simp [is])
    rw [← first, ← second, after_append]
    have there := remembered index compute (after index compute (fun _ => none) before) a
    rw [same] at there
    have later : after index compute
        (next index compute (after index compute (fun _ => none) before) (.ask a)) between
        (index a') = some _ := after_of_some there kept
    change _ =
      (ask index compute (after index compute (next index compute _ (.ask a)) between) a').1
    rw [ask_of_some later]
  · intro agreeing before a later is
    cases there : after index compute (fun _ => none) before (index a) with
    | none => rw [ask_of_none there]
    | some value =>
        rw [ask_of_some there]
        obtain ⟨first, a', between, rfl, kept, same, computed⟩ := of_after there
        rw [computed]
        exact agreeing first a' between a later (by simp [is]) kept same

end

end Hysj.Memo
