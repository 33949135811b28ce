import Mathlib.Data.List.Basic
import Mathlib.Data.List.Induction

set_option autoImplicit false

/- Runs that keep the steps they took. -/
namespace Hysj

section

variable {σ ε : Type} (step : σ → ε → σ → Prop) (first : σ)

/-- A run from the first state, with its steps in their order and the state it has reached. -/
inductive Trail : List (σ × ε × σ) → σ → Prop where
  | start : Trail [] first
  | next {steps : List (σ × ε × σ)} {s s' : σ} {e : ε} (before : Trail steps s)
      (taken : step s e s') : Trail (steps ++ [(s, e, s')]) s'

end

namespace Trail

variable {σ ε : Type} {step : σ → ε → σ → Prop} {first s s' : σ} {e : ε} {steps : List (σ × ε × σ)}
variable {I : σ → Prop} {G : σ → Prop} {C : σ → ε → σ → Prop}

theorem step_of_mem (trail : Trail step first steps s) {x x' : σ} {a : ε}
    (member : (x, a, x') ∈ steps) : step x a x' := by
  induction trail with
  | start => cases member
  | next _ taken ih =>
      rcases List.mem_append.mp member with old | new
      · exact ih old
      · cases List.mem_singleton.mp new
        exact taken

theorem append_inv {before after : List (σ × ε × σ)}
    (trail : Trail step first (before ++ after) s) :
    ∃ m, Trail step first before m ∧ Trail step m after s := by
  induction after using List.reverseRecOn generalizing s with
  | nil =>
      rw [List.append_nil] at trail
      exact ⟨s, trail, .start⟩
  | append_singleton after x ih =>
      rw [← List.append_assoc] at trail
      generalize whole : before ++ after ++ [x] = steps at trail
      cases trail with
      | start => exact absurd whole (by simp)
      | next earlier taken =>
          obtain ⟨rfl, last⟩ := List.append_inj' whole rfl
          obtain rfl := List.singleton_inj.mp last
          obtain ⟨m, front, back⟩ := ih earlier
          exact ⟨m, front, .next back taken⟩

theorem nil_inv (trail : Trail step first [] s) : s = first := by
  generalize none_taken : [] = steps at trail
  cases trail with
  | start => rfl
  | next earlier taken => exact absurd none_taken (by simp)

theorem cons_inv {x : σ × ε × σ} {after : List (σ × ε × σ)}
    (trail : Trail step first (x :: after) s) :
    x.1 = first ∧ step first x.2.1 x.2.2 ∧ Trail step x.2.2 after s := by
  obtain ⟨m, front, back⟩ := @append_inv _ _ step first s [x] after trail
  generalize alone : [x] = steps at front
  cases front with
  | start => cases alone
  | @next steps s₀ m e earlier taken =>
      obtain ⟨rfl, last⟩ := List.append_inj' (show [] ++ [x] = steps ++ [(s₀, e, m)] from alone) rfl
      obtain rfl := List.singleton_inj.mp last
      obtain rfl := nil_inv earlier
      exact ⟨rfl, taken, back⟩

theorem holds_before (start : I first) (each : ∀ s e s', step s e s' → I s → I s')
    (trail : Trail step first steps s) : I s ∧ ∀ x ∈ steps, I x.1 := by
  induction trail with
  | start => exact ⟨start, fun x member => by cases member⟩
  | @next steps s s' e _ taken ih =>
      obtain ⟨holds, earlier⟩ := ih
      refine ⟨each s e s' taken holds, ?_⟩
      simp only [List.forall_mem_append, List.forall_mem_singleton]
      exact ⟨earlier, holds⟩

/-- What each step keeps that meets a condition, a run keeps whose steps all meet it. -/
theorem keeps (start : I first) (each : ∀ s e s', step s e s' → C s e s' → I s → I s')
    (trail : Trail step first steps s) (meets : ∀ x ∈ steps, C x.1 x.2.1 x.2.2) : I s := by
  induction trail with
  | start => exact start
  | @next steps s s' e _ taken ih =>
      have last : C s e s' := meets (s, e, s') (List.mem_append_right _ List.mem_cons_self)
      exact each s e s' taken last (ih fun x member => meets x (List.mem_append_left _ member))

/-- If the states after steps that meet the condition are good, and no state after another step
is, then a run is good throughout exactly if all its steps meet the condition. -/
theorem good_iff (start : I first) (each : ∀ s e s', step s e s' → C s e s' → I s → I s')
    (good : ∀ s, I s → G s) (bad : ∀ s e s', step s e s' → I s → ¬ C s e s' → ¬ G s')
    (trail : Trail step first steps s) :
    (∀ x ∈ steps, G x.2.2) ↔ ∀ x ∈ steps, C x.1 x.2.1 x.2.2 := by
  induction trail with
  | start =>
      constructor
      · intro _ x member
        cases member
      · intro _ x member
        cases member
  | @next steps s s' e before taken ih =>
      simp only [List.forall_mem_append, List.forall_mem_singleton, ih]
      apply and_congr_right
      intro meets
      have holds : I s := before.keeps start each meets
      constructor
      · intro fine
        by_contra against
        exact bad s e s' taken holds against fine
      · exact fun last => good s' (each s e s' taken last holds)

theorem append {m : σ} {later : List (σ × ε × σ)} (trail : Trail step first steps m)
    (next : Trail step m later s) : Trail step first (steps ++ later) s := by
  induction next with
  | start =>
      rw [List.append_nil]
      exact trail
  | next _ taken ih =>
      rw [← List.append_assoc]
      exact ih.next taken

theorem of_foldlM {f : σ → ε → Option σ} {s₀ s : σ} (events : List ε)
    (followed : events.foldlM f s₀ = some s) : ∃ steps : List (σ × ε × σ),
      Trail (fun s e s' => f s e = some s') s₀ steps s ∧ steps.map (fun x => x.2.1) = events := by
  induction events using List.reverseRecOn generalizing s with
  | nil =>
      obtain rfl := Option.some.inj followed
      exact ⟨[], .start, rfl⟩
  | append_singleton events e ih =>
      rw [List.foldlM_append] at followed
      obtain ⟨m, before, last⟩ := Option.bind_eq_some_iff.mp followed
      obtain ⟨steps, run, are⟩ := ih before
      obtain ⟨s', taken, done⟩ := Option.bind_eq_some_iff.mp last
      obtain rfl := Option.some.inj done
      refine ⟨_, run.next taken, ?_⟩
      rw [List.map_append, are]
      rfl

end Trail

end Hysj
