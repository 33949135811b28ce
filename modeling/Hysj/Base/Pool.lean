import Hysj.Base.Program

set_option autoImplicit false

/- Calls in progress over one state, in any order of their steps. -/
namespace Hysj

open Program

theorem of_getElem?_append {α : Type} {items : List α} {item other : α} {i : Nat}
    (found : (items ++ [item])[i]? = some other) :
    items[i]? = some other ∨ i = items.length ∧ other = item := by
  rcases Nat.lt_trichotomy i items.length with before | rfl | beyond
  · rw [List.getElem?_append_left before] at found
    exact Or.inl found
  · simp at found
    exact Or.inr ⟨rfl, found.symm⟩
  · rw [List.getElem?_eq_none (by simp; omega)] at found
    cases found

theorem of_getElem?_set {α : Type} {items : List α} {item other : α} {i j : Nat}
    (found : (items.set j item)[i]? = some other) :
    i = j ∧ other = item ∨ i ≠ j ∧ items[i]? = some other := by
  by_cases same : i = j
  · subst same
    have inside := (List.getElem?_eq_some_iff.mp found).1
    rw [List.length_set] at inside
    rw [List.getElem?_set_self inside] at found
    exact Or.inl ⟨rfl, (Option.some.inj found).symm⟩
  · rw [List.getElem?_set_ne (Ne.symm same)] at found
    exact Or.inr ⟨same, found⟩

section

variable {α : Type} {items : List α} {item other : α} {i j : Nat}

theorem getElem?_append_of_some {more : List α} (found : items[i]? = some item) :
    (items ++ more)[i]? = some item := by
  rw [List.getElem?_append_left (List.getElem?_eq_some_iff.mp found).1, found]

theorem getElem?_set_self_of_some (found : items[i]? = some item) :
    (items.set i other)[i]? = some other :=
  List.getElem?_set_self (List.getElem?_eq_some_iff.mp found).1

theorem getElem?_set_ne_of_some (differ : i ≠ j) (found : items[i]? = some item) :
    (items.set j other)[i]? = some item := by
  rw [List.getElem?_set_ne (Ne.symm differ), found]

end

section

variable {α β : Type} {T : α → β → Prop} {items : List α} {marks : List β} {item : α} {mark : β}
variable {j : Nat}

/-- Items that have their marks in another list get one more each. -/
theorem marked_append (length : marks.length = items.length)
    (marked : ∀ (i : Nat) a, items[i]? = some a → ∃ b, marks[i]? = some b ∧ T a b)
    (new : T item mark)
    (i : Nat) (a : α) (found : (items ++ [item])[i]? = some a) :
    ∃ b, (marks ++ [mark])[i]? = some b ∧ T a b := by
  rcases of_getElem?_append found with there | ⟨rfl, rfl⟩
  · obtain ⟨b, is, fits⟩ := marked i a there
    exact ⟨b, getElem?_append_of_some is, fits⟩
  · refine ⟨mark, ?_, new⟩
    rw [← length]
    simp

theorem marked_set (marked : ∀ (i : Nat) a, items[i]? = some a → ∃ b, marks[i]? = some b ∧ T a b)
    (inside : j < marks.length) (new : T item mark) (i : Nat) (a : α)
    (found : (items.set j item)[i]? = some a) : ∃ b, (marks.set j mark)[i]? = some b ∧ T a b := by
  rcases of_getElem?_set found with ⟨rfl, rfl⟩ | ⟨differ, before⟩
  · exact ⟨mark, List.getElem?_set_self inside, new⟩
  · obtain ⟨b, is, fits⟩ := marked i a before
    exact ⟨b, getElem?_set_ne_of_some differ is, fits⟩

end

section

variable {α β : Type} {f : α → Option β} {items : List α} {item item' : α} {b : β} {i : Nat}

theorem filterMap_set_same (found : items[i]? = some item) (same : f item' = f item) :
    (items.set i item').filterMap f = items.filterMap f := by
  induction items generalizing i with
  | nil => rfl
  | cons first items ih =>
      cases i with
      | zero =>
          obtain rfl := Option.some.inj found
          rw [List.set_cons_zero, List.filterMap_cons, List.filterMap_cons, same]
      | succ i =>
          rw [List.set_cons_succ, List.filterMap_cons, List.filterMap_cons, ih found]

theorem filterMap_set_new (found : items[i]? = some item) (none : f item = none)
    (new : f item' = some b) :
    ((items.set i item').filterMap f).Perm (items.filterMap f ++ [b]) := by
  induction items generalizing i with
  | nil => cases found
  | cons first items ih =>
      cases i with
      | zero =>
          obtain rfl := Option.some.inj found
          rw [List.set_cons_zero, List.filterMap_cons_some new, List.filterMap_cons_none none]
          exact (List.perm_append_singleton b _).symm
      | succ i =>
          rw [List.set_cons_succ]
          cases value : f first with
          | none =>
              rw [List.filterMap_cons_none value, List.filterMap_cons_none value]
              exact ih found
          | some a =>
              rw [List.filterMap_cons_some value, List.filterMap_cons_some value]
              exact (ih found).cons a

end

/-- A call in progress: what was called, and what is left to do. -/
structure Thread (χ σ ω α : Type) where
  call : ω
  rest : Program χ σ α

/-- The state and the calls that were made, in the order in which they were made. -/
structure Pool (χ σ ω α : Type) where
  state : σ
  threads : List (Thread χ σ ω α)

namespace Pool

variable {χ σ ω α : Type}

/-- A call is made, a call takes its next step, or time passes. -/
inductive Event (χ ω : Type) where
  | call (call : ω)
  | run (i : Nat) (c : χ)
  | pass (duration : Nat)

section

variable (program : ω → Program χ σ α) (pass : Nat → σ → σ)

def step (p : Pool χ σ ω α) : Event χ ω → Option (Pool χ σ ω α)
  | .call call => some { p with threads := p.threads ++ [⟨call, program call⟩] }
  | .run i c =>
      match p.threads[i]? with
      | some ⟨call, .step effect next⟩ =>
          some ⟨effect c p.state, p.threads.set i ⟨call, next c p.state⟩⟩
      | _ => none
  | .pass duration => some { p with state := pass duration p.state }

def follow (p : Pool χ σ ω α) : List (Event χ ω) → Option (Pool χ σ ω α)
  | [] => some p
  | e :: events => (step program pass p e).bind fun p' => follow p' events

end

variable {program : ω → Program χ σ α} {pass : Nat → σ → σ} {p p' p'' : Pool χ σ ω α}
variable {i j : Nat} {c : χ} {e : Event χ ω} {events : List (Event χ ω)}

theorem step_run : step program pass p (.run i c) = some p' ↔
    ∃ call effect next, p.threads[i]? = some ⟨call, .step effect next⟩ ∧
      p' = ⟨effect c p.state, p.threads.set i ⟨call, next c p.state⟩⟩ := by
  unfold step
  constructor
  · intro stepped
    dsimp only at stepped
    split at stepped
    · rename_i call effect next found
      exact ⟨call, effect, next, found, (Option.some.inj stepped).symm⟩
    · cases stepped
  · rintro ⟨call, effect, next, found, rfl⟩
    simp only [found]

/-- A thread after an event: it was there, it was called, or it took the step. -/
theorem thread_after (stepped : step program pass p e = some p') {thread : Thread χ σ ω α}
    (found : p'.threads[j]? = some thread) :
    (p.threads[j]? = some thread ∧ ∀ c, e ≠ .run j c) ∨
      (e = .call thread.call ∧ j = p.threads.length ∧ thread.rest = program thread.call) ∨
      ∃ c effect next, e = .run j c ∧ p.threads[j]? = some ⟨thread.call, .step effect next⟩ ∧
        thread.rest = next c p.state ∧ p'.state = effect c p.state := by
  cases e with
  | call call =>
      obtain rfl := Option.some.inj stepped
      rcases of_getElem?_append found with there | ⟨rfl, rfl⟩
      · exact Or.inl ⟨there, fun c other => by cases other⟩
      · exact Or.inr (Or.inl ⟨rfl, rfl, rfl⟩)
  | run i c =>
      obtain ⟨call, effect, next, there, rfl⟩ := step_run.mp stepped
      rcases of_getElem?_set found with ⟨rfl, rfl⟩ | ⟨differ, before⟩
      · exact Or.inr (Or.inr ⟨c, effect, next, rfl, there, rfl, rfl⟩)
      · refine Or.inl ⟨before, fun c other => ?_⟩
        injection other with other
        exact differ other.symm
  | pass duration =>
      obtain rfl := Option.some.inj stepped
      exact Or.inl ⟨found, fun c other => by cases other⟩

theorem call_after (stepped : step program pass p e = some p') {thread : Thread χ σ ω α}
    (found : p.threads[j]? = some thread) :
    ∃ rest, p'.threads[j]? = some ⟨thread.call, rest⟩ := by
  have inside := (List.getElem?_eq_some_iff.mp found).1
  cases e with
  | call call =>
      obtain rfl := Option.some.inj stepped
      exact ⟨thread.rest, by rw [List.getElem?_append_left inside]; exact found⟩
  | run i c =>
      obtain ⟨call, effect, next, there, rfl⟩ := step_run.mp stepped
      by_cases same : j = i
      · subst same
        obtain rfl := Option.some.inj (there.symm.trans found)
        exact ⟨_, List.getElem?_set_self inside⟩
      · exact ⟨thread.rest, by rw [List.getElem?_set_ne (Ne.symm same)]; exact found⟩
  | pass duration =>
      obtain rfl := Option.some.inj stepped
      exact ⟨thread.rest, found⟩

theorem follow_append (events later : List (Event χ ω)) :
    follow program pass p (events ++ later) =
      (follow program pass p events).bind fun p' => follow program pass p' later := by
  induction events generalizing p with
  | nil => rfl
  | cons e events ih =>
      rw [List.cons_append, follow, follow, Option.bind_assoc]
      congr
      funext p'
      exact ih

theorem follow_cons : follow program pass p (e :: events) = some p'' ↔
    ∃ p', step program pass p e = some p' ∧ follow program pass p' events = some p'' := by
  rw [follow, Option.bind_eq_some_iff]

theorem call_follow (followed : follow program pass p events = some p') {thread : Thread χ σ ω α}
    (found : p.threads[j]? = some thread) :
    ∃ rest, p'.threads[j]? = some ⟨thread.call, rest⟩ := by
  induction events generalizing p thread with
  | nil =>
      obtain rfl := Option.some.inj followed
      exact ⟨thread.rest, found⟩
  | cons e events ih =>
      obtain ⟨m, stepped, rest⟩ := follow_cons.mp followed
      obtain ⟨left, there⟩ := call_after stepped found
      have later := ih rest there
      exact later

theorem follow_keeps {J : Pool χ σ ω α → Prop}
    (followed : follow program pass p events = some p') (holds : J p)
    (each : ∀ e ∈ events, ∀ q q' : Pool χ σ ω α, J q → step program pass q e = some q' → J q') :
    J p' := by
  induction events generalizing p with
  | nil =>
      obtain rfl := Option.some.inj followed
      exact holds
  | cons e events ih =>
      obtain ⟨m, stepped, rest⟩ := follow_cons.mp followed
      refine ih rest (each e List.mem_cons_self p m holds stepped) fun e' member => ?_
      exact each e' (List.mem_cons_of_mem _ member)

/-- What holds of every thread and its place. -/
def Each (T : Nat → Thread χ σ ω α → Prop) (p : Pool χ σ ω α) : Prop :=
  ∀ j thread, p.threads[j]? = some thread → T j thread

theorem Each.step {T T' : Nat → Thread χ σ ω α → Prop} (each : p.Each T)
    (stepped : Pool.step program pass p e = some p')
    (rests : ∀ j thread, (∀ c, e ≠ .run j c) → T j thread → T' j thread)
    (calls : ∀ call, e = .call call → T' p.threads.length ⟨call, program call⟩)
    (runs : ∀ j c call effect next, e = .run j c → p.threads[j]? = some ⟨call, .step effect next⟩ →
      T j ⟨call, .step effect next⟩ → T' j ⟨call, next c p.state⟩) :
    p'.Each T' := by
  intro j thread found
  rcases thread_after stepped found with ⟨there, other⟩ | ⟨rfl, rfl, new⟩ |
    ⟨c, effect, next, rfl, there, left, -⟩
  · exact rests j thread other (each j thread there)
  · have called := calls thread.call rfl
    rw [← new] at called
    exact called
  · have ran := runs j c thread.call effect next rfl there (each j _ there)
    rw [← left] at ran
    exact ran

end Pool

namespace Program

variable {χ σ α β : Type} {G : σ → σ → Prop} {allowed : χ → Prop}

/-- Every step relates the states around it, and so does the rest after a decision that is
allowed. -/
def KeepsUnder (allowed : χ → Prop) (G : σ → σ → Prop) : Program χ σ α → Prop
  | .done _ => True
  | .step effect next => ∀ c s, G s (effect c s) ∧ (allowed c → KeepsUnder allowed G (next c s))
  | .never => True

theorem Keeps.under {t : Program χ σ α} (keeps : Keeps G t) : KeepsUnder allowed G t := by
  induction t with
  | done result => trivial
  | step effect next ih => exact fun c s => ⟨(keeps c s).1, fun _ => ih c s (keeps c s).2⟩
  | never => trivial

theorem keepsUnder_act {ε : Type} {f : χ → σ → α × σ} (each : ∀ c s, G s (f c s).2)
    {next : α → ExceptT ε (Program χ σ) β}
    (rest : ∀ c s, allowed c → KeepsUnder allowed G (next (f c s).1).run) :
    KeepsUnder allowed G (liftM (act f) >>= next : ExceptT ε (Program χ σ) β).run :=
  fun c s => ⟨each c s, rest c s⟩

theorem Keeps.map {t : Program χ σ α} (keeps : Keeps G t) (f : α → β) : Keeps G (f <$> t) := by
  rw [map_eq_pure_bind]
  exact Keeps.bind keeps fun _ => keeps_pure _

theorem KeepsUnder.map {t : Program χ σ α} (keeps : KeepsUnder allowed G t) (f : α → β) :
    KeepsUnder allowed G (f <$> t) := by
  rw [map_eq_pure_bind]
  induction t with
  | done result => trivial
  | step effect next ih =>
      exact fun c s => ⟨(keeps c s).1, fun may => ih c s ((keeps c s).2 may)⟩
  | never => trivial

theorem Secures.map {allowed : χ → σ → Prop} {I : σ → Prop} {P : α → Prop} {Q : β → Prop}
    {t : Program χ σ α} (secures : Secures allowed I G P t) {f : α → β}
    (results : ∀ a, P a → Q (f a)) : Secures allowed I G Q (f <$> t) := by
  rw [map_eq_pure_bind]
  exact Secures.bind secures fun a holds => secures_pure (results a holds)

theorem KeepsUnder.mono {H : σ → σ → Prop} {t : Program χ σ α} (keeps : KeepsUnder allowed G t)
    (weakens : ∀ s s', G s s' → H s s') : KeepsUnder allowed H t := by
  induction t with
  | done result => trivial
  | step effect next ih =>
      exact fun c s =>
        ⟨weakens _ _ (keeps c s).1, fun may => ih c s ((keeps c s).2 may)⟩
  | never => trivial

section

variable {ε : Type} {allowed : χ → σ → Prop} {I : σ → Prop} {P : α → Prop} {Q : β → Prop}

/-- The program comes to a value of which this holds. -/
def Gives (Q : α → Prop) (result : Except ε α) : Prop := ∃ a, result = .ok a ∧ Q a

theorem Secures.run_bind_gives {t : ExceptT ε (Program χ σ) α}
    {f : α → ExceptT ε (Program χ σ) β} (first : Secures allowed I G (Gives P) t.run)
    (second : ∀ a, P a → Secures allowed I G (Gives Q) (f a).run) :
    Secures allowed I G (Gives Q) (t >>= f).run := by
  rw [ExceptT.run_bind]
  apply Secures.bind first
  rintro result ⟨a, rfl, holds⟩
  exact second a holds

theorem secures_run_pure_gives {a : α} (holds : P a) :
    Secures allowed I G (Gives P) (pure a : ExceptT ε (Program χ σ) α).run :=
  secures_pure ⟨a, rfl, holds⟩

end

end Program

end Hysj
