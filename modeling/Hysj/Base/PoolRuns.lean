import Mathlib.Data.List.Induction
import Hysj.Base.Pool
import Hysj.Base.Trail

set_option autoImplicit false

/- Runs of calls in progress, and programs that do something once. -/
namespace Hysj

namespace Pool

variable {χ σ ω α : Type} {program : ω → Program χ σ α} {pass : Nat → σ → σ}

theorem trail_of_follow {first p : Pool χ σ ω α} (events : List (Event χ ω))
    (followed : follow program pass first events = some p) :
    ∃ steps, Trail (fun p e p' => step program pass p e = some p') first steps p := by
  induction events using List.reverseRecOn generalizing p with
  | nil =>
      obtain rfl := Option.some.inj followed
      exact ⟨[], .start⟩
  | append_singleton events e ih =>
      rw [follow_append] at followed
      obtain ⟨m, before, last⟩ := Option.bind_eq_some_iff.mp followed
      obtain ⟨steps, run⟩ := ih before
      obtain ⟨p', stepped, done⟩ := follow_cons.mp last
      obtain rfl := Option.some.inj done
      exact ⟨_, run.next stepped⟩

section

variable {first : σ} {steps : List (Pool χ σ ω α × Event χ ω × Pool χ σ ω α)} {q : Pool χ σ ω α}

/-- The calls that were made. -/
def Made (p : Pool χ σ ω α) (call : ω) : Prop := ∃ thread ∈ p.threads, thread.call = call

theorem made_after {p p' : Pool χ σ ω α} {e : Event χ ω} {call : ω}
    (stepped : step program pass p e = some p') (made : p.Made call) : p'.Made call := by
  obtain ⟨thread, member, rfl⟩ := made
  obtain ⟨i, found⟩ := List.getElem?_of_mem member
  obtain ⟨rest, there⟩ := call_after stepped found
  exact ⟨_, List.mem_of_getElem? there, rfl⟩

theorem made_of_mem
    (run : Trail (fun p e p' => step program pass p e = some p') ⟨first, []⟩ steps q)
    {x : Pool χ σ ω α × Event χ ω × Pool χ σ ω α} {call : ω} (member : x ∈ steps)
    (called : x.2.1 = .call call) : q.Made call := by
  induction run with
  | start => cases member
  | @next steps s s' e _ taken ih =>
      rcases List.mem_append.mp member with old | new
      · exact made_after taken (ih old)
      · obtain rfl := List.mem_singleton.mp new
        obtain rfl : e = .call call := called
        obtain rfl := Option.some.inj taken
        exact ⟨_, List.mem_append_right _ List.mem_cons_self, rfl⟩

/-- What each call secures that may be made holds in every state, and what is left of the calls
secures it. -/
theorem secured {I : σ → Prop} {G : σ → σ → Prop} {Q : α → Prop} {M : ω → Prop}
    (start : I first) (passes : ∀ duration s, I s → I (pass duration s))
    (secures : ∀ call, M call → Program.Secures (fun _ _ => True) I G Q (program call))
    (run : Trail (fun p e p' => step program pass p e = some p') ⟨first, []⟩ steps q)
    (calls : ∀ x ∈ steps, ∀ call, x.2.1 = .call call → M call) :
    I q.state ∧ q.Each fun _ thread =>
      M thread.call ∧ Program.Secures (fun _ _ => True) I G Q thread.rest := by
  refine run.keeps (I := fun p => I p.state ∧ p.Each fun _ thread =>
    M thread.call ∧ Program.Secures (fun _ _ => True) I G Q thread.rest)
    (C := fun _ e _ => ∀ call, e = .call call → M call) ⟨start, ?_⟩ ?_ calls
  · intro i thread found
    cases found
  · rintro p e p' stepped allowed ⟨holds, each⟩
    refine ⟨?_, each.step stepped (fun _ _ _ stays => stays) ?_ ?_⟩
    · cases e with
      | call call =>
          obtain rfl := Option.some.inj stepped
          exact holds
      | run i c =>
          obtain ⟨call, effect, next, found, rfl⟩ := step_run.mp stepped
          exact ((each i _ found).2 c p.state trivial holds).1
      | pass duration =>
          obtain rfl := Option.some.inj stepped
          exact passes duration p.state holds
    · exact fun call is => ⟨allowed call is, secures call (allowed call is)⟩
    · rintro i c call effect next - - ⟨able, rest⟩
      exact ⟨able, (rest c p.state trivial holds).2.2⟩

end

end Pool

namespace Program

variable {χ σ α β ε ε' : Type} {F G H : σ → σ → Prop}

/-- Every step relates the states around it by `G`, but for one at most, which does by `H`. -/
def KeepsButOne (G H : σ → σ → Prop) : Program χ σ α → Prop
  | .done _ => True
  | .step effect next => ∀ c s, (G s (effect c s) ∧ KeepsButOne G H (next c s)) ∨
      H s (effect c s) ∧ Keeps G (next c s)
  | .never => True

theorem Keeps.butOne {t : Program χ σ α} (keeps : Keeps G t) : KeepsButOne G H t := by
  induction t with
  | done result => trivial
  | step effect next ih => exact fun c s => Or.inl ⟨(keeps c s).1, ih c s (keeps c s).2⟩
  | never => trivial

theorem keepsButOne_act {f : χ → σ → α × σ} (each : ∀ c s, G s (f c s).2 ∨ H s (f c s).2) :
    KeepsButOne G H (act f) :=
  fun c s => (each c s).imp (fun kept => ⟨kept, trivial⟩) fun once => ⟨once, trivial⟩

theorem Keeps.bind_butOne {t : Program χ σ α} {f : α → Program χ σ β} (first : Keeps G t)
    (second : ∀ a, KeepsButOne G H (f a)) : KeepsButOne G H (t >>= f) := by
  induction t with
  | done result => exact second result
  | step effect next ih => exact fun c s => Or.inl ⟨(first c s).1, ih c s (first c s).2⟩
  | never => trivial

theorem KeepsButOne.bind {t : Program χ σ α} {f : α → Program χ σ β} (first : KeepsButOne G H t)
    (second : ∀ a, Keeps G (f a)) : KeepsButOne G H (t >>= f) := by
  induction t with
  | done result => exact (second result).butOne
  | step effect next ih =>
      intro c s
      rcases first c s with ⟨kept, rest⟩ | ⟨once, rest⟩
      · exact Or.inl ⟨kept, ih c s rest⟩
      · exact Or.inr ⟨once, rest.bind second⟩
  | never => trivial

theorem KeepsButOne.map {t : Program χ σ α} (keeps : KeepsButOne G H t) (f : α → β) :
    KeepsButOne G H (f <$> t) := by
  rw [map_eq_pure_bind]
  exact keeps.bind fun _ => keeps_pure _

theorem KeepsButOne.adapt {f : ε → ε'} {t : ExceptT ε (Program χ σ) α}
    (keeps : KeepsButOne G H t.run) : KeepsButOne G H (ExceptT.adapt f t).run := keeps.map _

theorem Keeps.run_bind_butOne {t : ExceptT ε (Program χ σ) α} {f : α → ExceptT ε (Program χ σ) β}
    (first : Keeps G t.run) (second : ∀ a, KeepsButOne G H (f a).run) :
    KeepsButOne G H (t >>= f).run := by
  rw [ExceptT.run_bind]
  refine first.bind_butOne fun result => ?_
  cases result with
  | ok a => exact second a
  | error e => exact (keeps_pure _).butOne

theorem KeepsButOne.run_bind {t : ExceptT ε (Program χ σ) α} {f : α → ExceptT ε (Program χ σ) β}
    (first : KeepsButOne G H t.run) (second : ∀ a, Keeps G (f a).run) :
    KeepsButOne G H (t >>= f).run := by
  rw [ExceptT.run_bind]
  refine first.bind fun result => ?_
  cases result with
  | ok a => exact second a
  | error e => exact keeps_pure _

theorem KeepsButOne.keeps {t : Program χ σ α} (butOne : KeepsButOne G H t) (keeps : Keeps F t)
    (never : ∀ s s', H s s' → ¬ F s s') : Keeps G t := by
  induction t with
  | done result => trivial
  | step effect next ih =>
      intro c s
      rcases butOne c s with ⟨kept, rest⟩ | ⟨once, -⟩
      · exact ⟨kept, ih c s rest (keeps c s).2⟩
      · exact absurd (keeps c s).1 (never _ _ once)
  | never => trivial

section

variable {μ γ : Type} {allowed : χ → σ → Prop} {H : μ → σ → σ → Prop} {B P : α → Prop}
variable {R : μ → α → Prop}

/-- Where every step is allowed, what comes out satisfies `Q`. -/
abbrev Comes (allowed : χ → σ → Prop) (Q : α → Prop) : Program χ σ α → Prop :=
  Secures allowed (fun _ => True) (fun _ _ => True) Q

theorem comes_act {f : χ → σ → α × σ} (each : ∀ c s, allowed c s → P (f c s).1) :
    Comes allowed P (act f) :=
  fun c s may _ => ⟨trivial, trivial, each c s may⟩

theorem comes_any {t : Program χ σ α} : Comes allowed (fun _ => True) t :=
  Keeps.secures (G := fun _ _ => True) (by
    induction t with
    | done result => trivial
    | step effect next ih => exact fun c s => ⟨trivial, ih c s⟩
    | never => trivial) fun _ _ _ _ => trivial

/-- Where every step is allowed, what comes out satisfies `B`, or one step leaves a mark and what
comes out satisfies `R` of it. -/
def Marks (allowed : χ → σ → Prop) (H : μ → σ → σ → Prop) (B : α → Prop) (R : μ → α → Prop) :
    Program χ σ α → Prop
  | .done result => B result
  | .step effect next => ∀ c s, allowed c s → Marks allowed H B R (next c s) ∨
      ∃ m, H m s (effect c s) ∧ Comes allowed (R m) (next c s)
  | .never => True

theorem marks_act {f : χ → σ → α × σ}
    (each : ∀ c s, allowed c s → B (f c s).1 ∨ ∃ m, H m s (f c s).2 ∧ R m (f c s).1) :
    Marks allowed H B R (act f) := each

theorem Comes.bind_marks {t : Program χ σ γ} {f : γ → Program χ σ α} {P : γ → Prop}
    (first : Comes allowed P t) (second : ∀ a, P a → Marks allowed H B R (f a)) :
    Marks allowed H B R (t >>= f) := by
  induction t with
  | done result => exact second result first
  | step effect next ih => exact fun c s may => Or.inl (ih c s (first c s may trivial).2.2)
  | never => trivial

theorem Marks.bind {t : Program χ σ γ} {f : γ → Program χ σ α} {B' : γ → Prop} {R' : μ → γ → Prop}
    (first : Marks allowed H B' R' t) (missing : ∀ a, B' a → Marks allowed H B R (f a))
    (left : ∀ m a, R' m a → Comes allowed (R m) (f a)) : Marks allowed H B R (t >>= f) := by
  induction t with
  | done result => exact missing result first
  | step effect next ih =>
      intro c s may
      rcases first c s may with later | ⟨m, marked, rest⟩
      · exact Or.inl (ih c s later)
      · exact Or.inr ⟨m, marked, Secures.bind rest (left m)⟩
  | never => trivial

theorem Marks.map {t : Program χ σ γ} {B' : γ → Prop} {R' : μ → γ → Prop}
    (first : Marks allowed H B' R' t) {f : γ → α} (missing : ∀ a, B' a → B (f a))
    (left : ∀ m a, R' m a → R m (f a)) : Marks allowed H B R (f <$> t) := by
  rw [map_eq_pure_bind]
  exact first.bind missing left

theorem Comes.run_bind_marks {t : ExceptT ε (Program χ σ) γ} {f : γ → ExceptT ε (Program χ σ) α}
    {P : γ → Prop} {Q : α → Prop} {R : μ → Except ε α → Prop} (first : Comes allowed (OnOk P) t.run)
    (second : ∀ a, P a → Marks allowed H (OnOk Q) R (f a).run) :
    Marks allowed H (OnOk Q) R (t >>= f).run := by
  rw [ExceptT.run_bind]
  refine Comes.bind_marks first fun result holds => ?_
  cases result with
  | ok a => exact second a (holds a rfl)
  | error e => exact fun a same => by cases same

theorem Marks.run_bind {t : ExceptT ε (Program χ σ) γ} {f : γ → ExceptT ε (Program χ σ) α}
    {P : γ → Prop} {S : μ → γ → Prop} {Q : α → Prop} {R : μ → α → Prop}
    (first : Marks allowed H (OnOk P) (fun m => OnOk (S m)) t.run)
    (missing : ∀ a, P a → Marks allowed H (OnOk Q) (fun m => OnOk (R m)) (f a).run)
    (left : ∀ m a, S m a → Comes allowed (OnOk (R m)) (f a).run) :
    Marks allowed H (OnOk Q) (fun m => OnOk (R m)) (t >>= f).run := by
  rw [ExceptT.run_bind]
  refine first.bind (fun result holds => ?_) fun m result holds => ?_
  · cases result with
    | ok a => exact missing a (holds a rfl)
    | error e => exact fun a same => by cases same
  · cases result with
    | ok a => exact left m a (holds a rfl)
    | error e => exact secures_pure fun a same => by cases same

theorem Marks.adapt {f : ε → ε'} {t : ExceptT ε (Program χ σ) α} {Q : α → Prop} {R : μ → α → Prop}
    (marks : Marks allowed H (OnOk Q) (fun m => OnOk (R m)) t.run) :
    Marks allowed H (OnOk Q) (fun m => OnOk (R m)) (ExceptT.adapt f t).run := by
  have same {Q : α → Prop} (result : Except ε α) (holds : OnOk Q result) :
      OnOk Q (result.mapError f) := by
    intro a is
    cases result with
    | ok b => exact holds a (congrArg Except.ok (Except.ok.inj is))
    | error e => cases is
  exact marks.map same fun _ => same

end

section

variable {ι γ : Type} {R W : ι → σ → σ → Prop} {Q Q' : α → (ι → Prop) → Prop} {asked : ι → Prop}

/-- Every step that relates the states around it by `W i` comes after one that does so by `R i`; the
predicate tells for which `i` there has been one. What comes out, with the predicate at that time,
satisfies `Q`. -/
def Asks (R W : ι → σ → σ → Prop) (Q : α → (ι → Prop) → Prop) : Program χ σ α → (ι → Prop) → Prop
  | .done result, asked => Q result asked
  | .step effect next, asked => ∀ c s, (∀ i, W i s (effect c s) → asked i) ∧
      Asks R W Q (next c s) fun i => asked i ∨ R i s (effect c s)
  | .never, _ => True

theorem asks_act {f : χ → σ → α × σ} (each : ∀ c s, (∀ i, W i s (f c s).2 → asked i) ∧
    Q (f c s).1 fun i => asked i ∨ R i s (f c s).2) : Asks R W Q (act f) asked := each

theorem Asks.bind {t : Program χ σ γ} {f : γ → Program χ σ α} {P : γ → (ι → Prop) → Prop}
    (first : Asks R W P t asked) (second : ∀ a asked, P a asked → Asks R W Q (f a) asked) :
    Asks R W Q (t >>= f) asked := by
  induction t generalizing asked with
  | done result => exact second result asked first
  | step effect next ih => exact fun c s => ⟨(first c s).1, ih c s (first c s).2⟩
  | never => trivial

theorem Asks.mono {t : Program χ σ α} (asks : Asks R W Q t asked)
    (weakens : ∀ a asked, Q a asked → Q' a asked) : Asks R W Q' t asked := by
  induction t generalizing asked with
  | done result => exact weakens result asked asks
  | step effect next ih => exact fun c s => ⟨(asks c s).1, ih c s (asks c s).2⟩
  | never => trivial

theorem Keeps.asks {t : Program χ σ α} (keeps : Keeps G t) (never : ∀ i s s', G s s' → ¬ W i s s') :
    Asks R W (fun _ asked' => ∀ i, asked i → asked' i) t asked := by
  suffices all : ∀ asked', (∀ i, asked i → asked' i) →
      Asks R W (fun _ asked' => ∀ i, asked i → asked' i) t asked' from all asked fun _ => id
  induction t with
  | done result => exact fun _ wider => wider
  | step effect next ih =>
      intro asked' wider c s
      refine ⟨fun i write => absurd write (never i _ _ (keeps c s).1), ?_⟩
      exact ih c s (keeps c s).2 _ fun i holds => Or.inl (wider i holds)
  | never => exact fun _ _ => trivial

/-- What holds of the value a program comes to, and of what was asked by then. -/
abbrev OnAsked (P : γ → (ι → Prop) → Prop) (result : Except ε γ) (asked : ι → Prop) : Prop :=
  ∀ a, result = .ok a → P a asked

theorem Asks.run_bind {t : ExceptT ε (Program χ σ) γ} {f : γ → ExceptT ε (Program χ σ) α}
    {P : γ → (ι → Prop) → Prop} (first : Asks R W (OnAsked P) t.run asked)
    (second : ∀ a asked, P a asked → Asks R W (OnAsked Q) (f a).run asked) :
    Asks R W (OnAsked Q) (t >>= f).run asked := by
  rw [ExceptT.run_bind]
  refine first.bind fun result asked' holds => ?_
  cases result with
  | ok a => exact second a asked' (holds a rfl)
  | error e => exact fun a same => by cases same

theorem Asks.adapt {f : ε → ε'} {t : ExceptT ε (Program χ σ) α}
    (asks : Asks R W (OnAsked Q) t.run asked) :
    Asks R W (OnAsked Q) (ExceptT.adapt f t).run asked := by
  change Asks R W (OnAsked Q) (Except.mapError f <$> t.run) asked
  rw [map_eq_pure_bind]
  refine asks.bind fun result asked' holds a same => ?_
  cases result with
  | ok b => exact holds a (congrArg Except.ok (Except.ok.inj same))
  | error e => cases same

theorem asks_run_pure {a : α} (holds : Q a asked) :
    Asks R W (OnAsked Q) (pure a : ExceptT ε (Program χ σ) α).run asked := by
  intro b same
  rw [← Except.ok.inj same]
  exact holds

theorem asks_run_throw {e : ε} :
    Asks R W (OnAsked Q) (throw e : ExceptT ε (Program χ σ) α).run asked :=
  fun a same => by cases same

theorem Asks.run_forM {f : γ → ExceptT ε (Program χ σ) PUnit} {items : List γ}
    {P : (ι → Prop) → Prop} (holds : P asked)
    (each : ∀ a ∈ items, ∀ asked, P asked → Asks R W (OnAsked fun _ => P) (f a).run asked) :
    Asks R W (OnAsked fun _ => P) (forM items f).run asked := by
  induction items generalizing asked with
  | nil => exact asks_run_pure holds
  | cons item items ih =>
      refine Asks.run_bind (each item List.mem_cons_self asked holds) fun _ asked' holds' => ?_
      exact ih holds' fun a member => each a (List.mem_cons_of_mem _ member)

end

/-- What is secured for a part of the state is secured for the whole, if what holds of the whole
tells what holds of the part, and the steps of the part keep it. -/
theorem Secures.zoomed {τ : Type} {get : σ → τ} {put : τ → σ → σ} {I : σ → Prop} {J : τ → Prop}
    {F : τ → τ → Prop} {Q : α → Prop} {t : Program χ τ α}
    (secures : Secures (fun _ _ => True) J F Q t) (part : ∀ s, I s → J (get s))
    (lifts : ∀ s r, I s → F (get s) r → I (put r s) ∧ G s (put r s)) :
    Secures (fun _ _ => True) I G Q (Program.zoom get put t) := by
  induction t with
  | done result => exact secures
  | step effect next ih =>
      intro c s _ holds
      obtain ⟨-, related, rest⟩ := secures c (get s) trivial (part s holds)
      obtain ⟨kept, lifted⟩ := lifts s _ holds related
      exact ⟨kept, lifted, ih c (get s) rest⟩
  | never => trivial

/-- What every step keeps to for each index, it keeps to for all of them. -/
theorem keeps_all {ι : Type} {C : ι → Prop} {R : ι → σ → σ → Prop} {t : Program χ σ α}
    (each : ∀ i, C i → Keeps (R i) t) : Keeps (fun s s' => ∀ i, C i → R i s s') t := by
  induction t with
  | done result => trivial
  | step effect next ih =>
      intro c s
      exact ⟨fun i holds => (each i holds c s).1, ih c s fun i holds => (each i holds c s).2⟩
  | never => trivial

end Program

namespace Pool

variable {χ σ ω α μ : Type} {program : ω → Program χ σ α} {pass : Nat → σ → σ} {first : σ}
variable {steps : List (Pool χ σ ω α × Event χ ω × Pool χ σ ω α)} {q : Pool χ σ ω α}

/-- Step of the call at place `i`. -/
def Stepped (steps : List (Pool χ σ ω α × Event χ ω × Pool χ σ ω α)) (i : Nat) (s s' : σ) : Prop :=
  ∃ p c p', (p, .run i c, p') ∈ steps ∧ p.state = s ∧ p'.state = s'

theorem Stepped.append {i : Nat} {s s' : σ} {later : List (Pool χ σ ω α × Event χ ω × Pool χ σ ω α)}
    (stepped : Stepped steps i s s') : Stepped (steps ++ later) i s s' := by
  obtain ⟨p, c, p', member, states⟩ := stepped
  exact ⟨p, c, p', List.mem_append_left _ member, states⟩

/-- Calls that leave a mark before they answer have left it in the run when they have answered. -/
theorem marked {C : ω → Prop} {allowed : χ → σ → Prop} {H : ω → μ → σ → σ → Prop} {B : ω → α → Prop}
    {R : ω → μ → α → Prop}
    (marks : ∀ call, C call → Program.Marks allowed (H call) (B call) (R call) (program call))
    (run : Trail (fun p e p' => step program pass p e = some p') ⟨first, []⟩ steps q)
    (all : ∀ x ∈ steps, ∀ i c, x.2.1 = .run i c → allowed c x.1.state) :
    q.Each fun i thread => C thread.call →
      Program.Marks allowed (H thread.call) (B thread.call) (R thread.call) thread.rest ∨
      ∃ m s s', Stepped steps i s s' ∧ H thread.call m s s' ∧
        Program.Comes allowed (R thread.call m) thread.rest := by
  induction run with
  | start =>
      intro i thread found
      cases found
  | @next steps p p' e before stepped ih =>
      have each := ih fun x member => all x (List.mem_append_left _ member)
      have last := all (p, e, p') (List.mem_append_right _ List.mem_cons_self)
      refine each.step stepped ?_ ?_ ?_
      · intro i thread _ holds is
        exact (holds is).imp_right fun ⟨m, s, s', there, rest⟩ => ⟨m, s, s', there.append, rest⟩
      · intro call _ is
        exact Or.inl (marks call is)
      · rintro i c call effect next rfl found holds is
        obtain ⟨call', effect', next', there, rfl⟩ := step_run.mp stepped
        obtain ⟨rfl, rfl, rfl⟩ : call' = call ∧ effect' = effect ∧ next' = next := by
          simpa using there.symm.trans found
        have allowed := last i c rfl
        obtain later | ⟨m, s, s', earlier, marked, rest⟩ := holds is
        · refine (later c p.state allowed).imp_right fun ⟨m, marked, rest⟩ => ?_
          exact ⟨m, _, _,
            ⟨p, c, _, List.mem_append_right _ List.mem_cons_self, rfl, rfl⟩, marked, rest⟩
        · exact Or.inr ⟨m, s, s', earlier.append, marked, (rest c p.state allowed trivial).2.2⟩

section

variable {ι : Type} {R W : ω → ι → σ → σ → Prop}

theorem asking
    (asks : ∀ call, Program.Asks (R call) (W call) (fun _ _ => True) (program call) fun _ => False)
    (run : Trail (fun p e p' => step program pass p e = some p') ⟨first, []⟩ steps q) :
    q.Each fun j thread => ∃ asked : ι → Prop,
      Program.Asks (R thread.call) (W thread.call) (fun _ _ => True) thread.rest asked ∧
        ∀ i, asked i → ∃ s s', Stepped steps j s s' ∧ R thread.call i s s' := by
  induction run with
  | start =>
      intro i thread found
      cases found
  | @next steps p p' e before stepped ih =>
      refine ih.step stepped ?_ ?_ ?_
      · rintro j thread _ ⟨asked, rest, earlier⟩
        refine ⟨asked, rest, fun i holds => ?_⟩
        obtain ⟨s, s', there, related⟩ := earlier i holds
        exact ⟨s, s', there.append, related⟩
      · exact fun call _ => ⟨fun _ => False, asks call, fun i none => none.elim⟩
      · rintro j c call effect next rfl found ⟨asked, rest, earlier⟩
        obtain ⟨call', effect', next', there, rfl⟩ := step_run.mp stepped
        obtain ⟨rfl, rfl, rfl⟩ : call' = call ∧ effect' = effect ∧ next' = next := by
          simpa using there.symm.trans found
        refine ⟨_, (rest c p.state).2, fun i holds => ?_⟩
        rcases holds with before | now
        · obtain ⟨s, s', old, related⟩ := earlier i before
          exact ⟨s, s', old.append, related⟩
        · exact ⟨_, _, ⟨p, c, _, List.mem_append_right _ List.mem_cons_self, rfl, rfl⟩, now⟩

/-- Calls that ask first have asked before, in the same run and themselves. -/
theorem asked_before
    (asks : ∀ call, Program.Asks (R call) (W call) (fun _ _ => True) (program call) fun _ => False)
    {before after : List (Pool χ σ ω α × Event χ ω × Pool χ σ ω α)}
    {p p' : Pool χ σ ω α} {j : Nat} {c : χ}
    (run : Trail (fun p e p' => step program pass p e = some p') ⟨first, []⟩
      (before ++ (p, .run j c, p') :: after) q) :
    ∃ thread, p.threads[j]? = some thread ∧ ∀ i, W thread.call i p.state p'.state →
      ∃ s s', Stepped before j s s' ∧ R thread.call i s s' := by
  obtain ⟨m, earlier, later⟩ := run.append_inv
  have same : p = m := later.cons_inv.1
  have stepped : step program pass p (.run j c) = some p' := by
    rw [same]
    exact later.cons_inv.2.1
  rw [← same] at earlier
  obtain ⟨call, effect, next, found, after⟩ := step_run.mp stepped
  obtain ⟨asked, rest, all⟩ := asking asks earlier j _ found
  refine ⟨_, found, fun i write => all i ((rest c p.state).1 i ?_)⟩
  rw [after] at write
  exact write

end

end Pool

end Hysj
