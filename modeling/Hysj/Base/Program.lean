import Hysj.Base.Result

set_option autoImplicit false

/- Programs that run in steps, alone or among others. -/
namespace Hysj

/-- What is left of a program over the state `σ`. A step is atomic; between two steps the
state may change. `χ` is what the environment decides in one step. `never` does not go on. -/
inductive Program (χ σ α : Type) where
  | done (result : α)
  | step (effect : χ → σ → σ) (next : χ → σ → Program χ σ α)
  | never

namespace Program

variable {χ σ τ α β γ : Type}

def bind : Program χ σ α → (α → Program χ σ β) → Program χ σ β
  | .done result, f => f result
  | .step effect next, f => .step effect fun c s => bind (next c s) f
  | .never, _ => .never

instance : Monad (Program χ σ) where
  pure := done
  bind := bind

/-- One step with a result. -/
def act (f : χ → σ → α × σ) : Program χ σ α :=
  .step (fun c s => (f c s).2) fun c s => .done (f c s).1

theorem bind_done (t : Program χ σ α) : t.bind done = t := by
  induction t with
  | done result => rfl
  | step effect next ih =>
      rw [bind]
      congr
      funext c s
      exact ih c s
  | never => rfl

theorem bind_assoc (t : Program χ σ α) (f : α → Program χ σ β) (g : β → Program χ σ γ) :
    (t.bind f).bind g = t.bind fun a => (f a).bind g := by
  induction t with
  | done result => rfl
  | step effect next ih =>
      rw [bind, bind, bind]
      congr
      funext c s
      exact ih c s
  | never => rfl

instance : LawfulMonad (Program χ σ) := LawfulMonad.mk' _ bind_done (fun _ _ => rfl) bind_assoc

section

variable (allowed : χ → σ → Prop)

/-- A run that no other program disturbs, with decisions the environment may take. -/
inductive Runs : Program χ σ α → σ → α → σ → Prop where
  | done (result : α) (s : σ) : Runs (.done result) s result s
  | step {effect : χ → σ → σ} {next : χ → σ → Program χ σ α} {s s' : σ} {result : α} (c : χ)
      (may : allowed c s) (rest : Runs (next c s) (effect c s) result s') :
      Runs (.step effect next) s result s'

variable {allowed}

@[simp] theorem runs_pure {a b : α} {s s' : σ} :
    Runs allowed (pure a) s b s' ↔ a = b ∧ s = s' := by
  constructor
  · intro run
    cases run with
    | done => exact ⟨rfl, rfl⟩
  · rintro ⟨rfl, rfl⟩
    exact .done a s

@[simp] theorem runs_act {f : χ → σ → α × σ} {s s' : σ} {a : α} :
    Runs allowed (act f) s a s' ↔ ∃ c, allowed c s ∧ f c s = (a, s') := by
  constructor
  · intro run
    cases run with
    | step c may rest =>
        cases rest with
        | done => exact ⟨c, may, rfl⟩
  · rintro ⟨c, may, result⟩
    refine .step c may ?_
    rw [result]
    exact .done a s'

@[simp] theorem runs_bind {t : Program χ σ α} {f : α → Program χ σ β} {s s' : σ} {b : β} :
    Runs allowed (t >>= f) s b s' ↔ ∃ a m, Runs allowed t s a m ∧ Runs allowed (f a) m b s' := by
  constructor
  · intro run
    induction t generalizing s with
    | done result => exact ⟨result, s, .done result s, run⟩
    | step effect next ih =>
        cases run with
        | step c may rest =>
            obtain ⟨a, m, first, second⟩ := ih c s rest
            exact ⟨a, m, .step c may first, second⟩
    | never => cases run
  · rintro ⟨a, m, first, second⟩
    induction first with
    | done => exact second
    | step c may _ ih => exact .step c may (ih second)

theorem Runs.mono {wider : χ → σ → Prop} (widens : ∀ c s, allowed c s → wider c s)
    {t : Program χ σ α} {s s' : σ} {a : α} (run : Runs allowed t s a s') : Runs wider t s a s' := by
  induction run with
  | done result s => exact .done result s
  | step c may _ ih => exact .step c (widens c _ may) ih

/-- The run under decisions that are given in advance. -/
def exec : List χ → Program χ σ α → σ → Option (α × σ)
  | _, .done result, s => some (result, s)
  | c :: cs, .step effect next, s => exec cs (next c s) (effect c s)
  | [], .step _ _, _ => none
  | _, .never, _ => none

theorem runs_of_exec {cs : List χ} {t : Program χ σ α} {s s' : σ} {a : α}
    (may : ∀ c ∈ cs, ∀ s, allowed c s) (ran : exec cs t s = some (a, s')) :
    Runs allowed t s a s' := by
  induction cs generalizing t s with
  | nil =>
      cases t with
      | done result =>
          obtain ⟨rfl, rfl⟩ := Prod.mk.inj (Option.some.inj ran)
          exact .done _ _
      | step effect next => cases ran
      | never => cases ran
  | cons c cs ih =>
      cases t with
      | done result =>
          obtain ⟨rfl, rfl⟩ := Prod.mk.inj (Option.some.inj ran)
          exact .done _ _
      | step effect next =>
          refine .step c (may c List.mem_cons_self s) (ih ?_ ran)
          exact fun c' member => may c' (List.mem_cons_of_mem _ member)
      | never => cases ran

end

/-- Whenever and under whatever decision a step is taken, it relates the states around it. -/
def Keeps (G : σ → σ → Prop) : Program χ σ α → Prop
  | .done _ => True
  | .step effect next => ∀ c s, G s (effect c s) ∧ Keeps G (next c s)
  | .never => True

variable {G H : σ → σ → Prop}

theorem keeps_pure (a : α) : Keeps G (pure a : Program χ σ α) := trivial

theorem keeps_act {f : χ → σ → α × σ} (each : ∀ c s, G s (f c s).2) : Keeps G (act f) :=
  fun c s => ⟨each c s, trivial⟩

theorem Keeps.bind {t : Program χ σ α} {f : α → Program χ σ β} (first : Keeps G t)
    (second : ∀ a, Keeps G (f a)) : Keeps G (t >>= f) := by
  induction t with
  | done result => exact second result
  | step effect next ih => exact fun c s => ⟨(first c s).1, ih c s (first c s).2⟩
  | never => trivial

theorem Keeps.mono {t : Program χ σ α} (keeps : Keeps G t) (weakens : ∀ s s', G s s' → H s s') :
    Keeps H t := by
  induction t with
  | done result => trivial
  | step effect next ih =>
      exact fun c s => ⟨weakens _ _ (keeps c s).1, ih c s (keeps c s).2⟩
  | never => trivial

theorem keeps_forM {f : α → Program χ σ PUnit} {items : List α}
    (each : ∀ a ∈ items, Keeps G (f a)) :
    Keeps G (forM items f) := by
  induction items with
  | nil => exact keeps_pure _
  | cons item items ih =>
      refine Keeps.bind (each item List.mem_cons_self) fun _ => ih fun a member => ?_
      exact each a (List.mem_cons_of_mem _ member)

theorem Runs.keeps {allowed : χ → σ → Prop} {t : Program χ σ α} {s s' : σ} {a : α}
    (run : Runs allowed t s a s') (keeps : Keeps G t) (refl : ∀ s, G s s)
    (trans : ∀ s m s', G s m → G m s' → G s s') : G s s' := by
  induction run with
  | done result s => exact refl s
  | step c _ _ ih => exact trans _ _ _ (keeps c _).1 (ih (keeps c _).2)

/-- What every step relates in a program that begins in a state. -/
def KeepsFrom (G : σ → σ → Prop) : Program χ σ α → σ → Prop
  | .done _, _ => True
  | .step effect next, s => ∀ c, G s (effect c s) ∧ Keeps G (next c s)
  | .never, _ => True

theorem Keeps.keepsFrom {t : Program χ σ α} (keeps : Keeps G t) (s : σ) : KeepsFrom G t s := by
  cases t with
  | done result => trivial
  | step effect next => exact fun c => keeps c s
  | never => trivial

/-- A step that changes nothing, or makes one of the changes it may make. -/
def Does {ε : Type} (apply : ε → σ → σ) (may : ε → Prop) (s s' : σ) : Prop :=
  s' = s ∨ ∃ e, may e ∧ s' = apply e s

theorem Does.mono {ε : Type} {apply : ε → σ → σ} {may wider : ε → Prop}
    (widens : ∀ e, may e → wider e) {s s' : σ} (does : Does apply may s s') :
    Does apply wider s s' := does.imp_right fun ⟨e, allowed, same⟩ => ⟨e, widens e allowed, same⟩

section

variable {allowed : χ → σ → Prop} {I : σ → Prop} {P Q : α → Prop}

/-- While the others keep `I`, every step keeps `I` and relates the states around it, and what
comes out satisfies `Q`. -/
def Secures (allowed : χ → σ → Prop) (I : σ → Prop) (G : σ → σ → Prop) (Q : α → Prop) :
    Program χ σ α → Prop
  | .done result => Q result
  | .step effect next => ∀ c s, allowed c s → I s →
      I (effect c s) ∧ G s (effect c s) ∧ Secures allowed I G Q (next c s)
  | .never => True

theorem secures_pure {a : α} (result : Q a) :
    Secures allowed I G Q (pure a : Program χ σ α) := result

theorem secures_act {f : χ → σ → α × σ}
    (each : ∀ c s, allowed c s → I s → I (f c s).2 ∧ G s (f c s).2 ∧ Q (f c s).1) :
    Secures allowed I G Q (act f) := each

theorem Secures.bind {Q : β → Prop} {t : Program χ σ α} {f : α → Program χ σ β}
    (first : Secures allowed I G P t) (second : ∀ a, P a → Secures allowed I G Q (f a)) :
    Secures allowed I G Q (t >>= f) := by
  induction t with
  | done result => exact second result first
  | step effect next ih =>
      intro c s may holds
      obtain ⟨kept, related, rest⟩ := first c s may holds
      exact ⟨kept, related, ih c s rest⟩
  | never => trivial

theorem Secures.mono {t : Program χ σ α} (secures : Secures allowed I G P t)
    (weakens : ∀ s s', I s → G s s' → H s s') (results : ∀ a, P a → Q a) :
    Secures allowed I H Q t := by
  induction t with
  | done result => exact results result secures
  | step effect next ih =>
      intro c s may holds
      obtain ⟨kept, related, rest⟩ := secures c s may holds
      exact ⟨kept, weakens _ _ holds related, ih c s rest⟩
  | never => trivial

theorem Keeps.secures {t : Program χ σ α} (keeps : Keeps G t)
    (stable : ∀ s s', I s → G s s' → I s') : Secures allowed I G (fun _ => True) t := by
  induction t with
  | done result => trivial
  | step effect next ih =>
      intro c s _ holds
      obtain ⟨related, rest⟩ := keeps c s
      exact ⟨stable _ _ holds related, related, ih c s rest⟩
  | never => trivial

theorem Runs.secures {s s' : σ} {t : Program χ σ α} {a : α} (run : Runs allowed t s a s')
    (secures : Secures allowed I G Q t) (holds : I s) (refl : ∀ s, G s s)
    (trans : ∀ s m s', G s m → G m s' → G s s') : I s' ∧ G s s' ∧ Q a := by
  induction run with
  | done result s => exact ⟨holds, refl s, secures⟩
  | step c may _ ih =>
      obtain ⟨kept, related, rest⟩ := secures c _ may holds
      obtain ⟨kept', related', result⟩ := ih rest kept
      exact ⟨kept', trans _ _ _ related related', result⟩

end

section

variable {allowed : χ → σ → Prop}

/-- From every state there is a run. -/
def Total (allowed : χ → σ → Prop) (t : Program χ σ α) : Prop :=
  ∀ s, ∃ a s', Runs allowed t s a s'

theorem total_pure (a : α) : Total allowed (pure a : Program χ σ α) :=
  fun s => ⟨a, s, runs_pure.mpr ⟨rfl, rfl⟩⟩

theorem total_act {f : χ → σ → α × σ} (may : ∀ s, ∃ c, allowed c s) : Total allowed (act f) := by
  intro s
  obtain ⟨c, may⟩ := may s
  exact ⟨_, _, runs_act.mpr ⟨c, may, rfl⟩⟩

theorem Total.bind {t : Program χ σ α} {f : α → Program χ σ β} (first : Total allowed t)
    (second : ∀ a, Total allowed (f a)) : Total allowed (t >>= f) := by
  intro s
  obtain ⟨a, m, run⟩ := first s
  obtain ⟨b, s', rest⟩ := second a m
  exact ⟨b, s', runs_bind.mpr ⟨a, m, run, rest⟩⟩

theorem total_forM {f : α → Program χ σ PUnit} (items : List α)
    (each : ∀ a, Total allowed (f a)) : Total allowed (forM items f) := by
  induction items with
  | nil => exact total_pure _
  | cons item items ih => exact (each item).bind fun _ => ih

end

section

variable {allowed : χ → σ → Prop} {R : σ → σ → Prop} {A : α → β → Prop}

/-- To every run of the one program from a state there is one of the other from a related state,
with related results. -/
def Simulates (allowed : χ → σ → Prop) (R : σ → σ → Prop) (A : α → β → Prop)
    (t : Program χ σ α) (t' : Program χ σ β) : Prop :=
  ∀ s s' a s₁, R s s' → Runs allowed t s a s₁ → ∃ b s₁', Runs allowed t' s' b s₁' ∧ R s₁ s₁' ∧ A a b

theorem simulates_pure {a : α} {b : β} (results : A a b) :
    Simulates allowed R A (pure a) (pure b) := by
  intro s s' a' s₁ related run
  obtain ⟨rfl, rfl⟩ := runs_pure.mp run
  exact ⟨b, s', runs_pure.mpr ⟨rfl, rfl⟩, related, results⟩

theorem Simulates.bind {δ : Type} {B : γ → δ → Prop} {t : Program χ σ α} {t' : Program χ σ β}
    {f : α → Program χ σ γ} {f' : β → Program χ σ δ} (first : Simulates allowed R A t t')
    (second : ∀ a b, A a b → Simulates allowed R B (f a) (f' b)) :
    Simulates allowed R B (t >>= f) (t' >>= f') := by
  intro s s' c s₁ related run
  obtain ⟨a, m, run, rest⟩ := runs_bind.mp run
  obtain ⟨b, m', run', related, results⟩ := first s s' a m related run
  obtain ⟨d, s₁', rest', related, results⟩ := second a b results m m' c s₁ related rest
  exact ⟨d, s₁', runs_bind.mpr ⟨b, m', run', rest'⟩, related, results⟩

theorem simulates_forM {f : α → Program χ σ PUnit} {items : List α}
    (each : ∀ a ∈ items, Simulates allowed R (fun _ _ => True) (f a) (f a)) :
    Simulates allowed R (fun _ _ => True) (forM items f) (forM items f) := by
  induction items with
  | nil => exact simulates_pure trivial
  | cons item items ih =>
      refine (each item List.mem_cons_self).bind fun _ _ _ => ih fun a member => ?_
      exact each a (List.mem_cons_of_mem _ member)

end

section

variable (get : σ → τ) (put : τ → σ → σ)

/-- A program over a part of the state. -/
def zoom : Program χ τ α → Program χ σ α
  | .done result => .done result
  | .step effect next =>
      .step (fun c s => put (effect c (get s)) s) fun c s => zoom (next c (get s))
  | .never => .never

variable {get put}

theorem Keeps.zoom {t : Program χ τ α} {P : τ → τ → Prop} (keeps : Keeps P t)
    (lifts : ∀ s r, P (get s) r → G s (put r s)) : Keeps G (zoom get put t) := by
  induction t with
  | done result => trivial
  | step effect next ih =>
      exact fun c s => ⟨lifts _ _ (keeps c _).1, ih c _ (keeps c _).2⟩
  | never => trivial

/-- What is secured for a part is secured for the whole, while the others keep it of the part. -/
theorem Secures.zoom {allowed : χ → τ → Prop} {J : τ → Prop} {Q : α → Prop} {t : Program χ τ α}
    (secures : Secures allowed J (fun _ _ => True) Q t) (get_put : ∀ r s, get (put r s) = r) :
    Secures (fun c s => allowed c (get s)) (fun s => J (get s)) (fun _ _ => True) Q
      (zoom get put t) := by
  induction t with
  | done result => exact secures
  | step effect next ih =>
      intro c s may holds
      obtain ⟨kept, -, rest⟩ := secures c (get s) may holds
      have kept' : J (get (put (effect c (get s)) s)) := by
        rw [get_put]
        exact kept
      exact ⟨kept', trivial, ih c (get s) rest⟩
  | never => trivial

/-- An undisturbed run over a part is one of the whole that leaves the rest alone. -/
theorem runs_zoom (get_put : ∀ r s, get (put r s) = r) (put_get : ∀ s, put (get s) s = s)
    (put_put : ∀ r r' s, put r' (put r s) = put r' s) {allowed : χ → τ → Prop}
    {t : Program χ τ α} {s s' : σ} {a : α} :
    Runs (fun c s => allowed c (get s)) (zoom get put t) s a s' ↔
      ∃ r, Runs allowed t (get s) a r ∧ s' = put r s := by
  induction t generalizing s with
  | done result =>
      constructor
      · intro run
        cases run with
        | done => exact ⟨_, .done _ _, (put_get _).symm⟩
      · rintro ⟨r, run, rfl⟩
        cases run with
        | done =>
            rw [put_get]
            exact .done _ _
  | step effect next ih =>
      constructor
      · intro run
        cases run with
        | step c may rest =>
            obtain ⟨r, run, rfl⟩ := (ih c (get s)).mp rest
            rw [get_put] at run
            exact ⟨r, .step c may run, put_put _ _ _⟩
      · rintro ⟨r, run, rfl⟩
        cases run with
        | step c may rest =>
            refine .step c may ((ih c (get s)).mpr ⟨r, ?_, ?_⟩)
            · rw [get_put]
              exact rest
            · rw [put_put]
  | never =>
      constructor
      · intro run
        cases run
      · rintro ⟨r, run, -⟩
        cases run

end

section

variable {ε ε' : Type} {allowed : χ → σ → Prop} {s s' : σ}

@[simp] theorem runs_run_pure {a : α} {r : Except ε α} :
    Runs allowed (pure a : ExceptT ε (Program χ σ) α).run s r s' ↔ .ok a = r ∧ s = s' := runs_pure

@[simp] theorem runs_run_throw {e : ε} {r : Except ε α} :
    Runs allowed (throw e : ExceptT ε (Program χ σ) α).run s r s' ↔ .error e = r ∧ s = s' :=
  runs_pure

@[simp] theorem runs_run_mk {t : Program χ σ (Except ε α)} {r : Except ε α} :
    Runs allowed (ExceptT.mk t).run s r s' ↔ Runs allowed t s r s' := Iff.rfl

@[simp] theorem runs_run_lift {t : Program χ σ α} {r : Except ε α} :
    Runs allowed (liftM t : ExceptT ε (Program χ σ) α).run s r s' ↔
      ∃ a, Runs allowed t s a s' ∧ .ok a = r := by
  change Runs allowed (t >>= fun a => pure (.ok a)) s r s' ↔ _
  simp only [runs_bind, runs_pure]
  constructor
  · rintro ⟨a, m, run, result, rfl⟩
    exact ⟨a, run, result⟩
  · rintro ⟨a, run, result⟩
    exact ⟨a, s', run, result, rfl⟩

@[simp] theorem runs_run_bind {t : ExceptT ε (Program χ σ) α} {f : α → ExceptT ε (Program χ σ) β}
    {r : Except ε β} :
    Runs allowed (t >>= f).run s r s' ↔
      (∃ a m, Runs allowed t.run s (.ok a) m ∧ Runs allowed (f a).run m r s') ∨
        ∃ e, r = .error e ∧ Runs allowed t.run s (.error e) s' := by
  rw [ExceptT.run_bind, runs_bind]
  constructor
  · rintro ⟨a | e, m, first, second⟩
    · obtain ⟨rfl, rfl⟩ := runs_pure.mp second
      exact Or.inr ⟨_, rfl, first⟩
    · exact Or.inl ⟨_, m, first, second⟩
  · rintro (⟨a, m, first, second⟩ | ⟨e, rfl, first⟩)
    · exact ⟨.ok a, m, first, second⟩
    · exact ⟨.error e, s', first, runs_pure.mpr ⟨rfl, rfl⟩⟩

@[simp] theorem runs_run_bind_ok {t : ExceptT ε (Program χ σ) α}
    {f : α → ExceptT ε (Program χ σ) β} {b : β} :
    Runs allowed (t >>= f).run s (.ok b) s' ↔
      ∃ a m, Runs allowed t.run s (.ok a) m ∧ Runs allowed (f a).run m (.ok b) s' := by
  rw [runs_run_bind]
  constructor
  · rintro (ran | ⟨e, other, -⟩)
    · exact ran
    · cases other
  · exact Or.inl

theorem Keeps.run_bind {t : ExceptT ε (Program χ σ) α} {f : α → ExceptT ε (Program χ σ) β}
    (first : Keeps G t.run) (second : ∀ a, Keeps G (f a).run) : Keeps G (t >>= f).run := by
  rw [ExceptT.run_bind]
  refine Keeps.bind first fun result => ?_
  cases result with
  | ok a => exact second a
  | error e => exact keeps_pure _

/-- A failure becomes a value. -/
def attempt (t : ExceptT ε (Program χ σ) α) : ExceptT ε' (Program χ σ) (Except ε α) := liftM t.run

@[simp] theorem runs_attempt {t : ExceptT ε (Program χ σ) α} {r : Except ε' (Except ε α)} :
    Runs allowed (attempt t : ExceptT ε' (Program χ σ) _).run s r s' ↔
      ∃ a, Runs allowed t.run s a s' ∧ .ok a = r := runs_run_lift

@[simp] theorem runs_adapt {f : ε → ε'} {t : ExceptT ε (Program χ σ) α} {r : Except ε' α} :
    Runs allowed (ExceptT.adapt f t).run s r s' ↔
      ∃ a, Runs allowed t.run s a s' ∧ a.mapError f = r := by
  change Runs allowed (Except.mapError f <$> t.run) s r s' ↔ _
  simp only [map_eq_pure_bind, runs_bind, runs_pure]
  constructor
  · rintro ⟨a, m, run, result, rfl⟩
    exact ⟨a, run, result⟩
  · rintro ⟨a, run, result⟩
    exact ⟨a, s', run, result, rfl⟩

theorem adapt_bind {f : ε → ε'} (t : ExceptT ε (Program χ σ) α)
    (g : α → ExceptT ε (Program χ σ) β) :
    ExceptT.adapt f (t >>= g) = ExceptT.adapt f t >>= fun a => ExceptT.adapt f (g a) := by
  apply ExceptT.ext
  show Except.mapError f <$>
      (t >>= g).run = (ExceptT.adapt f t >>= fun a => ExceptT.adapt f (g a)).run
  rw [ExceptT.run_bind, ExceptT.run_bind, map_eq_pure_bind]
  show _ = Except.mapError f <$> t.run >>= _
  rw [map_eq_pure_bind, LawfulMonad.bind_assoc, LawfulMonad.bind_assoc]
  congr 1
  funext result
  cases result with
  | ok a => rfl
  | error e => rfl

@[simp] theorem runs_adapt_ok {f : ε → ε'} {t : ExceptT ε (Program χ σ) α} {a : α} :
    Runs allowed (ExceptT.adapt f t).run s (.ok a) s' ↔ Runs allowed t.run s (.ok a) s' := by
  rw [runs_adapt]
  constructor
  · rintro ⟨result, run, same⟩
    rw [← Result.mapError_eq_ok.mp same]
    exact run
  · exact fun run => ⟨.ok a, run, rfl⟩

theorem Keeps.lift {t : Program χ σ α} (keeps : Keeps G t) :
    Keeps G (liftM t : ExceptT ε (Program χ σ) α).run :=
  Keeps.bind keeps fun _ => keeps_pure _

theorem Keeps.attempt {t : ExceptT ε (Program χ σ) α} (keeps : Keeps G t.run) :
    Keeps G (attempt t : ExceptT ε' (Program χ σ) _).run := Keeps.lift keeps

theorem Keeps.adapt {f : ε → ε'} {t : ExceptT ε (Program χ σ) α} (keeps : Keeps G t.run) :
    Keeps G (ExceptT.adapt f t).run := by
  change Keeps G (Except.mapError f <$> t.run)
  rw [map_eq_pure_bind]
  exact Keeps.bind keeps fun _ => keeps_pure _

theorem Keeps.run_forM {f : α → ExceptT ε (Program χ σ) PUnit} {items : List α}
    (each : ∀ a ∈ items, Keeps G (f a).run) : Keeps G (forM items f).run := by
  induction items with
  | nil => exact keeps_pure _
  | cons item items ih =>
      refine Keeps.run_bind (each item List.mem_cons_self) fun _ => ih fun a member => ?_
      exact each a (List.mem_cons_of_mem _ member)

/-- What holds of the value a program comes to, if it comes to one. -/
def OnOk (Q : α → Prop) (result : Except ε α) : Prop := ∀ a, result = .ok a → Q a

variable {I : σ → Prop}

theorem Secures.run_bind {P : α → Prop} {Q : β → Prop} {t : ExceptT ε (Program χ σ) α}
    {f : α → ExceptT ε (Program χ σ) β} (first : Secures allowed I G (OnOk P) t.run)
    (second : ∀ a, P a → Secures allowed I G (OnOk Q) (f a).run) :
    Secures allowed I G (OnOk Q) (t >>= f).run := by
  rw [ExceptT.run_bind]
  refine Secures.bind first fun result holds => ?_
  cases result with
  | ok a => exact second a (holds a rfl)
  | error e =>
      apply secures_pure
      intro a same
      cases same

theorem Secures.lift {P : α → Prop} {t : Program χ σ α} (secures : Secures allowed I G P t) :
    Secures allowed I G (OnOk P) (liftM t : ExceptT ε (Program χ σ) α).run := by
  refine Secures.bind secures fun a holds => secures_pure ?_
  intro b same
  rw [← Except.ok.inj same]
  exact holds

theorem Secures.attempt {P : Except ε α → Prop} {t : ExceptT ε (Program χ σ) α}
    (secures : Secures allowed I G P t.run) :
    Secures allowed I G (OnOk P) (attempt t : ExceptT ε' (Program χ σ) _).run :=
  Secures.lift secures

theorem Secures.adapt {P : α → Prop} {f : ε → ε'} {t : ExceptT ε (Program χ σ) α}
    (secures : Secures allowed I G (OnOk P) t.run) :
    Secures allowed I G (OnOk P) (ExceptT.adapt f t).run := by
  change Secures allowed I G (OnOk P) (Except.mapError f <$> t.run)
  rw [map_eq_pure_bind]
  refine Secures.bind secures fun result holds => secures_pure ?_
  intro a same
  cases result with
  | ok b =>
      rw [← Except.ok.inj same]
      exact holds b rfl
  | error e => cases same

theorem secures_run_pure {Q : α → Prop} {a : α} (result : Q a) :
    Secures allowed I G (OnOk Q) (pure a : ExceptT ε (Program χ σ) α).run := by
  apply secures_pure
  intro b same
  rw [← Except.ok.inj same]
  exact result

theorem secures_run_throw {Q : α → Prop} {e : ε} :
    Secures allowed I G (OnOk Q) (throw e : ExceptT ε (Program χ σ) α).run := by
  apply secures_pure
  intro b same
  cases same

theorem Secures.run_forM {f : α → ExceptT ε (Program χ σ) PUnit} {items : List α}
    (each : ∀ a ∈ items, Secures allowed I G (OnOk fun _ => True) (f a).run) :
    Secures allowed I G (OnOk fun _ => True) (forM items f).run := by
  induction items with
  | nil => exact secures_run_pure trivial
  | cons item items ih =>
      refine Secures.run_bind (each item List.mem_cons_self) fun _ _ => ih fun a member => ?_
      exact each a (List.mem_cons_of_mem _ member)

/-- No run ends in an error. -/
def Succeeds (allowed : χ → σ → Prop) (t : ExceptT ε (Program χ σ) α) : Prop :=
  ∀ s r s', Runs allowed t.run s r s' → ∃ a, r = .ok a

theorem succeeds_pure (a : α) : Succeeds allowed (pure a : ExceptT ε (Program χ σ) α) :=
  fun _ _ _ run => ⟨a, (runs_run_pure.mp run).1.symm⟩

theorem Succeeds.bind {t : ExceptT ε (Program χ σ) α} {f : α → ExceptT ε (Program χ σ) β}
    (first : Succeeds allowed t) (second : ∀ a, Succeeds allowed (f a)) :
    Succeeds allowed (t >>= f) := by
  intro s r s' run
  rcases runs_run_bind.mp run with ⟨a, m, -, rest⟩ | ⟨e, -, failed⟩
  · exact second a m r s' rest
  · obtain ⟨a, same⟩ := first s _ s' failed
    cases same

theorem succeeds_lift (t : Program χ σ α) :
    Succeeds allowed (liftM t : ExceptT ε (Program χ σ) α) := by
  intro s r s' run
  obtain ⟨a, -, same⟩ := runs_run_lift.mp run
  exact ⟨a, same.symm⟩

theorem succeeds_forM {f : α → ExceptT ε (Program χ σ) PUnit} (items : List α)
    (each : ∀ a, Succeeds allowed (f a)) : Succeeds allowed (forM items f) := by
  induction items with
  | nil => exact succeeds_pure _
  | cons item items ih => exact (each item).bind fun _ => ih

/-- Whenever the program comes to a value, it does so under decisions that are allowed. -/
def Sure (allowed : χ → σ → Prop) (t : ExceptT ε (Program χ σ) α) : Prop :=
  ∀ s a s', Runs (fun _ _ => True) t.run s (.ok a) s' → Runs allowed t.run s (.ok a) s'

theorem sure_pure (a : α) : Sure allowed (pure a : ExceptT ε (Program χ σ) α) :=
  fun _ _ _ run => runs_run_pure.mpr (runs_run_pure.mp run)

theorem Sure.bind {t : ExceptT ε (Program χ σ) α} {f : α → ExceptT ε (Program χ σ) β}
    (first : Sure allowed t) (second : ∀ a, Sure allowed (f a)) : Sure allowed (t >>= f) := by
  intro s b s' run
  obtain ⟨a, m, run, rest⟩ := runs_run_bind_ok.mp run
  exact runs_run_bind_ok.mpr ⟨a, m, first s a m run, second a m b s' rest⟩

theorem Sure.adapt {f : ε → ε'} {t : ExceptT ε (Program χ σ) α} (sure : Sure allowed t) :
    Sure allowed (ExceptT.adapt f t) := by
  intro s a s' run
  exact runs_adapt_ok.mpr (sure s a s' (runs_adapt_ok.mp run))

theorem Total.run_bind {t : ExceptT ε (Program χ σ) α} {f : α → ExceptT ε (Program χ σ) β}
    (first : Total allowed t.run) (second : ∀ a, Total allowed (f a).run) :
    Total allowed (t >>= f).run := by
  rw [ExceptT.run_bind]
  refine Total.bind first fun result => ?_
  cases result with
  | ok a => exact second a
  | error e => exact total_pure _

theorem Total.lift {t : Program χ σ α} (total : Total allowed t) :
    Total allowed (liftM t : ExceptT ε (Program χ σ) α).run :=
  total.bind fun _ => total_pure _

theorem Total.attempt {t : ExceptT ε (Program χ σ) α} (total : Total allowed t.run) :
    Total allowed (attempt t : ExceptT ε' (Program χ σ) _).run := Total.lift total

theorem Total.adapt {f : ε → ε'} {t : ExceptT ε (Program χ σ) α} (total : Total allowed t.run) :
    Total allowed (ExceptT.adapt f t).run := by
  change Total allowed (Except.mapError f <$> t.run)
  rw [map_eq_pure_bind]
  exact total.bind fun _ => total_pure _

theorem total_run_forM {f : α → ExceptT ε (Program χ σ) PUnit} (items : List α)
    (each : ∀ a, Total allowed (f a).run) : Total allowed (forM items f).run := by
  induction items with
  | nil => exact total_pure _
  | cons item items ih => exact (each item).run_bind fun _ => ih

/-- Related values, or the same error. -/
def SameOutcome (A : α → β → Prop) : Except ε α → Except ε β → Prop
  | .ok a, .ok b => A a b
  | .error e, .error e' => e = e'
  | _, _ => False

variable {R : σ → σ → Prop} {A : α → β → Prop}

theorem Simulates.run_bind {δ : Type} {B : γ → δ → Prop} {t : ExceptT ε (Program χ σ) α}
    {t' : ExceptT ε (Program χ σ) β} {f : α → ExceptT ε (Program χ σ) γ}
    {f' : β → ExceptT ε (Program χ σ) δ}
    (first : Simulates allowed R (SameOutcome A) t.run t'.run)
    (second : ∀ a b, A a b → Simulates allowed R (SameOutcome B) (f a).run (f' b).run) :
    Simulates allowed R (SameOutcome B) (t >>= f).run (t' >>= f').run := by
  rw [ExceptT.run_bind, ExceptT.run_bind]
  refine Simulates.bind first fun result result' same => ?_
  cases result with
  | ok a =>
      cases result' with
      | ok b => exact second a b same
      | error e => exact same.elim
  | error e =>
      cases result' with
      | ok b => exact same.elim
      | error e' => exact simulates_pure same

theorem Simulates.lift {t : Program χ σ α} {t' : Program χ σ β}
    (simulates : Simulates allowed R A t t') :
    Simulates allowed R (SameOutcome A) (liftM t : ExceptT ε (Program χ σ) α).run
      (liftM t' : ExceptT ε (Program χ σ) β).run :=
  Simulates.bind simulates fun _ _ same => simulates_pure same

theorem Simulates.attempt {t : ExceptT ε (Program χ σ) α} {t' : ExceptT ε (Program χ σ) β}
    (simulates : Simulates allowed R (SameOutcome A) t.run t'.run) :
    Simulates allowed R (SameOutcome (SameOutcome A))
      (attempt t : ExceptT ε' (Program χ σ) _).run (attempt t' : ExceptT ε' (Program χ σ) _).run :=
  Simulates.lift simulates

theorem Simulates.adapt {f : ε → ε'} {t : ExceptT ε (Program χ σ) α}
    {t' : ExceptT ε (Program χ σ) β}
    (simulates : Simulates allowed R (SameOutcome A) t.run t'.run) :
    Simulates allowed R (SameOutcome A) (ExceptT.adapt f t).run (ExceptT.adapt f t').run := by
  change Simulates allowed R (SameOutcome A) (Except.mapError f <$> t.run)
    (Except.mapError f <$> t'.run)
  rw [map_eq_pure_bind, map_eq_pure_bind]
  refine Simulates.bind simulates fun result result' same => simulates_pure ?_
  cases result with
  | ok a =>
      cases result' with
      | ok b => exact same
      | error e => exact same.elim
  | error e =>
      cases result' with
      | ok b => exact same.elim
      | error e' => exact congrArg f same

theorem simulates_run_forM {f : α → ExceptT ε (Program χ σ) PUnit} {items : List α}
    (each : ∀ a ∈ items, Simulates allowed R (SameOutcome fun _ _ => True) (f a).run (f a).run) :
    Simulates allowed R (SameOutcome fun _ _ => True) (forM items f).run (forM items f).run := by
  induction items with
  | nil => exact simulates_pure trivial
  | cons item items ih =>
      refine Simulates.run_bind (each item List.mem_cons_self) fun _ _ _ => ih fun a member => ?_
      exact each a (List.mem_cons_of_mem _ member)

end

end Program

end Hysj
