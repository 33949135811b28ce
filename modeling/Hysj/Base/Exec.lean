import Hysj.Base.Program

set_option autoImplicit false

/- Runs under decisions that are given in advance, and the decisions they leave. -/
namespace Hysj.Program

variable {χ σ τ α β ε ε' : Type}

/-- The run, and the decisions that it did not need. -/
def execRest : List χ → Program χ σ α → σ → Option (α × σ × List χ)
  | cs, .done result, s => some (result, s, cs)
  | c :: cs, .step effect next, s => execRest cs (next c s) (effect c s)
  | [], .step _ _, _ => none
  | _, .never, _ => none

/-- A program goes on with the decisions that are left. -/
def thenExec (f : α → Program χ σ β) (r : α × σ × List χ) : Option (β × σ × List χ) :=
  execRest r.2.2 (f r.1) r.2.1

theorem rest_inj {a a' : α} {s s' : σ} {cs cs' : List χ}
    (same : some (a, s, cs) = some (a', s', cs')) : a = a' ∧ s = s' ∧ cs = cs' := by
  simpa only [Option.some.injEq, Prod.mk.injEq] using same

theorem exec_eq (cs : List χ) (t : Program χ σ α) (s : σ) :
    exec cs t s = (execRest cs t s).map fun r => (r.1, r.2.1) := by
  induction cs generalizing t s with
  | nil => cases t <;> rfl
  | cons c cs ih =>
      cases t with
      | done result => rfl
      | step effect next => exact ih _ _
      | never => rfl

theorem execRest_pure (cs : List χ) (a : α) (s : σ) :
    execRest cs (pure a : Program χ σ α) s = some (a, s, cs) := by cases cs <;> rfl

@[simp] theorem execRest_act (c : χ) (cs : List χ) (f : χ → σ → α × σ) (s : σ) :
    execRest (c :: cs) (act f) s = some ((f c s).1, (f c s).2, cs) :=
  execRest_pure cs (f c s).1 (f c s).2

theorem execRest_bind (cs : List χ) (t : Program χ σ α) (f : α → Program χ σ β) (s : σ) :
    execRest cs (t >>= f) s = (execRest cs t s).bind (thenExec f) := by
  induction cs generalizing t s with
  | nil =>
      cases t with
      | done result => rfl
      | step effect next => rfl
      | never => rfl
  | cons c cs ih =>
      cases t with
      | done result => rfl
      | step effect next => exact ih _ _
      | never => rfl

theorem execRest_map (cs : List χ) (f : α → β) (t : Program χ σ α) (s : σ) :
    execRest cs (f <$> t) s = (execRest cs t s).map fun r => (f r.1, r.2) := by
  rw [map_eq_pure_bind, execRest_bind]
  cases execRest cs t s with
  | none => rfl
  | some r => exact execRest_pure _ _ _

/-- A program over a part of the state leaves the same decisions. -/
theorem execRest_zoom {get : σ → τ} {put : τ → σ → σ} (get_put : ∀ r s, get (put r s) = r)
    (put_get : ∀ s, put (get s) s = s) (put_put : ∀ r r' s, put r' (put r s) = put r' s)
    (cs : List χ) (t : Program χ τ α) (s : σ) :
    execRest cs (zoom get put t) s =
      (execRest cs t (get s)).map fun r => (r.1, put r.2.1 s, r.2.2) := by
  induction cs generalizing t s with
  | nil =>
      cases t with
      | done result => simp [zoom, execRest, put_get]
      | step effect next => rfl
      | never => rfl
  | cons c cs ih =>
      cases t with
      | done result => simp [zoom, execRest, put_get]
      | step effect next =>
          rw [zoom, execRest, execRest, ih, get_put]
          congr
          funext r
          rw [put_put]
      | never => rfl

theorem runs_of_execRest {cs left : List χ} {t : Program χ σ α} {s s' : σ} {a : α}
    (ran : execRest cs t s = some (a, s', left)) : Runs (fun _ _ => True) t s a s' := by
  apply @runs_of_exec _ _ _ _ cs _ _ _ _ (fun _ _ _ => trivial)
  rw [exec_eq, ran]
  rfl

/-- What follows a value; a failure ends the program. -/
def thenRun (f : α → ExceptT ε (Program χ σ) β) :
    Except ε α × σ × List χ → Option (Except ε β × σ × List χ)
  | (.ok a, s, cs) => execRest cs (f a).run s
  | (.error e, s, cs) => some (.error e, s, cs)

theorem execRest_run_bind (cs : List χ) (t : ExceptT ε (Program χ σ) α)
    (f : α → ExceptT ε (Program χ σ) β) (s : σ) :
    execRest cs (t >>= f).run s = (execRest cs t.run s).bind (thenRun f) := by
  rw [ExceptT.run_bind, execRest_bind]
  congr
  funext r
  obtain ⟨a | e, s', cs'⟩ := r
  · exact execRest_pure _ _ _
  · rfl

theorem execRest_run_pure (cs : List χ) (a : α) (s : σ) :
    execRest cs (pure a : ExceptT ε (Program χ σ) α).run s = some (.ok a, s, cs) :=
  execRest_pure cs _ s

theorem execRest_run_throw (cs : List χ) (e : ε) (s : σ) :
    execRest cs (throw e : ExceptT ε (Program χ σ) α).run s = some (.error e, s, cs) :=
  execRest_pure cs _ s

theorem execRest_adapt (cs : List χ) (f : ε → ε') (t : ExceptT ε (Program χ σ) α) (s : σ) :
    execRest cs (ExceptT.adapt f t).run s =
      (execRest cs t.run s).map fun r => (r.1.mapError f, r.2) :=
  execRest_map cs (Except.mapError f) t.run s

theorem execRest_lift (cs : List χ) (t : Program χ σ α) (s : σ) :
    execRest cs (liftM t : ExceptT ε (Program χ σ) α).run s =
      (execRest cs t s).map fun r => (Except.ok r.1, r.2) := by
  show execRest cs (t >>= fun a => pure (Except.ok a)) s = _
  rw [← map_eq_pure_bind]
  exact execRest_map cs Except.ok t s

end Hysj.Program
