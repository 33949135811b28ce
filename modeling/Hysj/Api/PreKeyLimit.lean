import Mathlib.Algebra.GroupWithZero.Nat
import Mathlib.Order.Lattice.Nat
import Hysj.Api.PreKeyClaims

set_option autoImplicit false

/- How many unused one-time pre-keys a device can come to have. -/
namespace Hysj.Api

open Crypto Shared Auth Messaging Program

/-- The unused keys of the device. -/
def unused (s : Server) (d : Uuid) : Nat := (s.db.available d).length

/-- No device has more unused keys than before. -/
def NoMore (s s' : Server) : Prop := ∀ d, unused s' d ≤ unused s d

def HasDevice (s : Server) (d : Uuid) : Prop := ∃ row ∈ s.db.devices, row.id = d

/-- No device is gone. -/
def KeepsDevices (s s' : Server) : Prop := s.db.devices ⊆ s'.db.devices

section

variable {α β : Type}

/-- The loop of `store_pre_keys`. -/
def storeEach (d : Uuid) (keys : List Bytes) : Program Chance Server (Except DbError PUnit) :=
  (forM keys fun key => query fun _ => Db.storePreKey d key : Task DbError PUnit).run

/-- What is left is to store so many keys on the device, and nothing about keys after that. -/
def Owes (d : Uuid) (n : Nat) (rest : Program Chance Server α) : Prop :=
  ∃ keys after, keys.length = n ∧ (∀ result, Keeps NoMore (after result)) ∧
    rest = storeEach d keys >>= after

/-- Keys are only added by loops that store them on one device, one in each call. -/
inductive Brings : Program Chance Server α → Prop where
  | owes {d : Uuid} {n : Nat} {rest : Program Chance Server α} (owes : Owes d n rest) : Brings rest
  | step {effect : Chance → Server → Server} {next : Chance → Server → Program Chance Server α}
      (quiet : ∀ c s, NoMore s (effect c s)) (rest : ∀ c s, Brings (next c s)) :
      Brings (.step effect next)
  | done (result : α) : Brings (.done result)
  | never : Brings .never

/-- One insert of the loop. -/
def storeStep (d : Uuid) (key : Bytes) (c : Chance) (s : Server) : Except DbError Unit × Server :=
  match c.fault with
  | some e => (.error (.queryFailed e), s)
  | none => ((Db.storePreKey d key s.db).1, { s with db := (Db.storePreKey d key s.db).2 })

/-- What follows an insert. -/
def afterStore (d : Uuid) (keys : List Bytes) :
    Except DbError Unit → Program Chance Server (Except DbError PUnit)
  | .ok () => storeEach d keys
  | .error e => .done (.error e)

section

variable {s s' : Server} {d d' : Uuid} {key : Bytes} {keys : List Bytes} {c : Chance} {n m : Nat}
variable {t rest : Program Chance Server α}

theorem storeEach_cons : storeEach d (key :: keys) =
    .step (fun c s => (storeStep d key c s).2) fun c s =>
    afterStore d keys (storeStep d key c s).1 := by
  have starts : storeEach d (key :: keys) = ((ExceptT.mk (.act (storeStep d key)) >>= fun _ =>
      forM keys fun key => query fun _ => Db.storePreKey d key : Task DbError PUnit)).run := rfl
  rw [starts]
  generalize storeStep d key = f
  show Program.step _ _ = Program.step _ _
  congr 1
  funext c s
  show (Program.done (f c s).1).bind _ = _
  cases (f c s).1 with
  | error e => rfl
  | ok done => rfl

theorem NoMore.refl : NoMore s s := fun _ => le_rfl

theorem noMore_of_preKeys (same : s'.db.preKeys = s.db.preKeys) : NoMore s s' := by
  intro d
  show (s'.db.preKeys.filter _).length ≤ (s.db.preKeys.filter _).length
  rw [same]

theorem noMore_usePreKey (id : Nat) : NoMore s { s with db := (Db.usePreKey id s.db).2 } := by
  intro d
  show ((s.db.preKeys.map (Db.PreKey.used id)).filter _).length ≤ (s.db.preKeys.filter _).length
  rw [← List.countP_eq_length_filter, ← List.countP_eq_length_filter, List.countP_map]
  apply List.countP_mono_left
  intro row _ available
  exact decide_eq_true (of_decide_eq_true available).of_used

theorem unused_insert (there : HasDevice s d) :
    unused { s with db := (Db.storePreKey d key s.db).2 } d' =
      unused s d' + if d = d' then 1 else 0 := by
  rw [storePreKey_of_there there]
  show ((s.db.preKeys ++ [_]).filter _).length = (s.db.preKeys.filter _).length + _
  rw [List.filter_append, List.length_append]
  congr 1
  by_cases same : d = d'
  · simp [same]
  · simp [same]

theorem storeStep_cases (d : Uuid) (key : Bytes) (c : Chance) (s : Server) :
    ((storeStep d key c s).1 = .ok () ∧ HasDevice s d ∧
      ∀ d', unused (storeStep d key c s).2 d' = unused s d' + if d = d' then 1 else 0) ∨
    ∃ e, (storeStep d key c s).1 = .error e ∧
    (storeStep d key c s).2.db.preKeys = s.db.preKeys := by
  unfold storeStep
  cases c.fault with
  | some e => exact Or.inr ⟨_, rfl, rfl⟩
  | none =>
      dsimp only
      by_cases there : HasDevice s d
      · refine Or.inl ⟨?_, there, fun d' => unused_insert there⟩
        rw [storePreKey_of_there there]
      · have absent : (s.db.devices.any fun row => row.id = d) = false := by
          simpa [HasDevice] using there
        unfold Db.storePreKey
        simp [absent]

theorem Owes.quiet (owes : Owes d 0 rest) : Keeps NoMore rest := by
  obtain ⟨keys, after, none, quiet, rfl⟩ := owes
  obtain rfl := List.length_eq_zero_iff.mp none
  exact quiet _

theorem Owes.cons (owes : Owes d (n + 1) rest) :
    ∃ (key : Bytes) (next : Except DbError Unit → Program Chance Server α), rest =
      .step (fun c s => (storeStep d key c s).2) (fun c s => next (storeStep d key c s).1) ∧
      Owes d n (next (.ok ())) ∧ ∀ e, Keeps NoMore (next (.error e)) := by
  obtain ⟨keys, after, some, quiet, rfl⟩ := owes
  cases keys with
  | nil => cases some
  | cons key keys =>
      refine ⟨key, fun result => afterStore d keys result >>= after, ?_, ?_, ?_⟩
      · rw [storeEach_cons]
        rfl
      · exact ⟨keys, after, Nat.succ.inj some, quiet, rfl⟩
      · exact fun e => quiet _

theorem storeStep_ok (there : HasDevice s d) : (storeStep d key {} s).1 = .ok () := by
  show (Db.storePreKey d key s.db).1 = _
  rw [storePreKey_of_there there]

/-- Calls that have no keys to store left are not those that have. -/
theorem Owes.not_quiet (owes : Owes d (n + 1) rest) : ¬ Keeps NoMore rest := by
  intro quiet
  obtain ⟨key, next, rfl, -, -⟩ := owes.cons
  let s : Server := .start 0 { devices := [.sample d d] }
  have there : HasDevice s d := ⟨.sample d d, List.mem_singleton_self _, rfl⟩
  have less := (quiet {} s).1 d
  change unused { s with db := (Db.storePreKey d key s.db).2 } d ≤ _ at less
  rw [unused_insert there, if_pos rfl] at less
  omega

theorem Owes.unique (first : Owes d n rest) (second : Owes d' m rest) : n = m := by
  induction n generalizing m rest with
  | zero =>
      cases m with
      | zero => rfl
      | succ m => exact (second.not_quiet first.quiet).elim
  | succ n ih =>
      cases m with
      | zero => exact (first.not_quiet second.quiet).elim
      | succ m =>
          obtain ⟨key, next, rfl, later, -⟩ := first.cons
          obtain ⟨key', next', same, later', -⟩ := second.cons
          -- a server with both devices, where both inserts are made
          let s : Server := .start 0 { devices := [.sample d d, .sample d' d'] }
          have there : HasDevice s d := ⟨.sample d d, List.mem_cons_self, rfl⟩
          have there' : HasDevice s d' :=
            ⟨.sample d' d', List.mem_cons_of_mem _ List.mem_cons_self, rfl⟩
          have nexts := congrFun (congrFun (Program.step.inj same).2 {}) s
          rw [storeStep_ok there, storeStep_ok there'] at nexts
          rw [← nexts] at later'
          rw [ih later later']

theorem Brings.of_keeps (keeps : Keeps NoMore rest) : Brings rest := by
  induction rest with
  | done result => exact .done result
  | step effect next ih => exact .step (fun c s => (keeps c s).1) fun c s => ih c s (keeps c s).2
  | never => exact .never

theorem Brings.bind {f : α → Program Chance Server β} (brings : Brings t)
    (quiet : ∀ a, Keeps NoMore (f a)) : Brings (t >>= f) := by
  induction brings with
  | owes owes =>
      obtain ⟨keys, after, count, silent, rfl⟩ := owes
      rw [LawfulMonad.bind_assoc]
      exact .owes ⟨keys, _, count, fun result => Keeps.bind (silent result) quiet, rfl⟩
  | step silent rest ih => exact .step silent ih
  | done result => exact .of_keeps (quiet result)
  | never => exact .never

theorem Brings.after {f : α → Program Chance Server β} (keeps : Keeps NoMore t)
    (brings : ∀ a, Brings (f a)) : Brings (t >>= f) := by
  induction t with
  | done result => exact brings result
  | step effect next ih => exact .step (fun c s => (keeps c s).1) fun c s => ih c s (keeps c s).2
  | never => exact .never

theorem Brings.map (brings : Brings t) (f : α → β) : Brings (f <$> t) := by
  rw [map_eq_pure_bind]
  exact brings.bind fun _ => keeps_pure _

/-- Each step of a call adds no keys, or it stores one of those that the call has to store. -/
theorem Brings.step_cases {effect : Chance → Server → Server}
    {next : Chance → Server → Program Chance Server α} (brings : Brings (.step effect next))
    (c : Chance) (s : Server) : Brings (next c s) ∧ (NoMore s (effect c s) ∨
      ∃ d n, Owes d (n + 1) (.step effect next) ∧ Owes d n (next c s) ∧
        ∀ d', unused (effect c s) d' = unused s d' + if d = d' then 1 else 0) := by
  cases brings with
  | step quiet rest => exact ⟨rest c s, Or.inl (quiet c s)⟩
  | @owes d n _ left =>
      cases n with
      | zero =>
          have quiet := left.quiet c s
          exact ⟨.of_keeps quiet.2, Or.inl quiet.1⟩
      | succ n =>
          obtain ⟨key, after, same, later, failed⟩ := left.cons
          obtain ⟨rfl, rfl⟩ := Program.step.inj same
          beta_reduce
          rcases storeStep_cases d key c s with ⟨done, -, more⟩ | ⟨e, fails, same⟩
          · rw [done]
            exact ⟨.owes later, Or.inr ⟨d, n, left, later, more⟩⟩
          · rw [fails]
            exact ⟨.of_keeps (failed e), Or.inl (noMore_of_preKeys same)⟩

end

section

variable {ε ε' : Type} {d : Uuid} {keys : List Bytes} {t : Task ε α} {f : α → Task ε β}

theorem Brings.run_bind (brings : Brings t.run) (quiet : ∀ a, Keeps NoMore (f a).run) :
    Brings (t >>= f).run := by
  rw [ExceptT.run_bind]
  refine Brings.bind brings fun result => ?_
  cases result with
  | ok a => exact quiet a
  | error e => exact keeps_pure _

theorem Brings.after_run (keeps : Keeps NoMore t.run) (brings : ∀ a, Brings (f a).run) :
    Brings (t >>= f).run := by
  rw [ExceptT.run_bind]
  refine Brings.after keeps fun result => ?_
  cases result with
  | ok a => exact brings a
  | error e => exact .done _

theorem Brings.adapt {g : ε → ε'} (brings : Brings t.run) : Brings (ExceptT.adapt g t).run :=
  Brings.map brings (Except.mapError g)

theorem brings_storeEach : Brings (storeEach d keys) :=
  .owes ⟨keys, pure, rfl, fun _ => keeps_pure _, (bind_pure _).symm⟩

end

end

/-- How many keys the call has still to store on the device. -/
noncomputable def owed (d : Uuid) (rest : KeyRest) : Nat := sInf {n | Owes d n rest}

/-- How many keys the calls in progress have still to store on the device. -/
noncomputable def KeyCalls.pending (p : KeyCalls) (d : Uuid) : Nat :=
  (p.threads.map fun thread => owed d thread.rest).sum

/-- A call that comes to store keys on a device finds room for them, beside the unused keys of the
device and those that other calls have still to store on it. -/
def Fits (p : KeyCalls) (_ : KeyEvent) (p' : KeyCalls) : Prop :=
  ∀ d, p.pending d < p'.pending d → unused p.state d + p'.pending d ≤ MAX_PRE_KEYS_PER_DEVICE

/-- The limit is kept, with all keys that calls have still to store. -/
structure Stocked (p : KeyCalls) : Prop where
  brings : Pool.Each (fun _ thread => Brings thread.rest) p
  within : ∀ d, unused p.state d + p.pending d ≤ MAX_PRE_KEYS_PER_DEVICE

section

variable {jwt : Jwt} {argon2 : Argon2} {b64 : Base64Engine} {config : AppConfig}
variable {d : Uuid} {n : Nat} {rest : KeyRest} {p p' : KeyCalls} {e : KeyEvent}

theorem owed_eq (owes : Owes d n rest) : owed d rest = n := by
  have some : {n | Owes d n rest}.Nonempty := ⟨n, owes⟩
  have least : Owes d (owed d rest) rest := Nat.sInf_mem some
  exact least.unique owes

/-- All that a request for a bundle may write: rate limits, and that a key is locked and used. -/
structure FetchWrites (G : Server → Server → Prop) : Prop where
  refl : ∀ s, G s s
  limit : ∀ s limits, G s { s with rateLimiter := limits }
  lock : ∀ s locks, G s { s with db := { s.db with preKeyLocks := locks } }
  use : ∀ s id, G s { s with db := (Db.usePreKey id s.db).2 }

theorem FetchWrites.fetchBundle {G : Server → Server → Prop}
    (writes : FetchWrites G) (auth : AuthUser)
    (userId : Uuid) : Keeps G (Keys.fetchBundle b64 auth userId).run := by
  have reads {α : Type} {statement : Nat → Db.Statement α}
      (same : ∀ now t, (statement now t).2 = t) :
      Keeps G (query statement).run := by
    refine keeps_query writes.refl fun s => ?_
    rw [same]
    exact writes.refl s
  refine Keeps.run_bind (keeps_checkRateLimit writes.limit) fun passes => ?_
  split
  · refine Keeps.run_bind (Keeps.adapt ?_) fun bundle => keeps_pure _
    refine Keeps.run_bind ?_ fun found => Keeps.run_bind ?_ fun otpk => keeps_pure _
    · refine Keeps.run_bind (reads ?_) fun identity =>
        Keeps.run_bind (reads ?_) fun device => keeps_pure _
      · intro now t
        unfold Db.findIdentityKeys
        split <;> rfl
      · exact fun now t => findOneDeviceForUser_snd _ t
    · refine Keeps.run_bind (keeps_query writes.refl fun s => ?_) fun claimed => ?_
      · rcases Db.lockPreKey_cases s.db found.2.id with ⟨row, -, -, -, locks⟩ | ⟨-, misses⟩
        · rw [locks]
          exact writes.lock s _
        · rw [misses]
          exact writes.refl s
      · cases claimed with
        | none => exact keeps_pure _
        | some id =>
            apply keeps_act
            intro c s
            split
            · exact writes.lock s _
            · exact writes.use s id
  · exact keeps_pure _

theorem noMore_fetchWrites : FetchWrites NoMore :=
  ⟨fun _ => NoMore.refl, fun _ _ => noMore_of_preKeys rfl, fun _ _ => noMore_of_preKeys rfl,
    fun _ id => noMore_usePreKey id⟩

theorem brings_register (headers : HeaderMap) (request : RegisterRequest) :
    Brings (Api.register jwt argon2 b64 config headers request).run := by
  refine Brings.after_run (keeps_checkRateLimit fun s _ => noMore_of_preKeys rfl) fun passes => ?_
  split
  · refine Brings.after_run (keeps_ofResult _) fun username => ?_
    refine Brings.after_run (keeps_createUser (fun _ => NoMore.refl) ?_ _ _) fun user => ?_
    · exact fun s user => noMore_of_preKeys (sameKeys_createUser user).1
    refine Brings.after_run (keeps_registerDevice (fun _ => NoMore.refl) ?_ _ _) fun device => ?_
    · exact fun s device => noMore_of_preKeys (sameKeys_registerDevice device).1
    refine Brings.run_bind ?_ fun _ => ?_
    · exact Brings.after_run (keeps_ofResult _) fun keys => brings_storeEach.adapt
    · exact Keeps.run_bind
        (keeps_createTokens (fun _ => NoMore.refl) _ _ _) fun tokens => keeps_pure _
  · exact .done _

theorem brings_replenish (auth : AuthUser) (request : ReplenishPreKeysRequest) :
    Brings (Keys.replenishPreKeys b64 auth request).run := by
  unfold Keys.replenishPreKeys
  split
  · exact .done _
  · refine Brings.after_run ?_ fun current => ?_
    · exact (keeps_query (fun _ => NoMore.refl) fun _ => NoMore.refl).adapt
    · split
      · exact .done _
      · refine Brings.after_run (keeps_ofResult _) fun keys => ?_
        refine Brings.run_bind (Brings.adapt ?_) fun _ => keeps_pure _
        exact Brings.run_bind brings_storeEach fun _ => keeps_pure _

theorem brings_program (call : KeyCall) : Brings (call.program jwt argon2 b64 config) := by
  cases call with
  | register headers request => exact (brings_register headers request).map _
  | replenish auth request => exact (brings_replenish auth request).map _
  | fetch auth userId => exact (Brings.of_keeps (noMore_fetchWrites.fetchBundle auth userId)).map _

theorem sum_map_set {α : Type} {items : List α} {item other : α} {i : Nat} {f : α → Nat}
    (found : items[i]? = some item) :
    ((items.set i other).map f).sum + f item = (items.map f).sum + f other := by
  induction items generalizing i with
  | nil => cases found
  | cons first items ih =>
      cases i with
      | zero =>
          obtain rfl := Option.some.inj found
          simp only [List.set_cons_zero, List.map_cons, List.sum_cons]
          omega
      | succ i =>
          have later := ih found
          simp only [List.set_cons_succ, List.map_cons, List.sum_cons]
          omega

theorem stocked_run {call : KeyCall} {i : Nat} {effect : Chance → Server → Server}
    {next : Chance → Server → KeyRest} {c : Chance} (stocked : Stocked p)
    (found : p.threads[i]? = some ⟨call, .step effect next⟩)
    (fits : Fits p (.run i c)
    ⟨effect c p.state, p.threads.set i ⟨call, next c p.state⟩⟩) (d : Uuid) :
    unused (effect c p.state) d +
        KeyCalls.pending ⟨effect c p.state, p.threads.set i ⟨call, next c p.state⟩⟩ d ≤
      MAX_PRE_KEYS_PER_DEVICE := by
  have before := stocked.within d
  have room := fits d
  have pending : KeyCalls.pending ⟨effect c p.state, p.threads.set i ⟨call, next c p.state⟩⟩ d +
      owed d (.step effect next) = p.pending d + owed d (next c p.state) := sum_map_set found
  rcases (stocked.brings i _ found).step_cases c p.state with ⟨-, less | ⟨d', n, owes, later, more⟩⟩
  · have fewer := less d
    omega
  · rw [more d]
    by_cases same : d' = d
    · subst same
      rw [owed_eq owes, owed_eq later] at pending
      rw [if_pos rfl]
      omega
    · rw [if_neg same]
      omega

theorem Stocked.step (stocked : Stocked p)
    (stepped : KeyCalls.step jwt argon2 b64 config p e = some p') (fits : Fits p e p') :
    Stocked p' := by
  constructor
  · exact stocked.brings.step stepped (fun _ _ _ brings => brings)
      (fun call _ => brings_program call)
      fun _ c _ _ _ _ _ brings => (brings.step_cases c p.state).1
  · intro d
    have before := stocked.within d
    have room := fits d
    cases e with
    | call call =>
        obtain rfl := Option.some.inj stepped
        change unused p.state d + _ ≤ _
        omega
    | run i c =>
        obtain ⟨call, effect, next, found, rfl⟩ := Pool.step_run.mp stepped
        exact stocked_run stocked found fits d
    | pass duration =>
        obtain rfl := Option.some.inj stepped
        exact before

theorem stocked_start {first : Server} (within : ∀ d, unused first d ≤ MAX_PRE_KEYS_PER_DEVICE) :
    Stocked ⟨first, []⟩ := by
  constructor
  · intro i thread found
    cases found
  · exact within

/-- No step of the call has changed the keys. -/
def StoredNothing (steps : List (KeyCalls × KeyEvent × KeyCalls)) (i : Nat) : Prop :=
  ∀ x ∈ steps, ∀ c, x.2.1 = .run i c → x.2.2.state.db.preKeys = x.1.state.db.preKeys

/-- A statement that is to store another key of a replenishment, after its first, does not fail. -/
def Steady (p : KeyCalls) (e : KeyEvent) : Prop :=
  ∀ i c auth request rest, e = .run i c → p.threads[i]? = some ⟨.replenish auth request, rest⟩ →
    0 < owed auth.deviceId rest → owed auth.deviceId rest < request.preKeys.length → c.fault = none

/-- The answer after the loop. -/
def answered (n : Nat) : Except DbError PUnit → KeyRest
  | .ok _ => .done (.ok (.stored (.obj [("stored", .num n)])))
  | .error e => .done (.error (.ofDb e))

/-- What is left of a replenishment that has these keys to store, of so many. -/
def storing (d : Uuid) (n : Nat) (keys : List Bytes) : KeyRest := storeEach d keys >>= answered n

theorem storing_cons {key : Bytes} {keys : List Bytes} : storing d n (key :: keys) =
    .step (fun c s => (storeStep d key c s).2) fun c s =>
      afterStore d keys (storeStep d key c s).1 >>= answered n := by
  rw [storing, storeEach_cons]
  rfl

theorem storing_ne_error {keys : List Bytes} {e : HysjError} :
    storing d n keys ≠ .done (.error e) := by
  cases keys with
  | nil =>
      intro same
      cases Program.done.inj same
  | cons key keys =>
      rw [storing_cons]
      intro same
      cases same

theorem owes_storing {keys : List Bytes} : Owes d keys.length (storing d n keys) := by
  refine ⟨keys, answered n, rfl, fun result => ?_, rfl⟩
  cases result with
  | ok stored => exact keeps_pure _
  | error e => exact keeps_pure _

theorem storing_eq (d : Uuid) (keys : List Bytes) : Except.map KeyAnswer.stored <$>
    (do
      let stored ← ExceptT.adapt .ofDb (Keys.storeKeys d keys)
      return .obj [("stored", .num stored)] : Task HysjError Json.Value).run =
    storing d keys.length keys := by
  have loop : Keys.storeKeys d keys = ExceptT.mk (storeEach d keys) >>= fun _ =>
      pure keys.length := rfl
  rw [loop, storing]
  generalize storeEach d keys = t
  induction t with
  | done result =>
      cases result with
      | ok stored => rfl
      | error e => rfl
  | step effect next ih =>
      show Program.step _ _ = Program.step _ _
      congr 1
      funext c s
      exact ih c s
  | never => rfl

theorem count_step (d : Uuid) (k : Nat → Task HysjError Json.Value) : ∃ effect next,
    Except.map KeyAnswer.stored <$>
      (ExceptT.adapt .ofDb (query fun _ => Db.countAvailablePreKeys d) >>= k).run =
      .step effect next ∧
    ∀ c s, effect c s = s ∧ ((∃ e, next c s = .done (.error e)) ∨
      next c s = Except.map KeyAnswer.stored <$> (k (unused s d)).run) := by
  refine ⟨_, _, rfl, ?_⟩
  rintro ⟨fault, replies, uuid⟩ s
  cases fault with
  | some e => exact ⟨rfl, Or.inl ⟨_, rfl⟩⟩
  | none => exact ⟨rfl, Or.inr rfl⟩

/-- A replenishment ends with an error, or it counts the keys first, and then ends with an error or
comes to its loop. -/
theorem replenish_cases (auth : AuthUser) (request : ReplenishPreKeysRequest) :
    (∃ e, KeyCall.program jwt argon2 b64 config (.replenish auth request) = .done (.error e)) ∨
    ∃ effect next,
    KeyCall.program jwt argon2 b64 config (.replenish auth request) = .step effect next ∧
      ∀ c s, effect c s = s ∧ ((∃ e, next c s = .done (.error e)) ∨ ∃ keys,
        keys.length = request.preKeys.length ∧
        next c s = storing auth.deviceId keys.length keys) := by
  simp only [KeyCall.program, Keys.replenishPreKeys]
  split
  · exact Or.inl ⟨_, rfl⟩
  · obtain ⟨effect, next, starts, each⟩ := count_step auth.deviceId fun current => do
      if MAX_PRE_KEYS_PER_DEVICE < current + request.preKeys.length then
        throw (.validationError ("Would exceed max pre-keys (" ++
          toString (current + request.preKeys.length) ++ "/" ++
          toString MAX_PRE_KEYS_PER_DEVICE ++ ")"))
      else
        let keys ← ofResult (request.preKeys.mapM (decodeField b64 "Invalid pre-key base64: "))
        let stored ← ExceptT.adapt .ofDb (Keys.storeKeys auth.deviceId keys)
        return .obj [("stored", .num stored)]
    refine Or.inr ⟨effect, next, starts, fun c s => ?_⟩
    obtain ⟨same, failed | later⟩ := each c s
    · exact ⟨same, Or.inl failed⟩
    · refine ⟨same, ?_⟩
      rw [later]
      split
      · exact Or.inl ⟨_, rfl⟩
      · cases decoded : request.preKeys.mapM (decodeField b64 "Invalid pre-key base64: ") with
        | error e => exact Or.inl ⟨_, rfl⟩
        | ok keys => exact Or.inr ⟨keys, Result.length_mapM decoded, storing_eq auth.deviceId keys⟩

/-- Where a replenishment is, if each failure of it comes before it has stored a key. -/
inductive Replenishing (auth : AuthUser) (request : ReplenishPreKeysRequest) (empty : Prop)
    (s : Server) : KeyRest → Prop where
  | starts {effect : Chance → Server → Server} {next : Chance → Server → KeyRest} (none : empty)
      (each : ∀ c s, effect c s = s ∧ ((∃ e, next c s = .done (.error e)) ∨ ∃ keys,
        keys.length = request.preKeys.length ∧ next c s = storing auth.deviceId keys.length keys)) :
      Replenishing auth request empty s (.step effect next)
  | stores {keys : List Bytes} (all : keys.length = request.preKeys.length) (none : empty) :
      Replenishing auth request empty s (storing auth.deviceId request.preKeys.length keys)
  | continues {keys : List Bytes} (some : keys.length < request.preKeys.length)
      (there : HasDevice s auth.deviceId) :
      Replenishing auth request empty s (storing auth.deviceId request.preKeys.length keys)
  | fails {e : HysjError} (none : empty) : Replenishing auth request empty s (.done (.error e))

section

variable {auth : AuthUser} {request : ReplenishPreKeysRequest} {empty empty' : Prop} {s s' : Server}

theorem Replenishing.mono (phase : Replenishing auth request empty s rest)
    (still : empty → empty') (devices : KeepsDevices s s') :
    Replenishing auth request empty' s' rest := by
  cases phase with
  | starts none each => exact .starts (still none) each
  | stores all none => exact .stores all (still none)
  | continues some there =>
      obtain ⟨row, known, is⟩ := there
      exact .continues some ⟨row, devices known, is⟩
  | fails none => exact .fails (still none)

theorem replenishing_program (none : empty) : Replenishing auth request empty s
    (KeyCall.program jwt argon2 b64 config (.replenish auth request)) := by
  rcases @replenish_cases jwt argon2 b64 config auth request with
    ⟨e, ends⟩ | ⟨effect, next, starts, each⟩
  · rw [ends]
    exact .fails none
  · rw [starts]
    exact .starts none each

theorem keepsDevices_storeStep {key : Bytes} {c : Chance} :
    (storeStep d key c s).2.db.devices = s.db.devices := by
  unfold storeStep
  cases c.fault with
  | some e => rfl
  | none => exact Db.devices_storePreKey

/-- A step of the call, which is one of its inserts or changes nothing. -/
theorem Replenishing.step {effect : Chance → Server → Server} {next : Chance → Server → KeyRest}
    {c : Chance} (phase : Replenishing auth request empty s (.step effect next))
    (steady : 0 < owed auth.deviceId (.step effect next) →
      owed auth.deviceId (.step effect next) < request.preKeys.length → c.fault = none)
    (still : empty → (effect c s).db.preKeys = s.db.preKeys → empty') :
    Replenishing auth request empty' (effect c s) (next c s) := by
  have inserts {keys : List Bytes} (is : Program.step effect next =
      storing auth.deviceId request.preKeys.length keys) :
      ∃ key later, keys = key :: later ∧ effect c s = (storeStep auth.deviceId key c s).2 ∧
        next c s = afterStore auth.deviceId later (storeStep auth.deviceId key c s).1 >>=
          answered request.preKeys.length := by
    cases keys with
    | nil => cases is
    | cons key later =>
        rw [storing_cons] at is
        obtain ⟨rfl, rfl⟩ := Program.step.inj is
        exact ⟨key, later, rfl, rfl, rfl⟩
  generalize is : Program.step effect next = rest at phase
  cases phase with
  | starts none each =>
      obtain ⟨rfl, rfl⟩ := Program.step.inj is
      obtain ⟨same, ⟨e, ends⟩ | ⟨keys, all, stores⟩⟩ := each c s
      · rw [ends]
        exact .fails (still none (by rw [same]))
      · rw [stores, all]
        exact .stores all (still none (by rw [same]))
  | @stores keys all none =>
      obtain ⟨key, later, rfl, effects, nexts⟩ := inserts is
      rw [effects] at still ⊢
      rw [nexts]
      rcases storeStep_cases auth.deviceId key c s
        with ⟨done, ⟨row, known, is⟩, -⟩ | ⟨e, failed, same⟩
      · rw [done]
        rw [List.length_cons] at all
        refine .continues (by omega) ⟨row, ?_, is⟩
        rw [keepsDevices_storeStep]
        exact known
      · rw [failed]
        exact .fails (still none same)
  | @continues keys some there =>
      rw [is, owed_eq owes_storing] at steady
      obtain ⟨key, later, rfl, effects, nexts⟩ := inserts is
      rw [List.length_cons] at steady some
      have clean := steady (by omega) some
      rw [effects, nexts]
      have done : (storeStep auth.deviceId key c s).1 = .ok () := by
        unfold storeStep
        rw [clean, storePreKey_of_there there]
      rw [done]
      obtain ⟨row, known, is⟩ := there
      refine .continues (by omega) ⟨row, ?_, is⟩
      rw [keepsDevices_storeStep]
      exact known
  | fails none => cases is

end

theorem keepsDevices_program (call : KeyCall) :
    Keeps KeepsDevices (call.program jwt argon2 b64 config) := by
  have same (s : Server) (t : Db.Tables) (rows : t.devices = s.db.devices) :
      KeepsDevices s { s with db := t } := by
    intro row known
    show row ∈ t.devices
    rw [rows]
    exact known
  cases call with
  | register headers request =>
      have writes : RegisterWrites KeepsDevices :=
        ⟨fun s => same s s.db rfl, fun s _ => same s s.db rfl, fun s _ =>
          same s _ (devices_createUser _ _),
          fun s _ => devices_registerDevice _ _, fun s _ _ => same s _ Db.devices_storePreKey⟩
      exact (writes.register headers request).map _
  | replenish auth request =>
      have keeps : Keeps KeepsDevices (Keys.replenishPreKeys b64 auth request).run :=
        keeps_replenishPreKeys (fun s => same s s.db rfl)
          (fun s _ _ => same s _ Db.devices_storePreKey) auth request
      exact keeps.map _
  | fetch auth userId =>
      have writes : FetchWrites KeepsDevices :=
        ⟨fun s => same s s.db rfl, fun s _ => same s s.db rfl, fun s _ => same s _ rfl,
          fun s _ => same s _ rfl⟩
      exact (writes.fetchBundle auth userId).map _

/-- Where the replenishments are, if each failure of them comes before they have stored a key. -/
structure Replenished (steps : List (KeyCalls × KeyEvent × KeyCalls)) (p : KeyCalls) : Prop where
  devices : Pool.Each (fun _ thread => Keeps KeepsDevices thread.rest) p
  taken : ∀ x ∈ steps, ∀ i c, x.2.1 = .run i c → i < p.threads.length
  phases : ∀ i auth request rest, p.threads[i]? = some ⟨.replenish auth request, rest⟩ →
    Replenishing auth request (StoredNothing steps i) p.state rest

theorem StoredNothing.append {steps : List (KeyCalls × KeyEvent × KeyCalls)} {i : Nat}
    (nothing : StoredNothing steps i)
    (last : ∀ c, e = .run i c → p'.state.db.preKeys = p.state.db.preKeys) :
    StoredNothing (steps ++ [(p, e, p')]) i := by
  intro x member c is
  rcases List.mem_append.mp member with old | new
  · exact nothing x old c is
  · obtain rfl := List.mem_singleton.mp new
    exact last c is

theorem StoredNothing.other {steps : List (KeyCalls × KeyEvent × KeyCalls)} {i : Nat}
    (nothing : StoredNothing steps i) (other : ∀ c, e ≠ .run i c) :
    StoredNothing (steps ++ [(p, e, p')]) i :=
  nothing.append fun c is => absurd is (other c)

theorem StoredNothing.own {steps : List (KeyCalls × KeyEvent × KeyCalls)} {i : Nat}
    (nothing : StoredNothing steps i) (same : p'.state.db.preKeys = p.state.db.preKeys) :
    StoredNothing (steps ++ [(p, e, p')]) i :=
  nothing.append fun _ _ => same

theorem Replenished.state
    (replenished : Pool.Each (fun _ thread => Keeps KeepsDevices thread.rest) p)
    (stepped : KeyCalls.step jwt argon2 b64 config p e = some p') :
    KeepsDevices p.state p'.state := by
  cases e with
  | call call =>
      obtain rfl := Option.some.inj stepped
      exact List.Subset.refl _
  | run i c =>
      obtain ⟨call, effect, next, found, rfl⟩ := Pool.step_run.mp stepped
      exact (replenished i _ found c p.state).1
  | pass duration =>
      obtain rfl := Option.some.inj stepped
      exact List.Subset.refl _

theorem Replenished.next {steps : List (KeyCalls × KeyEvent × KeyCalls)}
    (replenished : Replenished steps p)
    (stepped : KeyCalls.step jwt argon2 b64 config p e = some p')
    (steady : Steady p e) : Replenished (steps ++ [(p, e, p')]) p' := by
  have devices := Replenished.state replenished.devices stepped
  constructor
  · exact replenished.devices.step stepped (fun _ _ _ keeps => keeps)
      (fun call _ => keepsDevices_program call) fun _ c _ _ _ _ _ keeps => (keeps c p.state).2
  · intro x member i c is
    have inside : i < p.threads.length := by
      rcases List.mem_append.mp member with old | new
      · exact replenished.taken x old i c is
      · obtain rfl := List.mem_singleton.mp new
        obtain rfl : e = .run i c := is
        obtain ⟨call, effect, next, found, -⟩ := Pool.step_run.mp stepped
        exact (List.getElem?_eq_some_iff.mp found).1
    obtain ⟨rest, found⟩ := Pool.call_after stepped (List.getElem?_eq_getElem inside)
    exact (List.getElem?_eq_some_iff.mp found).1
  · intro i auth request rest found
    rcases Pool.thread_after stepped found with ⟨old, other⟩ | ⟨rfl, rfl, starts⟩ |
      ⟨c, effect, next, rfl, old, left, after⟩
    · exact (replenished.phases i auth request rest old).mono
        (fun nothing => nothing.other other) devices
    · dsimp only at starts
      rw [starts]
      apply replenishing_program
      -- no step was taken before the call was made
      intro x member c is
      rcases List.mem_append.mp member with old | new
      · have inside := replenished.taken x old _ c is
        omega
      · obtain rfl := List.mem_singleton.mp new
        cases is
    · dsimp only at left old
      rw [left, after]
      apply (replenished.phases i auth request _ old).step
      · exact steady i c auth request _ rfl old
      · intro nothing same
        apply nothing.own
        rw [after]
        exact same

theorem KeyRun.replenished {first : Server} {steps : List (KeyCalls × KeyEvent × KeyCalls)}
    (run : KeyRun jwt argon2 b64 config first steps p) (steady : ∀ x ∈ steps, Steady x.1 x.2.1) :
    Replenished steps p := by
  induction run with
  | start =>
      constructor
      · intro i thread found
        cases found
      · intro x member
        cases member
      · intro i auth request rest found
        cases found
  | @next steps p p' e before stepped ih =>
      simp only [List.forall_mem_append, List.forall_mem_singleton] at steady
      exact (ih steady.1).next stepped steady.2

end

/-- If every call that comes to store keys finds room for them, and no replenishment fails after its
first key, then no device has more unused keys than the limit, and a replenishment that fails has
stored nothing. -/
theorem pre_keys_bounded (jwt : Jwt) (argon2 : Argon2) (b64 : Base64Engine) (config : AppConfig)
    (first : Server) (steps : List (KeyCalls × KeyEvent × KeyCalls)) (p : KeyCalls)
    (within : ∀ d, unused first d ≤ MAX_PRE_KEYS_PER_DEVICE)
    (run : KeyRun jwt argon2 b64 config first steps p) (fits : ∀ x ∈ steps, Fits x.1 x.2.1 x.2.2)
    (steady : ∀ x ∈ steps, Steady x.1 x.2.1) :
    (∀ d, unused p.state d ≤ MAX_PRE_KEYS_PER_DEVICE) ∧ ∀ i auth request e,
      p.threads[i]? = some ⟨.replenish auth request, .done (.error e)⟩ → StoredNothing steps i := by
  constructor
  · intro d
    have stocked : Stocked p :=
      run.keeps (stocked_start within)
        (fun _ _ _ stepped fits stocked => stocked.step stepped fits) fits
    have bound := stocked.within d
    omega
  · intro i auth request e found
    have phase := (run.replenished steady).phases i auth request _ found
    generalize is : (Program.done (.error e) : KeyRest) = rest at phase
    cases phase with
    | starts none each => cases is
    | stores all none => exact none
    | continues some there => exact (storing_ne_error is.symm).elim
    | fails none => exact none

section

variable {d d' : Uuid} {n : Nat} {rest : KeyRest}

theorem owed_le (owes : Owes d n rest) : owed d' rest ≤ n := by
  by_cases some : ∃ m, Owes d' m rest
  · obtain ⟨m, other⟩ := some
    rw [owed_eq other, owes.unique other]
  · have none : {m | Owes d' m rest} = ∅ := by
      ext m
      exact iff_of_false (fun other => some ⟨m, other⟩) (Set.notMem_empty m)
    rw [owed, none, Nat.sInf_empty]
    exact Nat.zero_le n

theorem owed_of_quiet {effect : Chance → Server → Server} {next : Chance → Server → KeyRest}
    (quiet : ∀ c s, NoMore s (effect c s)) : owed d (.step effect next) = 0 := by
  by_contra some
  obtain ⟨n, is⟩ := Nat.exists_eq_succ_of_ne_zero some
  have least : Owes d (owed d (.step effect next)) (.step effect next) :=
    Nat.sInf_mem (Nat.nonempty_of_pos_sInf (Nat.pos_of_ne_zero some))
  rw [is] at least
  obtain ⟨key, after, same, -, -⟩ := least.cons
  obtain ⟨rfl, -⟩ := Program.step.inj same
  let s : Server := .start 0 { devices := [.sample d d] }
  have there : HasDevice s d := ⟨.sample d d, List.mem_singleton_self _, rfl⟩
  have less := quiet {} s d
  change unused { s with db := (Db.storePreKey d key s.db).2 } d ≤ _ at less
  rw [unused_insert there, if_pos rfl] at less
  omega

theorem owed_done {result : Except HysjError KeyAnswer} : owed d (.done result) = 0 :=
  owed_eq ⟨[], fun _ => .done result, rfl, fun _ => trivial, rfl⟩

end

theorem owes_loop {d : Uuid} (keys : List Bytes) :
    Owes d keys.length (Except.map KeyAnswer.stored <$>
    (do
      let stored ← ExceptT.adapt .ofDb (Keys.storeKeys d keys)
      return .obj [("stored", .num stored)] : Task HysjError Json.Value).run) := by
  rw [storing_eq]
  exact owes_storing

/-- Alice adds keys to her device. -/
def aliceAdds (count : Nat) : KeyCall :=
  .replenish ⟨.replicate 16 1, .replicate 16 5, "alice"⟩ ⟨List.replicate count ""⟩

theorem owed_aliceAdds (d : Uuid) (count : Nat) :
    owed d ((aliceAdds count).program .sample .sample .sample ⟨none, "secret"⟩) = 0 := by
  rcases @replenish_cases .sample .sample .sample ⟨none, "secret"⟩
    ⟨.replicate 16 1, .replicate 16 5, "alice"⟩
    ⟨List.replicate count ""⟩ with ⟨e, ends⟩ | ⟨effect, next, starts, each⟩
  · rw [aliceAdds, ends, owed_done]
  · rw [aliceAdds, starts]
    apply owed_of_quiet
    intro c s
    rw [(each c s).1]
    exact NoMore.refl

/-- A key is stored, and then a second replenishment fails. -/
theorem alice_adds_key : ∃ steps p,
    KeyRun .sample .sample .sample ⟨none, "secret"⟩ (keyServer []) steps p ∧
      (∀ d, unused p.state d ≤ MAX_PRE_KEYS_PER_DEVICE) ∧ unused p.state (.replicate 16 5) = 1 ∧
      StoredNothing steps 1 := by
  have run₀ :
      KeyRun .sample .sample .sample ⟨none, "secret"⟩ (keyServer []) [] ⟨keyServer [], []⟩ := .start
  have run₁ := run₀.next (e := .call (aliceAdds 1)) rfl
  have run₂ := run₁.next (e := .run 0 {}) rfl
  have run₃ := run₂.next (e := .run 0 {}) rfl
  have run₄ := run₃.next (e := .call (aliceAdds 1)) rfl
  have run₅ := run₄.next (e := .run 1 { fault := some "down" }) rfl
  have bounded :=
    pre_keys_bounded .sample .sample .sample ⟨none, "secret"⟩ (keyServer []) _ _ ?_ run₅ ?_ ?_
  · exact ⟨_, _, run₅, bounded.1, rfl, bounded.2 1 _ _ _ rfl⟩
  · exact fun d => Nat.zero_le _
  · have idle (d : Uuid) := owed_aliceAdds d 1
    simp only [List.forall_mem_append, List.forall_mem_singleton]
    refine ⟨⟨⟨⟨⟨?_, ?_⟩, ?_⟩, ?_⟩, ?_⟩, ?_⟩
    · intro x member
      cases member
    · intro d more
      change 0 < owed d _ + 0 at more
      rw [idle d] at more
      omega
    · intro d more
      change 0 + (owed d _ + 0) ≤ 100
      rw [Nat.zero_add, Nat.add_zero]
      exact le_trans (owed_le (owes_loop [[]])) (by decide)
    · intro d more
      change owed d _ + 0 < owed d (.done _) + 0 at more
      rw [owed_done] at more
      omega
    · intro d more
      change owed d (.done _) + 0 < owed d (.done _) + (owed d _ + 0) at more
      rw [idle d] at more
      omega
    · intro d more
      change owed d (.done _) + (owed d _ + 0) < owed d (.done _) + (owed d (.done _) + 0) at more
      rw [owed_done, owed_done, idle d] at more
      omega
  · simp only [List.forall_mem_append, List.forall_mem_singleton]
    refine ⟨⟨⟨⟨⟨?_, ?_⟩, ?_⟩, ?_⟩, ?_⟩, ?_⟩
    · intro x member
      cases member
    · intro i c auth request rest other
      cases other
    · intro i c auth request rest is found some few
      cases is
      rfl
    · intro i c auth request rest is found some few
      cases is
      rfl
    · intro i c auth request rest other
      cases other
    · intro i c auth request rest is found some few
      cases is
      obtain rfl : _ = rest := congrArg Thread.rest (Option.some.inj found)
      rw [owed_aliceAdds] at some
      omega

/-- Two replenishments that have both counted the keys before one of them has stored any. -/
def raceEvents : List KeyEvent :=
  [.call (aliceAdds 60), .call (aliceAdds 60), .run 0 {}, .run 1 {}] ++
    List.replicate 60 (.run 0 {}) ++ List.replicate 60 (.run 1 {})

/-- A registration with one key more than a device may have. -/
def crowdedRegistration : KeyCall :=
  .register (fun _ => none)
    { registration "alice" "+4711111111" "password1" with oneTimePreKeys := List.replicate 101 "" }

/-- The calls after the events. -/
def followed (first : Server) (events : List KeyEvent) : Option KeyCalls :=
  Pool.follow (KeyCall.program .sample .sample .sample ⟨none, "secret"⟩) (fun n s => s.wait n)
    ⟨first, []⟩ events

theorem exceeded_of_followed {first : Server} {events : List KeyEvent} {d : Uuid}
    (exceeded : (followed first events).any fun p => MAX_PRE_KEYS_PER_DEVICE < unused p.state d) :
    ∃ steps p, KeyRun .sample .sample .sample ⟨none, "secret"⟩ first steps p ∧
      MAX_PRE_KEYS_PER_DEVICE < unused p.state d := by
  obtain ⟨p, ran, more⟩ := (Option.any_eq_true _ _).mp exceeded
  obtain ⟨steps, run⟩ := KeyRun.of_follow events ran
  exact ⟨steps, p, run, of_decide_eq_true more⟩

/-- A registration brings more keys than the limit, two replenishments store more together, and one
fails after it has stored a key. -/
theorem pre_keys_unbounded :
    (∃ steps p, KeyRun .sample .sample .sample ⟨none, "secret"⟩ (.start 0 {}) steps p ∧
      MAX_PRE_KEYS_PER_DEVICE < unused p.state (.replicate 16 5)) ∧
    (∃ steps p, KeyRun .sample .sample .sample ⟨none, "secret"⟩ (keyServer []) steps p ∧
      MAX_PRE_KEYS_PER_DEVICE < unused p.state (.replicate 16 5)) ∧
    ∃ steps p, KeyRun .sample .sample .sample ⟨none, "secret"⟩ (keyServer []) steps p ∧
      (∃ e, p.threads[0]? = some ⟨aliceAdds 2, .done (.error e)⟩) ∧ ¬ StoredNothing steps 0 := by
  refine ⟨?_, ?_, ?_⟩
  · apply @exceeded_of_followed _ ([.call crowdedRegistration] ++
      List.replicate 107 (.run 0 { uuid := .replicate 16 5 }))
    decide +kernel
  · apply @exceeded_of_followed _ raceEvents
    decide +kernel
  · have run₀ :
        KeyRun .sample .sample .sample ⟨none, "secret"⟩ (keyServer []) [] ⟨keyServer [], []⟩ :=
      .start
    have run₁ := run₀.next (e := .call (aliceAdds 2)) rfl
    have run₂ := run₁.next (e := .run 0 {}) rfl
    have run₃ := run₂.next (e := .run 0 {}) rfl
    have run₄ := run₃.next (e := .run 0 { fault := some "down" }) rfl
    refine ⟨_, _, run₄, ⟨_, rfl⟩, ?_⟩
    intro nothing
    have same := nothing _ (List.mem_append_left _ List.mem_concat_self) _ rfl
    cases same

end Hysj.Api
