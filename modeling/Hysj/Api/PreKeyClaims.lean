import Hysj.Api.GroupAuthority
import Hysj.Api.PreKeys

set_option autoImplicit false

/- Which one-time pre-keys are handed out, whatever the order of the steps of the calls. -/
namespace Hysj.Api

open Crypto Shared Auth Messaging Program

/-- What is left of a call. -/
abbrev KeyRest := Program Chance Server (Except HysjError KeyAnswer)

/-- The call has come to its answer. -/
def KeyCalls.Returned (p : KeyCalls) (i : Nat) (answer : KeyAnswer) : Prop :=
  ∃ call, p.threads[i]? = some ⟨call, .done (.ok answer)⟩

section

variable (b64 : Base64Engine)

/-- How a call ends that knows the keys of the user and the device. -/
def afterClaim (userId : Uuid) (identity : Bytes × Bytes) (device : Db.Device)
    (claim : Task DbError (Option Db.PreKey)) : Task HysjError KeyAnswer := do
  let otpk ← ExceptT.adapt (Keys.bundleError userId) claim
  return .bundle (Keys.bundleResponse b64 (Keys.bundleOf identity device otpk)) otpk

/-- The call is about to look for a key of the device. -/
def AtClaim (d : Uuid) (rest : KeyRest) : Prop :=
  ∃ userId identity device, device.id = d ∧
    rest = (afterClaim b64 userId identity device (Keys.claimOneTimePreKey device.id)).run

/-- The call has found the key of the device and locked its row. -/
def Claiming (id : Nat) (d : Uuid) (rest : KeyRest) : Prop :=
  ∃ userId identity device, device.id = d ∧
    rest = (afterClaim b64 userId identity device (Keys.useClaimed id)).run

end

/-- A key is added, or nothing changes about keys. -/
structure Adds (s s' : Server) : Prop where
  locks : s'.db.preKeyLocks = s.db.preKeyLocks
  serial : s.db.preKeySerial ≤ s'.db.preKeySerial
  keys : s'.db.preKeys = s.db.preKeys ∨ ∃ row : Db.PreKey, s.db.preKeySerial < row.id ∧
    row.id ≤ s'.db.preKeySerial ∧ s'.db.preKeys = s.db.preKeys ++ [row]

/-- The tables are the same in all that is about keys. -/
abbrev SameKeys (s s' : Server) : Prop :=
  s'.db.preKeys = s.db.preKeys ∧ s'.db.preKeySerial = s.db.preKeySerial ∧
    s'.db.preKeyLocks = s.db.preKeyLocks

/-- The answer is no bundle. -/
def NoBundle (result : Except HysjError KeyAnswer) : Prop :=
  ∀ response row, result ≠ .ok (.bundle response row)

/-- Where a call is, and the key and the device of the row that it has locked, if any. -/
inductive KeyPhase (b64 : Base64Engine) : Option (Nat × Uuid) → KeyRest → Prop where
  /-- registrations and those who bring keys -/
  | adding {rest : KeyRest}
      (adds : Secures (fun _ _ => True) (fun _ => True) Adds NoBundle rest) : KeyPhase b64 none rest
  | finding {userId : Uuid} {t : Task HysjError ((Bytes × Bytes) × Db.Device)}
      (keeps : Keeps SameKeys t.run) :
      KeyPhase b64 none (t >>= fun found =>
        afterClaim b64 userId found.1 found.2 (Keys.claimOneTimePreKey found.2.id)).run
  | claiming {id : Nat} {d : Uuid} {rest : KeyRest} (claiming : Claiming b64 id d rest) :
      KeyPhase b64 (some (id, d)) rest
  | ended (result : Except HysjError KeyAnswer) : KeyPhase b64 none (.done result)

/-- One step of a call. -/
inductive KeyStep (b64 : Base64Engine) (s : Server) (rest : KeyRest) :
    Option (Nat × Uuid) → Server → KeyRest → Option (Nat × Uuid) → Prop where
  | adds {s' : Server} {rest' : KeyRest} (adds : Adds s s') (phase : KeyPhase b64 none rest')
      (silent : ∀ result, rest' = .done result → NoBundle result) :
        KeyStep b64 s rest none s' rest' none
  | locks {row : Db.PreKey} {d : Uuid} {rest' : KeyRest} (there : row ∈ s.db.preKeys)
      (available : row.Available d) (free : row.id ∉ s.db.preKeyLocks)
      (claiming : Claiming b64 row.id d rest') :
      KeyStep b64 s rest none
        { s with db := { s.db with preKeyLocks := row.id :: s.db.preKeyLocks } } rest'
        (some (row.id, d))
  | misses {d : Uuid} {response : PreKeyBundleResponse} (at_ : AtClaim b64 d rest)
      (locked : ∀ row ∈ s.db.preKeys, row.Available d → row.id ∈ s.db.preKeyLocks)
      (ofDevice : response.deviceId = d.display) (without : response.oneTimePreKey = none) :
      KeyStep b64 s rest none s (.done (.ok (.bundle response none))) none
  | uses {id : Nat} {d : Uuid} {response : PreKeyBundleResponse} {otpk : Option Db.PreKey}
      (answer : (Db.usePreKey id s.db).1 = .ok otpk) (ofDevice : response.deviceId = d.display)
      (has : response.oneTimePreKey = otpk.map fun row => b64.encode row.publicKey) :
      KeyStep b64 s rest (some (id, d)) { s with db := (Db.usePreKey id s.db).2 }
        (.done (.ok (.bundle response otpk))) none
  | fails {id : Nat} {d : Uuid} {e : HysjError} :
      KeyStep b64 s rest (some (id, d)) { s with db := s.db.unlocked id } (.done (.error e)) none

section

variable {jwt : Jwt} {argon2 : Argon2} {b64 : Base64Engine} {config : AppConfig}
variable {s s' : Server} {p p' : KeyCalls} {rest : KeyRest}

theorem Adds.refl : Adds s s := ⟨rfl, le_rfl, Or.inl rfl⟩

theorem SameKeys.adds (same : SameKeys s s') : Adds s s' :=
  ⟨same.2.2, same.2.1.ge, Or.inl same.1⟩

theorem adds_storePreKey {d : Uuid} {key : Bytes} :
    Adds s { s with db := (Db.storePreKey d key s.db).2 } := by
  unfold Db.storePreKey
  dsimp only
  split
  · exact ⟨rfl, Nat.le_succ _, Or.inr ⟨_, Nat.lt_succ_self _, le_rfl, rfl⟩⟩
  · exact ⟨rfl, Nat.le_succ _, Or.inl rfl⟩

theorem sameKeys_createUser (user : Db.User) :
    SameKeys s { s with db := (Db.createUser user s.db).2 } := by
  unfold Db.createUser
  split
  · exact ⟨rfl, rfl, rfl⟩
  · split
    · exact ⟨rfl, rfl, rfl⟩
    · split <;> exact ⟨rfl, rfl, rfl⟩

theorem sameKeys_registerDevice (device : Db.Device) :
    SameKeys s { s with db := (Db.registerDevice device s.db).2 } := by
  unfold Db.registerDevice
  split
  · exact ⟨rfl, rfl, rfl⟩
  · split <;> exact ⟨rfl, rfl, rfl⟩

theorem adds_registerWrites : RegisterWrites Adds :=
  ⟨fun _ => Adds.refl, fun _ _ => SameKeys.adds ⟨rfl, rfl, rfl⟩, fun _ user =>
    (sameKeys_createUser user).adds,
    fun _ device => (sameKeys_registerDevice device).adds, fun _ _ _ => adds_storePreKey⟩

theorem keeps_replenishPreKeys {G : Server → Server → Prop} (refl : ∀ s, G s s)
    (each : ∀ s d key, G s { s with db := (Db.storePreKey d key s.db).2 }) (auth : AuthUser)
    (request : ReplenishPreKeysRequest) : Keeps G (Keys.replenishPreKeys b64 auth request).run := by
  unfold Keys.replenishPreKeys
  split
  · exact keeps_pure _
  · refine Keeps.run_bind (keeps_query refl fun s => refl s).adapt fun current => ?_
    split
    · exact keeps_pure _
    · refine Keeps.run_bind (keeps_ofResult _) fun keys => ?_
      refine Keeps.run_bind (Keeps.adapt ?_) fun stored => keeps_pure _
      refine Keeps.run_bind ?_ fun _ => keeps_pure _
      exact keeps_storeKeys refl (fun s key => each s _ key) keys

theorem secures_answer {α : Type} {t : Task HysjError α} {answer : α → KeyAnswer}
    (keeps : Keeps Adds t.run) (other : ∀ a response row, answer a ≠ .bundle response row) :
    Secures (fun _ _ => True) (fun _ => True) Adds NoBundle (Except.map answer <$> t.run) := by
  have secures : Secures (fun _ _ => True) (fun _ => True) Adds (fun _ => True) t.run :=
    keeps.secures fun _ _ _ _ => trivial
  apply secures.map
  intro result _ response row is
  cases result with
  | error e => cases is
  | ok a => exact other a response row (Except.ok.inj is)

/-- What a bundle needs besides a key. -/
def findFor (auth : AuthUser) (userId : Uuid) : Task HysjError ((Bytes × Bytes) × Db.Device) := do
  if ← checkRateLimit ("prekey:" ++ auth.userId.display) PREKEY_FETCH_MAX
      PREKEY_FETCH_WINDOW_SECONDS then
    ExceptT.adapt (Keys.bundleError userId) (Keys.findDevice userId)
  else throw .rateLimited

theorem fetch_eq (auth : AuthUser) (userId : Uuid) :
    KeyCall.program jwt argon2 b64 config
    (.fetch auth userId) = (findFor auth userId >>= fun found =>
      afterClaim b64 userId found.1 found.2 (Keys.claimOneTimePreKey found.2.id)).run := by
  rw [KeyCall.program, ← ExceptT.run_map]
  congr 1
  unfold Keys.fetchBundle findFor
  rw [map_eq_pure_bind, LawfulMonad.bind_assoc, LawfulMonad.bind_assoc]
  congr 1
  funext passes
  split
  · unfold Keys.findBundle
    simp only [adapt_bind, LawfulMonad.bind_assoc]
    rfl
  · rfl

theorem keeps_findFor (auth : AuthUser) (userId : Uuid) :
    Keeps SameKeys (findFor auth userId).run := by
  refine Keeps.run_bind (keeps_checkRateLimit fun _ _ => ⟨rfl, rfl, rfl⟩) fun passes => ?_
  split
  · refine Keeps.adapt
      (Keeps.run_bind ?_ fun identity => Keeps.run_bind ?_ fun device => keeps_pure _)
    · refine keeps_query (fun _ => ⟨rfl, rfl, rfl⟩) fun s => ?_
      unfold Db.findIdentityKeys
      split <;> exact ⟨rfl, rfl, rfl⟩
    · refine keeps_query (fun _ => ⟨rfl, rfl, rfl⟩) fun s => ?_
      unfold Db.findOneDeviceForUser
      split <;> exact ⟨rfl, rfl, rfl⟩
  · exact keeps_pure _

/-- The subselect of a claim. -/
def lockStep (d : Uuid) (c : Chance) (s : Server) : Except DbError (Option Nat) × Server :=
  match c.fault with
  | some e => (.error (.queryFailed e), s)
  | none => ((Db.lockPreKey d s.db).1, { s with db := (Db.lockPreKey d s.db).2 })

/-- The update of a claim. -/
def useStep (id : Nat) (c : Chance) (s : Server) : Except DbError (Option Db.PreKey) × Server :=
  match c.fault with
  | some e => (.error (.queryFailed e), { s with db := s.db.unlocked id })
  | none => ((Db.usePreKey id s.db).1, { s with db := (Db.usePreKey id s.db).2 })

/-- What follows the subselect. -/
def claimed : Except DbError (Option Nat) → Task DbError (Option Db.PreKey)
  | .ok (some id) => Keys.useClaimed id
  | .ok none => return none
  | .error e => throw e

section

variable {userId : Uuid} {identity : Bytes × Bytes} {device : Db.Device}

theorem claim_eq (d : Uuid) :
    (afterClaim b64 userId identity device (Keys.claimOneTimePreKey d)).run =
    .step (fun c s => (lockStep d c s).2) fun c s =>
      (afterClaim b64 userId identity device (claimed (lockStep d c s).1)).run := by
  have starts : Keys.claimOneTimePreKey d =
      ExceptT.mk (.act (lockStep d)) >>= fun found => claimed (.ok found) := by
    refine congrArg (Bind.bind (ExceptT.mk (Program.act (lockStep d)))) (funext fun found => ?_)
    cases found with
    | none => rfl
    | some id => rfl
  rw [starts]
  generalize lockStep d = f
  show Program.step _ _ = Program.step _ _
  congr 1
  funext c s
  show (((Program.done (f c s).1).bind _).bind _).bind _ = _
  cases (f c s).1 with
  | error e => rfl
  | ok found =>
      cases found with
      | none => rfl
      | some id => rfl

theorem use_eq (id : Nat) : (afterClaim b64 userId identity device (Keys.useClaimed id)).run =
    .step (fun c s => (useStep id c s).2) fun c s => .done
      (match (useStep id c s).1 with
      | .ok otpk =>
          .ok (.bundle (Keys.bundleResponse b64 (Keys.bundleOf identity device otpk)) otpk)
      | .error e => .error (Keys.bundleError userId e)) := by
  have starts : Keys.useClaimed id = ExceptT.mk (.act (useStep id)) := rfl
  rw [starts]
  generalize useStep id = f
  show Program.step _ _ = Program.step _ _
  congr 1
  funext c s
  show ((Program.done (f c s).1).bind _).bind _ = _
  cases (f c s).1 with
  | error e => rfl
  | ok otpk => rfl

theorem step_claim (c : Chance) (s : Server) : ∃ after, KeyStep b64 s
    (afterClaim b64 userId identity device (Keys.claimOneTimePreKey device.id)).run none
    (lockStep device.id c s).2
    (afterClaim b64 userId identity device (claimed (lockStep device.id c s).1)).run after := by
  unfold lockStep
  cases c.fault with
  | some e =>
      refine ⟨none, .adds Adds.refl (.ended _) ?_⟩
      intro result is response row other
      rw [← Program.done.inj is] at other
      cases other
  | none =>
      dsimp only
      rcases Db.lockPreKey_cases s.db device.id with
        ⟨row, there, available, free, found⟩ | ⟨locked, found⟩
      · rw [found]
        exact ⟨_, .locks there available free ⟨userId, identity, device, rfl, rfl⟩⟩
      · rw [found]
        exact ⟨none, .misses ⟨userId, identity, device, rfl, rfl⟩ locked rfl rfl⟩

theorem step_use {rest : KeyRest} (id : Nat) (c : Chance) (s : Server) :
    KeyStep b64 s rest (some (id, device.id)) (useStep id c s).2 (.done
      (match (useStep id c s).1 with
      | .ok otpk =>
          .ok (.bundle (Keys.bundleResponse b64 (Keys.bundleOf identity device otpk)) otpk)
      | .error e => .error (Keys.bundleError userId e))) none := by
  unfold useStep
  cases c.fault with
  | some e => exact .fails
  | none =>
      have answer : (Db.usePreKey id s.db).1 =
          .ok ((s.db.preKeys.map (Db.PreKey.used id)).find? fun row => row.id = id) := rfl
      dsimp only
      rw [answer]
      exact .uses answer rfl (Option.map_map _ _ _)

end

/-- A call that is looking for a device does not end with a bundle. -/
theorem silent_of_finding {userId : Uuid} {t : Task HysjError ((Bytes × Bytes) × Db.Device)}
    {result : Except HysjError KeyAnswer} (is : (t >>= fun found =>
      afterClaim b64 userId found.1 found.2
      (Keys.claimOneTimePreKey found.2.id)).run = .done result) :
    NoBundle result := by
  rw [ExceptT.run_bind] at is
  cases ran : t.run with
  | step effect next =>
      rw [ran] at is
      cases is
  | never =>
      rw [ran] at is
      cases is
  | done found =>
      rw [ran] at is
      cases found with
      | error e =>
          intro response row other
          rw [← Program.done.inj is] at other
          cases other
      | ok found =>
          have claims : (afterClaim b64 userId found.1 found.2
              (Keys.claimOneTimePreKey found.2.id)).run = .done result := is
          rw [claim_eq] at claims
          cases claims

/-- No call has locked a row when it is made, and none begins with a bundle. -/
theorem phase_program (call : KeyCall) :
    KeyPhase b64 none (call.program jwt argon2 b64 config) ∧
      ∀ result, call.program jwt argon2 b64 config = .done result → NoBundle result := by
  have adding {rest : KeyRest}
      (adds : Secures (fun _ _ => True) (fun _ => True) Adds NoBundle rest) :
      KeyPhase b64 none rest ∧ ∀ result, rest = .done result → NoBundle result := by
    refine ⟨.adding adds, ?_⟩
    rintro result rfl
    exact adds
  cases call with
  | register headers request =>
      apply adding
      exact secures_answer
        (adds_registerWrites.register headers request) fun _ _ _ other => by cases other
  | replenish auth request =>
      apply adding
      have adds : Keeps Adds (Keys.replenishPreKeys b64 auth request).run :=
        keeps_replenishPreKeys (fun _ => Adds.refl) (fun _ _ _ => adds_storePreKey) auth request
      exact secures_answer adds fun _ _ _ other => by cases other
  | fetch auth userId =>
      rw [fetch_eq]
      exact ⟨.finding (keeps_findFor auth userId), fun result => silent_of_finding⟩

theorem KeyPhase.step {held : Option (Nat × Uuid)} {effect : Chance → Server → Server}
    {next : Chance → Server → KeyRest} (phase : KeyPhase b64 held rest)
    (is : rest = .step effect next) (c : Chance) (s : Server) :
    ∃ after, KeyStep b64 s rest held (effect c s) (next c s) after := by
  cases phase with
  | adding adds =>
      subst is
      obtain ⟨-, added, later⟩ := adds c s trivial trivial
      refine ⟨none, .adds added (.adding later) ?_⟩
      intro result is
      rw [is] at later
      exact later
  | @finding userId t keeps =>
      have starts := is
      rw [ExceptT.run_bind] at starts
      cases ran : t.run with
      | step effect' next' =>
          rw [ran] at keeps starts
          obtain ⟨rfl, rfl⟩ := Program.step.inj starts
          obtain ⟨same, later⟩ := keeps c s
          exact ⟨none, .adds same.adds (.finding (t := ExceptT.mk (next' c s)) later)
            fun result => silent_of_finding⟩
      | done found =>
          rw [ran] at starts
          cases found with
          | error e => cases starts
          | ok found =>
              have here : (t >>= fun found => afterClaim b64 userId found.1 found.2
                  (Keys.claimOneTimePreKey found.2.id)).run = (afterClaim b64 userId found.1 found.2
                  (Keys.claimOneTimePreKey found.2.id)).run := by
                rw [ExceptT.run_bind, ran]
                rfl
              have claims := (claim_eq _).symm.trans (here.symm.trans is)
              obtain ⟨rfl, rfl⟩ := Program.step.inj claims
              rw [here]
              exact step_claim c s
      | never =>
          rw [ran] at starts
          cases starts
  | claiming claiming =>
      obtain ⟨userId, identity, device, rfl, rfl⟩ := claiming
      rw [use_eq] at is
      obtain ⟨rfl, rfl⟩ := Program.step.inj is
      exact ⟨none, step_use _ c s⟩
  | ended result => cases is

/-- Rows of keys are told apart by their numbers, which come from the sequence. -/
structure Numbered (t : Db.Tables) : Prop where
  ids : (t.preKeys.map Db.PreKey.id).Nodup
  drawn : ∀ row ∈ t.preKeys, row.id ≤ t.preKeySerial

/-- Every lock is that of one call, and is on the row of a key that nobody was given. -/
structure Locked (holds : Nat → Option (Nat × Uuid)) (t : Db.Tables) : Prop where
  held : ∀ j id d, holds j = some (id, d) → id ∈ t.preKeyLocks ∧
    ∃ row ∈ t.preKeys, row.id = id ∧ row.Available d
  holder : ∀ id ∈ t.preKeyLocks, ∃ j d, holds j = some (id, d)
  apart : ∀ i j id d d', holds i = some (id, d) → holds j = some (id, d') → i = j

/-- A key that is in a bundle is that of its device, and nobody is given it again. -/
structure HandedOut (b64 : Base64Engine) (p : KeyCalls) : Prop where
  used : ∀ j response row, p.Returned j (.bundle response (some row)) →
    row ∈ p.state.db.preKeys ∧ row.isUsed = true ∧ response.deviceId = row.deviceId.display ∧
      response.oneTimePreKey = some (b64.encode row.publicKey)
  single : ∀ i j response response' row row', p.Returned i (.bundle response (some row)) →
    p.Returned j (.bundle response' (some row')) → row.id = row'.id → i = j

structure Dispensed (b64 : Base64Engine) (holds : Nat → Option (Nat × Uuid))
    (p : KeyCalls) : Prop where
  numbered : Numbered p.state.db
  phases : p.Each fun j thread => KeyPhase b64 (holds j) thread.rest
  beyond : ∀ j, p.threads.length ≤ j → holds j = none
  locks : Locked holds p.state.db
  out : HandedOut b64 p

theorem Numbered.adds (numbered : Numbered s.db) (adds : Adds s s') : Numbered s'.db := by
  have before : ∀ row ∈ s.db.preKeys, row.id ≤ s'.db.preKeySerial :=
    fun row there => (numbered.drawn row there).trans adds.serial
  rcases adds.keys with same | ⟨row, new, drawn, added⟩
  · constructor
    · rw [same]
      exact numbered.ids
    · rw [same]
      exact before
  · constructor
    · rw [added, List.map_append, List.nodup_append]
      refine ⟨numbered.ids, List.nodup_singleton _, ?_⟩
      intro id old id' newest same
      obtain ⟨other, there, rfl⟩ := List.mem_map.mp old
      rw [List.map_singleton, List.mem_singleton] at newest
      have low := numbered.drawn other there
      omega
    · rw [added, List.forall_mem_append, List.forall_mem_singleton]
      exact ⟨before, drawn⟩

theorem Adds.mem (adds : Adds s s') {row : Db.PreKey} (there : row ∈ s.db.preKeys) :
    row ∈ s'.db.preKeys := by
  rcases adds.keys with same | ⟨_, -, -, added⟩
  · rw [same]
    exact there
  · rw [added]
    exact List.mem_append_left _ there

theorem Numbered.use {t : Db.Tables} (numbered : Numbered t) (id : Nat) :
    Numbered (Db.usePreKey id t).2 := by
  constructor
  · rw [Db.ids_usePreKey]
    exact numbered.ids
  · intro row there
    obtain ⟨old, known, rfl⟩ := List.mem_map.mp there
    rw [Db.PreKey.id_used]
    exact numbered.drawn old known

section

variable {holds : Nat → Option (Nat × Uuid)} {t t' : Db.Tables} {i j : Nat} {id : Nat} {d : Uuid}

theorem Locked.mono (locked : Locked holds t) (locks : t'.preKeyLocks = t.preKeyLocks)
    (keys : ∀ row ∈ t.preKeys, row ∈ t'.preKeys) : Locked holds t' := by
  constructor
  · intro j id d held
    obtain ⟨lock, row, there, is⟩ := locked.held j id d held
    rw [locks]
    exact ⟨lock, row, keys row there, is⟩
  · rw [locks]
    exact locked.holder
  · exact locked.apart

theorem Locked.lock (locked : Locked holds t) (nothing : holds i = none) {row : Db.PreKey}
    (there : row ∈ t.preKeys) (available : row.Available d) (free : row.id ∉ t.preKeyLocks) :
    Locked (Function.update holds i (some (row.id, d)))
      { t with preKeyLocks := row.id :: t.preKeyLocks } := by
  have old {j id : Nat} {d' : Uuid}
      (held : Function.update holds i (some (row.id, d)) j = some (id, d')) :
      (j = i ∧ id = row.id ∧ d' = d) ∨ j ≠ i ∧ holds j = some (id, d') := by
    by_cases same : j = i
    · subst same
      rw [Function.update_self] at held
      obtain ⟨rfl, rfl⟩ := Prod.mk.inj (Option.some.inj held)
      exact Or.inl ⟨rfl, rfl, rfl⟩
    · rw [Function.update_of_ne same] at held
      exact Or.inr ⟨same, held⟩
  constructor
  · intro j id d' held
    rcases old held with ⟨-, rfl, rfl⟩ | ⟨-, held⟩
    · exact ⟨List.mem_cons_self, row, there, rfl, available⟩
    · obtain ⟨lock, rest⟩ := locked.held j id d' held
      exact ⟨List.mem_cons_of_mem _ lock, rest⟩
  · intro id lock
    rcases List.mem_cons.mp lock with rfl | lock
    · exact ⟨i, d, Function.update_self _ _ _⟩
    · obtain ⟨j, d', held⟩ := locked.holder id lock
      refine ⟨j, d', ?_⟩
      rw [Function.update_of_ne, held]
      rintro rfl
      rw [nothing] at held
      cases held
  · intro j k id d' d'' first second
    rcases old first with ⟨is, rfl, -⟩ | ⟨-, before⟩
    · rcases old second with ⟨is', -, -⟩ | ⟨-, before'⟩
      · rw [is, is']
      · exact (free (locked.held k _ _ before').1).elim
    · rcases old second with ⟨-, rfl, -⟩ | ⟨-, before'⟩
      · exact (free (locked.held j _ _ before).1).elim
      · exact locked.apart j k id d' d'' before before'

/-- A call gives the lock back that it has, and leaves the other rows as they are. -/
theorem Locked.unlock (locked : Locked holds t) (mine : holds i = some (id, d))
    (locks : t'.preKeyLocks = t.preKeyLocks.filter fun other => other ≠ id)
    (keys : ∀ row ∈ t.preKeys, row.id ≠ id → row ∈ t'.preKeys) :
    Locked (Function.update holds i none) t' := by
  have old {j id' : Nat} {d' : Uuid} (held : Function.update holds i none j = some (id', d')) :
      holds j = some (id', d') ∧ id' ≠ id := by
    by_cases same : j = i
    · subst same
      rw [Function.update_self] at held
      cases held
    · rw [Function.update_of_ne same] at held
      refine ⟨held, ?_⟩
      rintro rfl
      exact same (locked.apart j i _ _ _ held mine)
  constructor
  · intro j id' d' held
    obtain ⟨held, other⟩ := old held
    obtain ⟨lock, row, there, is, available⟩ := locked.held j id' d' held
    rw [locks]
    refine ⟨List.mem_filter.mpr ⟨lock, decide_eq_true other⟩, row, keys row there ?_, is, available⟩
    rw [is]
    exact other
  · intro id' lock
    rw [locks] at lock
    obtain ⟨lock, other⟩ := List.mem_filter.mp lock
    obtain ⟨j, d', held⟩ := locked.holder id' lock
    refine ⟨j, d', ?_⟩
    rw [Function.update_of_ne, held]
    rintro rfl
    rw [mine] at held
    obtain ⟨rfl, -⟩ := Prod.mk.inj (Option.some.inj held)
    exact of_decide_eq_true other rfl
  · intro j k id' d' d'' first second
    exact locked.apart j k id' d' d'' (old first).1 (old second).1

end

theorem KeyCalls.returned_of_append
    {thread : Thread Chance Server KeyCall (Except HysjError KeyAnswer)}
    {j : Nat} {answer : KeyAnswer} (unanswered : thread.rest ≠ .done (.ok answer)) :
    KeyCalls.Returned { p with threads := p.threads ++ [thread] } j answer →
    p.Returned j answer := by
  rintro ⟨call, found⟩
  rcases of_getElem?_append found with old | ⟨-, new⟩
  · exact ⟨call, old⟩
  · rw [← new] at unanswered
    exact absurd rfl unanswered

theorem KeyCalls.returned_of_set {call : KeyCall} {i j : Nat} {answer : KeyAnswer} :
    KeyCalls.Returned ⟨s, p.threads.set i ⟨call, rest⟩⟩ j answer →
      (j = i ∧ rest = .done (.ok answer)) ∨ j ≠ i ∧ p.Returned j answer := by
  rintro ⟨other, found⟩
  rcases of_getElem?_set found with ⟨is, new⟩ | ⟨differ, old⟩
  · exact Or.inl ⟨is, (congrArg Thread.rest new).symm⟩
  · exact Or.inr ⟨differ, other, old⟩

section

variable {holds : Nat → Option (Nat × Uuid)}

theorem Dispensed.call (dispensed : Dispensed b64 holds p) (call : KeyCall) :
    Dispensed b64 holds
      { p with threads := p.threads ++ [⟨call, call.program jwt argon2 b64 config⟩] } := by
  obtain ⟨phase, silent⟩ := @phase_program jwt argon2 b64 config call
  have old {j : Nat} {response : PreKeyBundleResponse} {row : Option Db.PreKey} :
      KeyCalls.Returned
        { p with threads := p.threads ++ [⟨call, call.program jwt argon2 b64 config⟩] } j
        (.bundle response row) → p.Returned j (.bundle response row) :=
    KeyCalls.returned_of_append fun is => silent _ is response row rfl
  constructor
  · exact dispensed.numbered
  · intro j thread found
    rcases of_getElem?_append found with old | ⟨rfl, rfl⟩
    · exact dispensed.phases j thread old
    · rw [dispensed.beyond _ le_rfl]
      exact phase
  · intro j outside
    rw [List.length_append] at outside
    exact dispensed.beyond j (Nat.le_trans (Nat.le_add_right _ _) outside)
  · exact dispensed.locks
  · constructor
    · exact fun j response row given => dispensed.out.used j response row (old given)
    · exact fun i j response response' row row' given given' =>
        dispensed.out.single i j response response' row row' (old given) (old given')

theorem HandedOut.silent (out : HandedOut b64 p) {call : KeyCall} {i : Nat}
    (silent : ∀ response row, rest ≠ .done (.ok (.bundle response (some row))))
    (keys : ∀ row ∈ p.state.db.preKeys, row.isUsed = true → row ∈ s.db.preKeys) :
    HandedOut b64 ⟨s, p.threads.set i ⟨call, rest⟩⟩ := by
  have old {j : Nat} {response : PreKeyBundleResponse} {row : Db.PreKey} (given :
      KeyCalls.Returned ⟨s, p.threads.set i ⟨call, rest⟩⟩ j (.bundle response (some row))) :
      p.Returned j (.bundle response (some row)) := by
    rcases KeyCalls.returned_of_set given with ⟨-, is⟩ | ⟨-, before⟩
    · exact (silent response row is).elim
    · exact before
  constructor
  · intro j response row given
    obtain ⟨there, used, rest⟩ := out.used j response row (old given)
    exact ⟨keys row there used, used, rest⟩
  · exact fun i j response response' row row' given given' =>
      out.single i j response response' row row' (old given) (old given')

theorem HandedOut.use (out : HandedOut b64 p) (numbered : Numbered p.state.db)
    (locked : Locked holds p.state.db) {call : KeyCall} {i id : Nat} {d : Uuid}
    {response : PreKeyBundleResponse} {otpk : Option Db.PreKey} (mine : holds i = some (id, d))
    (answer : (Db.usePreKey id p.state.db).1 = .ok otpk) (ofDevice : response.deviceId = d.display)
    (has : response.oneTimePreKey = otpk.map fun row => b64.encode row.publicKey) :
    HandedOut b64 ⟨{ p.state with db := (Db.usePreKey id p.state.db).2 },
      p.threads.set i ⟨call, .done (.ok (.bundle response otpk))⟩⟩ := by
  obtain ⟨-, claimed, there, is, available⟩ := locked.held i id d mine
  rw [Db.usePreKey_fst numbered.ids there is] at answer
  obtain rfl := Except.ok.inj answer
  have marked : claimed.used id = { claimed with isUsed := true } := if_pos is
  have stays {row : Db.PreKey} (known : row ∈ p.state.db.preKeys) (used : row.isUsed = true) :
      row ∈ (Db.usePreKey id p.state.db).2.preKeys ∧ row.id ≠ id := by
    constructor
    · have same : row.used id = row := Db.PreKey.used_of_isUsed used
      rw [← same]
      exact List.mem_map_of_mem known
    · intro same
      have one := List.inj_on_of_nodup_map numbered.ids known there (same.trans is.symm)
      rw [one, available.2] at used
      cases used
  have cases_ {j : Nat} {response' : PreKeyBundleResponse} {row : Db.PreKey} (given :
      KeyCalls.Returned ⟨{ p.state with db := (Db.usePreKey id p.state.db).2 },
        p.threads.set i
        ⟨call, .done (.ok (.bundle response (some { claimed with isUsed := true })))⟩⟩ j
        (.bundle response' (some row))) :
      (j = i ∧ response' = response ∧ row = { claimed with isUsed := true }) ∨
        j ≠ i ∧ p.Returned j (.bundle response' (some row)) := by
    rcases KeyCalls.returned_of_set given with ⟨same, new⟩ | before
    · injection new with new
      injection new with new
      injection new with first second
      exact Or.inl ⟨same, first.symm, (Option.some.inj second).symm⟩
    · exact Or.inr before
  constructor
  · intro j response' row given
    rcases cases_ given with ⟨-, rfl, rfl⟩ | ⟨-, before⟩
    · refine ⟨?_, rfl, ?_, has⟩
      · rw [← marked]
        exact List.mem_map_of_mem there
      · rw [ofDevice, available.1]
    · obtain ⟨known, used, rest⟩ := out.used j response' row before
      exact ⟨(stays known used).1, used, rest⟩
  · intro j k response' response'' row row' first second same
    rcases cases_ first with ⟨rfl, -, rfl⟩ | ⟨-, before⟩
    · rcases cases_ second with ⟨rfl, -, -⟩ | ⟨-, before'⟩
      · rfl
      · obtain ⟨known, used, -⟩ := out.used k response'' row' before'
        exact ((stays known used).2 (same.symm.trans is)).elim
    · rcases cases_ second with ⟨rfl, -, rfl⟩ | ⟨-, before'⟩
      · obtain ⟨known, used, -⟩ := out.used j response' row before
        exact ((stays known used).2 (same.trans is)).elim
      · exact out.single j k response' response'' row row' before before' same

theorem not_done_of_claiming {id : Nat} {d : Uuid} (claiming : Claiming b64 id d rest)
    (result : Except HysjError KeyAnswer) : rest ≠ .done result := by
  obtain ⟨userId, identity, device, -, rfl⟩ := claiming
  rw [use_eq]
  intro other
  cases other

theorem KeyStep.phase {held after : Option (Nat × Uuid)} {rest' : KeyRest}
    (step : KeyStep b64 s rest held s' rest' after) : KeyPhase b64 after rest' := by
  cases step with
  | adds _ phase _ => exact phase
  | locks _ _ _ claiming => exact .claiming claiming
  | misses _ _ _ _ => exact .ended _
  | uses _ _ _ => exact .ended _
  | fails => exact .ended _

/-- The call that took a step is where it has come to, with what it holds there, and the others are
where they were. -/
theorem Dispensed.moved (dispensed : Dispensed b64 holds p) {call : KeyCall} {i : Nat}
    {after : Option (Nat × Uuid)} {rest rest' : KeyRest} (s' : Server)
    (found : p.threads[i]? = some ⟨call, rest⟩) (phase : KeyPhase b64 after rest') :
    Pool.Each (fun j thread => KeyPhase b64 (Function.update holds i after j) thread.rest)
        (⟨s', p.threads.set i ⟨call, rest'⟩⟩ : KeyCalls) ∧
      ∀ j, (p.threads.set i ⟨call, rest'⟩).length ≤ j → Function.update holds i after j = none := by
  constructor
  · intro j thread there
    rcases of_getElem?_set there with ⟨rfl, rfl⟩ | ⟨differ, old⟩
    · rw [Function.update_self]
      exact phase
    · rw [Function.update_of_ne differ]
      exact dispensed.phases j thread old
  · intro j outside
    rw [List.length_set] at outside
    have inside := (List.getElem?_eq_some_iff.mp found).1
    rw [Function.update_of_ne (by omega)]
    exact dispensed.beyond j outside

theorem Dispensed.run (dispensed : Dispensed b64 holds p) {call : KeyCall} {i : Nat}
    {effect : Chance → Server → Server} {next : Chance → Server → KeyRest} {c : Chance}
    (found : p.threads[i]? = some ⟨call, .step effect next⟩) :
    ∃ holds', Dispensed b64 holds'
      ⟨effect c p.state, p.threads.set i ⟨call, next c p.state⟩⟩ := by
  obtain ⟨after, step⟩ := (dispensed.phases i _ found).step rfl c p.state
  refine ⟨Function.update holds i after, ?_⟩
  obtain ⟨phases, beyond⟩ := dispensed.moved (effect c p.state) found step.phase
  generalize is : holds i = held at step
  generalize effect c p.state = s' at step phases ⊢
  generalize next c p.state = rest' at step phases beyond ⊢
  have idle (nothing : holds i = none) : Function.update holds i none = holds := by
    rw [← nothing, Function.update_eq_self]
  cases step with
  | adds adds phase silent =>
      rw [idle is] at phases beyond ⊢
      refine ⟨dispensed.numbered.adds adds, phases, beyond, ?_, ?_⟩
      · exact dispensed.locks.mono adds.locks fun row there => adds.mem there
      · apply dispensed.out.silent
        · intro response row done
          exact silent _ done response _ rfl
        · exact fun row there _ => adds.mem there
  | locks there available free claiming =>
      refine ⟨⟨dispensed.numbered.ids, dispensed.numbered.drawn⟩, phases, beyond, ?_, ?_⟩
      · exact dispensed.locks.lock is there available free
      · apply dispensed.out.silent
        · exact fun response row done => not_done_of_claiming claiming _ done
        · exact fun row there _ => there
  | misses _ _ _ _ =>
      rw [idle is] at phases beyond ⊢
      refine ⟨dispensed.numbered, phases, beyond, dispensed.locks, ?_⟩
      apply dispensed.out.silent
      · intro response row done
        injection done with done
        injection done with done
        injection done with _ other
        cases other
      · exact fun row there _ => there
  | uses answer ofDevice has =>
      refine ⟨dispensed.numbered.use _, phases, beyond, ?_, ?_⟩
      · apply dispensed.locks.unlock is rfl
        intro row there other
        have same : row.used _ = row := Db.PreKey.used_of_ne other
        rw [← same]
        exact List.mem_map_of_mem there
      · exact dispensed.out.use dispensed.numbered dispensed.locks is answer ofDevice has
  | fails =>
      refine ⟨⟨dispensed.numbered.ids, dispensed.numbered.drawn⟩, phases, beyond, ?_, ?_⟩
      · exact dispensed.locks.unlock is rfl fun row there _ => there
      · apply dispensed.out.silent
        · intro response row done
          cases done
        · exact fun row there _ => there

theorem Dispensed.event (dispensed : Dispensed b64 holds p) {e : KeyEvent}
    (stepped : KeyCalls.step jwt argon2 b64 config p e = some p') :
    ∃ holds', Dispensed b64 holds' p' := by
  cases e with
  | call call =>
      obtain rfl := Option.some.inj stepped
      exact ⟨holds, dispensed.call call⟩
  | run i c =>
      obtain ⟨call, effect, next, found, rfl⟩ := Pool.step_run.mp stepped
      exact dispensed.run found
  | pass duration =>
      obtain rfl := Option.some.inj stepped
      exact ⟨holds, ⟨dispensed.numbered, dispensed.phases, dispensed.beyond, dispensed.locks,
        ⟨dispensed.out.used, dispensed.out.single⟩⟩⟩

theorem dispensed_start {first : Server} (numbered : Numbered first.db)
    (unlocked : first.db.preKeyLocks = []) : Dispensed b64 (fun _ => none) ⟨first, []⟩ := by
  constructor
  · exact numbered
  · intro j thread found
    cases found
  · exact fun _ _ => rfl
  · constructor
    · intro j id d held
      cases held
    · intro id lock
      rw [show first.db.preKeyLocks = [] from unlocked] at lock
      cases lock
    · intro i j id d d' held
      cases held
  · constructor
    · rintro j response row ⟨call, found⟩
      cases found
    · rintro i j response response' row row' ⟨call, found⟩
      cases found

/-- A bundle has no key only if, when its call looked for one, every key of the device that nobody
was given was being claimed by another call. -/
theorem Dispensed.missed (dispensed : Dispensed b64 holds p) {call : KeyCall} {i : Nat}
    {effect : Chance → Server → Server} {next : Chance → Server → KeyRest} {c : Chance}
    {response : PreKeyBundleResponse} (found : p.threads[i]? = some ⟨call, .step effect next⟩)
    (done : next c p.state = .done (.ok (.bundle response none))) :
    response.oneTimePreKey = none ∧ ∃ d, response.deviceId = d.display ∧
      AtClaim b64 d (.step effect next) ∧ ∀ row ∈ p.state.db.preKeys, row.Available d →
        ∃ j other, j ≠ i ∧ p.threads[j]? = some other ∧ Claiming b64 row.id d other.rest := by
  obtain ⟨after, step⟩ := (dispensed.phases i _ found).step rfl c p.state
  generalize is : holds i = held at step
  generalize effect c p.state = s' at step
  generalize next c p.state = rest' at step done
  cases step with
  | adds _ _ silent => exact (silent _ done response none rfl).elim
  | locks _ _ _ claiming => exact (not_done_of_claiming claiming _ done).elim
  | @misses d response' at_ locked ofDevice without =>
      injection done with done
      injection done with done
      injection done with same _
      subst same
      refine ⟨without, d, ofDevice, at_, ?_⟩
      intro row there available
      obtain ⟨j, d', holder⟩ := dispensed.locks.holder row.id (locked row there available)
      have other : j ≠ i := by
        rintro rfl
        rw [is] at holder
        cases holder
      -- the row that the other call has locked is this one
      obtain ⟨-, row', there', same, available'⟩ := dispensed.locks.held j _ _ holder
      obtain rfl := List.inj_on_of_nodup_map dispensed.numbered.ids there' there same
      obtain rfl : d' = d := available'.1.symm.trans available.1
      have inside : j < p.threads.length := by
        by_contra outside
        rw [dispensed.beyond j (by omega)] at holder
        cases holder
      have phase := dispensed.phases j _ (List.getElem?_eq_getElem inside)
      dsimp only at phase
      rw [holder] at phase
      cases phase with
      | claiming claiming => exact ⟨j, _, other, List.getElem?_eq_getElem inside, claiming⟩
  | @uses id d response' otpk answer _ _ =>
      injection done with done
      injection done with done
      injection done with _ nothing
      subst nothing
      obtain ⟨-, row, there, same, -⟩ := dispensed.locks.held i id d is
      rw [Db.usePreKey_fst dispensed.numbered.ids there same] at answer
      cases answer
  | fails => cases done

end

/-- The call looked for a key of the device when every key that nobody was given was being claimed
by another call. -/
def Considered (b64 : Base64Engine) (steps : List (KeyCalls × KeyEvent × KeyCalls)) (i : Nat)
    (d : Uuid) : Prop :=
  ∃ x ∈ steps, ∃ c thread, x.2.1 = .run i c ∧ x.1.threads[i]? = some thread ∧
    AtClaim b64 d thread.rest ∧ ∀ row ∈ x.1.state.db.preKeys, row.Available d →
      ∃ j other, j ≠ i ∧ x.1.threads[j]? = some other ∧ Claiming b64 row.id d other.rest

theorem Considered.append {steps more : List (KeyCalls × KeyEvent × KeyCalls)} {i : Nat} {d : Uuid}
    (considered : Considered b64 steps i d) : Considered b64 (steps ++ more) i d := by
  obtain ⟨x, member, rest⟩ := considered
  exact ⟨x, List.mem_append_left _ member, rest⟩

theorem KeyRun.dispensed {first : Server} {steps : List (KeyCalls × KeyEvent × KeyCalls)}
    (numbered : Numbered first.db) (unlocked : first.db.preKeyLocks = [])
    (run : KeyRun jwt argon2 b64 config first steps p) :
    (∃ holds, Dispensed b64 holds p) ∧ ∀ i response, p.Returned i (.bundle response none) →
      response.oneTimePreKey = none ∧
        ∃ d, response.deviceId = d.display ∧ Considered b64 steps i d := by
  induction run with
  | start =>
      refine ⟨⟨_, dispensed_start numbered unlocked⟩, ?_⟩
      rintro i response ⟨call, found⟩
      cases found
  | @next steps p p' e before stepped ih =>
      obtain ⟨⟨holds, dispensed⟩, omitted⟩ := ih
      refine ⟨dispensed.event stepped, ?_⟩
      rintro i response ⟨call, found⟩
      have earlier (there : p.Returned i (.bundle response none)) :
          response.oneTimePreKey = none ∧
            ∃ d, response.deviceId = d.display ∧ Considered b64 (steps ++ [(p, e, p')]) i d := by
        obtain ⟨without, d, ofDevice, considered⟩ := omitted i response there
        exact ⟨without, d, ofDevice, considered.append⟩
      rcases Pool.thread_after stepped found with ⟨old, -⟩ | ⟨rfl, -, starts⟩ |
        ⟨c, effect, next, rfl, old, done, -⟩
      · exact earlier ⟨call, old⟩
      · exact ((phase_program call).2 _ starts.symm response none rfl).elim
      · obtain ⟨without, d, ofDevice, at_, claimed⟩ := dispensed.missed old done.symm
        exact ⟨without, d, ofDevice, _, List.mem_concat_self, c, _, rfl, old, at_, claimed⟩

end

/-- A one-time pre-key is in one bundle at most, which is one for its device, and a bundle is
without a key only if every key of the device that nobody was given was being claimed by others. -/
theorem pre_keys_handed_out_once (jwt : Jwt) (argon2 : Argon2) (b64 : Base64Engine)
    (config : AppConfig) (first : Server) (steps : List (KeyCalls × KeyEvent × KeyCalls))
    (p : KeyCalls) (numbered : Numbered first.db) (unlocked : first.db.preKeyLocks = [])
    (run : KeyRun jwt argon2 b64 config first steps p) :
    (∀ i j response response' row row', p.Returned i (.bundle response (some row)) →
      p.Returned j (.bundle response' (some row')) → row.id = row'.id → i = j) ∧
    (∀ i response row, p.Returned i (.bundle response (some row)) →
      row ∈ p.state.db.preKeys ∧ response.deviceId = row.deviceId.display ∧
        response.oneTimePreKey = some (b64.encode row.publicKey)) ∧
    ∀ i response, p.Returned i (.bundle response none) → response.oneTimePreKey = none ∧
      ∃ d, response.deviceId = d.display ∧ Considered b64 steps i d := by
  obtain ⟨⟨holds, dispensed⟩, omitted⟩ := KeyRun.dispensed numbered unlocked run
  refine ⟨dispensed.out.single, ?_, omitted⟩
  intro i response row given
  obtain ⟨there, -, ofDevice, has⟩ := dispensed.out.used i response row given
  exact ⟨there, ofDevice, has⟩

/-- Alice has a device with one key, and Bob asks for it twice. -/
def keyServer (preKeys : List Db.PreKey) : Server :=
  .start 0
    { users := clubUsers
      devices := [.sample (.replicate 16 5) (.replicate 16 1)]
      preKeys := preKeys
      preKeySerial := preKeys.length }

def bobFetches : KeyCall := .fetch (clubUser 2) (.replicate 16 1)

/-- The first call locks the key, and the second finds none. -/
def fetchEvents : List KeyEvent :=
  [.call bobFetches, .call bobFetches] ++ List.replicate 4 (.run 0 {}) ++
    List.replicate 4 (.run 1 {}) ++ [.run 0 {}]

theorem pre_key_fetched : ∃ steps p,
    KeyRun .sample .sample .sample ⟨none, "secret"⟩
    (keyServer [⟨1, .replicate 16 5, [], false⟩]) steps p ∧
      (∃ response row, p.Returned 0 (.bundle response (some row)) ∧
        response.deviceId = row.deviceId.display) ∧
      ∃ response, p.Returned 1 (.bundle response none) ∧
        ∃ d, response.deviceId = d.display ∧ Considered .sample steps 1 d := by
  obtain ⟨steps, run⟩ : ∃ steps, KeyRun .sample .sample .sample ⟨none, "secret"⟩
      (keyServer [⟨1, .replicate 16 5, [], false⟩]) steps _ := KeyRun.of_follow fetchEvents rfl
  obtain ⟨-, given, omitted⟩ := pre_keys_handed_out_once .sample .sample .sample ⟨none, "secret"⟩
    (keyServer [⟨1, .replicate 16 5, [], false⟩]) steps _ ⟨by decide, by decide⟩ rfl run
  exact ⟨steps, _, run, ⟨_, _, ⟨_, rfl⟩, (given 0 _ _ ⟨_, rfl⟩).2.1⟩, _, ⟨_, rfl⟩,
    (omitted 1 _ ⟨_, rfl⟩).2⟩

end Hysj.Api
