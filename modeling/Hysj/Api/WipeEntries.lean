import Hysj.Api.RateLimit
import Hysj.Api.WipeAuthority
import Hysj.Api.WipeStatus
import Hysj.Base.Exec
import Hysj.Base.Trail

set_option autoImplicit false

/- The two ways to issue a wipe, and when they come to the same. -/
namespace Hysj.Api

open Crypto Shared Auth Messaging Program SlidingWindow

/-- The users whose devices the WebSocket looks up for a wipe, in their order. -/
def lookUps (user : Uuid) (request : WipeRequest) : List Uuid :=
  match request.wipeType with
  | .all => [user]
  | .device => []
  | .conversation => request.conversationPartnerId.toList ++ [user]

/-- What the WebSocket makes of a look-up. -/
def lookedUp (s : Server) (c : Chance) (u : Uuid) : List Uuid :=
  if c.fault = none then (s.db.devices.filter fun row => row.userId = u).map Db.Device.id else []

/-- The devices that the WebSocket finds. -/
def wsFound (s : Server) (cs : List Chance) (user : Uuid) (request : WipeRequest) : List Uuid :=
  match request.wipeType with
  | .device => request.targetDeviceId.toList
  | _ => (List.zipWith (lookedUp s) cs (lookUps user request)).flatten

/-- The request has the field that its type needs. -/
def FieldsNamed (request : WipeRequest) : Prop :=
  match request.wipeType with
  | .all => True
  | .device => request.targetDeviceId ≠ none
  | .conversation => request.conversationPartnerId ≠ none

def wipeLimitKey (user : Uuid) : String := "wipe:" ++ user.display

/-- The limiter has room for another wipe of the user. -/
def WipeRoom (s : Server) (user : Uuid) : Prop :=
  (recent s (wipeLimitKey user) WIPE_WINDOW_SECONDS).length < WIPE_MAX

/-- A SET of the wipe fails for one of so many devices. -/
def SetFails (cs : List Chance) (devices : Nat) : Prop :=
  ∃ c ∈ (cs.drop 2).take devices, c.fault ≠ none

section

variable {s s' : Server} {cs left : List Chance} {c : Chance} {user u sender : Uuid}
variable {request : WipeRequest} {chrono : Chrono} {targets : List Uuid} {auth : AuthUser}

theorem execRest_listByUser (clean : c.fault = none) :
    execRest (c :: cs) (query fun _ => Db.listByUser u).run s =
      some (.ok (s.db.devices.filter fun row => row.userId = u), s, cs) := by
  rw [query, ExceptT.run_mk, execRest_act, clean]
  rfl

theorem execRest_listByUser_fault {e : String} (fault : c.fault = some e) :
    execRest (c :: cs) (query fun _ => Db.listByUser u).run s =
      some (.error (.queryFailed e), s, cs) := by
  rw [query, ExceptT.run_mk, execRest_act, fault]

theorem execRest_devicesOrNone : ∃ rows, rows.map Db.Device.id = lookedUp s c u ∧
    execRest (c :: cs) (devicesOrNone (Db.listByUser u)).run s = some (.ok rows, s, cs) := by
  unfold devicesOrNone lookedUp attempt
  rw [execRest_run_bind, execRest_lift]
  cases fault : c.fault with
  | none =>
      rw [execRest_listByUser fault, if_pos rfl]
      exact ⟨_, rfl, execRest_run_pure _ _ _⟩
  | some e =>
      rw [execRest_listByUser_fault fault, if_neg (Option.some_ne_none e)]
      exact ⟨[], rfl, execRest_run_pure _ _ _⟩

/-- The WebSocket looks up what it can and goes on with what it found. -/
theorem execRest_wipeTargets : execRest cs (wipeTargets user request).run s =
    if (lookUps user request).length ≤ cs.length then
      some (.ok (wsFound s cs user request), s, cs.drop (lookUps user request).length)
    else none := by
  unfold wipeTargets wsFound lookUps
  cases request.wipeType with
  | all =>
      cases cs with
      | nil => rfl
      | cons c cs =>
          obtain ⟨rows, found, ran⟩ := @execRest_devicesOrNone s cs c user
          dsimp only
          rw [execRest_run_bind, ran, if_pos (by simp)]
          show execRest cs (pure (rows.map Db.Device.id) : Task String (List Uuid)).run s = _
          rw [execRest_run_pure, found]
          simp
  | device =>
      dsimp only
      rw [execRest_run_pure, if_pos (by simp)]
      rfl
  | conversation =>
      dsimp only
      unfold partnerDevices
      cases request.conversationPartnerId with
      | none =>
          cases cs with
          | nil => rfl
          | cons c cs =>
              obtain ⟨rows, found, ran⟩ := @execRest_devicesOrNone s cs c user
              dsimp only
              rw [execRest_run_bind, execRest_run_pure]
              show execRest (c :: cs) (devicesOrNone (Db.listByUser user) >>= fun own =>
                pure (([] : List Db.Device).map Db.Device.id ++ own.map Db.Device.id)).run s = _
              rw [execRest_run_bind, ran, if_pos (by simp)]
              show execRest cs
                  (pure ([] ++ rows.map Db.Device.id) : Task String (List Uuid)).run s = _
              rw [execRest_run_pure, found]
              simp
      | some partner =>
          cases cs with
          | nil => rfl
          | cons c cs =>
              obtain ⟨partners, found, ran⟩ := @execRest_devicesOrNone s cs c partner
              dsimp only
              rw [execRest_run_bind, ran]
              show execRest cs (devicesOrNone (Db.listByUser user) >>= fun own =>
                pure (partners.map Db.Device.id ++ own.map Db.Device.id)).run s = _
              cases cs with
              | nil => rfl
              | cons c' cs =>
                  obtain ⟨rows, found', ran'⟩ := @execRest_devicesOrNone s cs c' user
                  rw [execRest_run_bind, ran', if_pos (by simp)]
                  show execRest cs (pure (partners.map Db.Device.id ++ rows.map Db.Device.id) :
                    Task String (List Uuid)).run s = _
                  rw [execRest_run_pure, found, found']
                  simp

theorem execRest_listing {α : Type} {f : DbError → HysjError}
    {k : List Db.Device → Task HysjError α} (clean : c.fault = none) :
    execRest (c :: cs) (ExceptT.adapt f (query fun _ => Db.listByUser u) >>= k).run s =
      execRest cs (k (s.db.devices.filter fun row => row.userId = u)).run s := by
  rw [execRest_run_bind, execRest_adapt, execRest_listByUser clean]
  rfl

theorem execRest_listing_fault {α : Type} {f : DbError → HysjError}
    {k : List Db.Device → Task HysjError α} {e : String} (fault : c.fault = some e) :
    execRest (c :: cs) (ExceptT.adapt f (query fun _ => Db.listByUser u) >>= k).run s =
      some (.error (f (.queryFailed e)), s, cs) := by
  rw [execRest_run_bind, execRest_adapt, execRest_listByUser_fault fault]
  rfl

theorem not_clean {e : String} (fault : c.fault = some e) {looked : List Chance}
    (member : c ∈ looked) : ¬ ∀ c ∈ looked, c.fault = none := by
  intro clean
  rw [clean c member] at fault
  cases fault

/-- The endpoint finds the same devices, or rejects a request without its field or whose look-up
fails. -/
theorem execRest_issueTargets (enough : (lookUps user request).length ≤ cs.length) :
    (FieldsNamed request ∧ ∀ c ∈ cs.take (lookUps user request).length, c.fault = none) ∧
        execRest cs (issueTargets user request).run s = some
          (.ok (wsFound s cs user request), s, cs.drop (lookUps user request).length) ∨
      ¬ (FieldsNamed request ∧ ∀ c ∈ cs.take (lookUps user request).length, c.fault = none) ∧
        ∃ e m left, execRest cs (issueTargets user request).run s = some (.error e, m, left) := by
  unfold issueTargets wsFound FieldsNamed lookUps
  unfold lookUps at enough
  cases type : request.wipeType with
  | all =>
      simp only [type] at enough
      obtain ⟨c, cs, rfl⟩ := List.exists_cons_of_length_pos enough
      dsimp only
      cases fault : c.fault with
      | none =>
          refine Or.inl ⟨⟨trivial, by simpa using fault⟩, ?_⟩
          rw [execRest_listing fault, execRest_run_pure]
          simp [lookedUp, fault]
      | some e =>
          refine Or.inr ⟨fun met => not_clean fault (by simp) met.2, ?_⟩
          rw [execRest_listing_fault fault]
          exact ⟨_, _, _, rfl⟩
  | device =>
      dsimp only
      cases request.targetDeviceId with
      | none =>
          refine Or.inr ⟨fun met => met.1 rfl, ?_⟩
          dsimp only
          exact ⟨_, _, _, execRest_run_throw _ _ _⟩
      | some d =>
          refine Or.inl ⟨⟨Option.some_ne_none d, by simp⟩, ?_⟩
          dsimp only
          rw [execRest_run_pure]
          rfl
  | conversation =>
      simp only [type] at enough
      dsimp only
      cases partner : request.conversationPartnerId with
      | none =>
          refine Or.inr ⟨fun met => met.1 rfl, ?_⟩
          exact ⟨_, _, _, execRest_run_throw _ _ _⟩
      | some partner' =>
          rw [partner] at enough
          obtain ⟨c, cs, rfl⟩ := List.exists_cons_of_length_pos
            (l := cs) (by simp at enough; omega)
          obtain ⟨c', cs, rfl⟩ := List.exists_cons_of_length_pos
            (l := cs) (by simp at enough; omega)
          dsimp only
          cases fault : c.fault with
          | some e =>
              refine Or.inr ⟨fun met => not_clean fault (by simp) met.2, ?_⟩
              rw [execRest_listing_fault fault]
              exact ⟨_, _, _, rfl⟩
          | none =>
              rw [execRest_listing fault]
              cases fault' : c'.fault with
              | none =>
                  refine Or.inl ⟨⟨Option.some_ne_none _, by simp [fault, fault']⟩, ?_⟩
                  rw [execRest_listing fault', execRest_run_pure]
                  simp [lookedUp, fault, fault']
              | some e =>
                  refine Or.inr ⟨fun met => not_clean fault' (by simp) met.2, ?_⟩
                  rw [execRest_listing_fault fault']
                  exact ⟨_, _, _, rfl⟩

/-- The entry of a wipe for a device, stored after those of others. -/
def storeEntry (chrono : Chrono) (id : Uuid) (request : WipeRequest) (now : Nat)
    (r : Redis) (d : Uuid) :
    Redis :=
  r.set (wipeKey d id.display) (Json.toVec (PendingWipe.toJson chrono ⟨id.display, request, now⟩))
    (some WIPE_TTL_SECONDS.toNat)

/-- The SET of a target fails and ends the loop, or the loop goes on with the entry stored. -/
theorem execRest_storeEntries_cons {id d : Uuid} {value : Bytes} {r r' : Redis}
    {result : Except MessagingError PUnit}
    (ran : execRest cs (forM (d :: targets) fun d => setEx (wipeKey d id.display) value
      WIPE_TTL_SECONDS).run r = some (result, r', left)) :
    ∃ c rest, cs = c :: rest ∧
      ((∃ e, c.fault = some e ∧ result = .error (.redisError e) ∧ r' = r) ∨
        c.fault = none ∧ execRest rest (forM targets fun d => setEx (wipeKey d id.display) value
          WIPE_TTL_SECONDS).run (r.set (wipeKey d id.display) value (some WIPE_TTL_SECONDS.toNat)) =
            some (result, r', left)) := by
  rw [List.forM_cons, execRest_run_bind] at ran
  cases cs with
  | nil => cases ran
  | cons c cs =>
      refine ⟨c, cs, rfl, ?_⟩
      rw [setEx, command, ExceptT.run_mk, execRest_act] at ran
      cases fault : c.fault with
      | some e =>
          rw [fault] at ran
          obtain ⟨rfl, rest⟩ := Prod.mk.inj (Option.some.inj ran)
          exact Or.inl ⟨e, rfl, rfl, (Prod.mk.inj rest).1.symm⟩
      | none =>
          rw [fault] at ran
          exact Or.inr ⟨rfl, ran⟩

theorem execRest_storeEntries {id : Uuid} {now : Nat} {r r' : Redis}
    {result : Except MessagingError PUnit}
    (ran : execRest cs (forM targets fun d => setEx (wipeKey d id.display)
      (Json.toVec (PendingWipe.toJson chrono ⟨id.display, request, now⟩)) WIPE_TTL_SECONDS).run r =
        some (result, r', left)) :
    ((∃ e, result = .error e) ↔ ∃ c ∈ cs.take targets.length, c.fault ≠ none) ∧
      (result = .ok () → r' = targets.foldl (storeEntry chrono id request now) r) := by
  induction targets generalizing cs r with
  | nil =>
      rw [List.forM_nil, execRest_run_pure] at ran
      obtain ⟨rfl, rest⟩ := Prod.mk.inj (Option.some.inj ran)
      obtain ⟨rfl, -⟩ := Prod.mk.inj rest
      simp
  | cons d targets ih =>
      obtain ⟨c, rest, rfl, ⟨e, fault, rfl, -⟩ | ⟨fault, ran⟩⟩ := execRest_storeEntries_cons ran
      · refine ⟨⟨fun _ => ⟨c, by simp, by simp [fault]⟩, fun _ => ⟨_, rfl⟩⟩, fun other => ?_⟩
        cases other
      · obtain ⟨failed, stored⟩ := ih ran
        rw [failed]
        exact ⟨by simp [fault], stored⟩

theorem execRest_storeEntries_idle {id : Uuid} {value : Bytes} {r r' : Redis}
    {result : Except MessagingError PUnit}
    (ran : execRest cs (forM targets fun d => setEx (wipeKey d id.display) value
      WIPE_TTL_SECONDS).run r = some (result, r', left))
    (idle : targets = [] ∨ ∃ c, cs.head? = some c ∧ c.fault ≠ none) : r' = r := by
  cases targets with
  | nil =>
      rw [List.forM_nil, execRest_run_pure] at ran
      exact (Prod.mk.inj (Prod.mk.inj (Option.some.inj ran)).2).1.symm
  | cons d targets =>
      obtain ⟨c, first, fails⟩ := idle.resolve_left (List.cons_ne_nil _ _)
      obtain ⟨c', rest, rfl, ⟨-, -, -, same⟩ | ⟨fault, -⟩⟩ := execRest_storeEntries_cons ran
      · exact same
      · obtain rfl := Option.some.inj first
        exact absurd fault fails

/-- The identifier is drawn and the time is read before the entries are stored. -/
theorem execRest_issueWipe_cases {r r' : Redis} {result : Except MessagingError String}
    (ran : execRest cs (Messaging.issueWipe chrono targets request).run r = some
    (result, r', left)) :
    ∃ c c' rest stored, cs = c :: c' :: rest ∧
      execRest rest (forM targets fun d => setEx (wipeKey d c.uuid.display)
        (Json.toVec (PendingWipe.toJson chrono ⟨c.uuid.display, request, r.now⟩))
          WIPE_TTL_SECONDS).run r = some (stored, r', left) ∧
        result = stored.map fun _ => c.uuid.display := by
  rw [Messaging.issueWipe, execRest_run_bind] at ran
  obtain ⟨c, c', cs, rfl⟩ : ∃ c c' rest, cs = c :: c' :: rest := by
    cases cs with
    | nil => cases ran
    | cons c cs =>
        cases cs with
        | nil => cases ran
        | cons c' cs => exact ⟨c, c', cs, rfl⟩
  rw [newV4, execRest_lift, execRest_act] at ran
  dsimp only [Option.map, Option.bind, thenRun] at ran
  rw [execRest_run_bind, utcNow, execRest_lift, execRest_act] at ran
  dsimp only [Option.map, Option.bind, thenRun] at ran
  rw [execRest_run_bind] at ran
  obtain ⟨⟨stored, m, left'⟩, sets, rest⟩ := Option.bind_eq_some_iff.mp ran
  refine ⟨c, c', cs, stored, rfl, ?_⟩
  cases stored with
  | error e =>
      obtain ⟨rfl, same⟩ := Prod.mk.inj (Option.some.inj rest)
      obtain ⟨rfl, rfl⟩ := Prod.mk.inj same
      exact ⟨sets, rfl⟩
  | ok done =>
      rw [thenRun, execRest_run_pure] at rest
      obtain ⟨rfl, same⟩ := Prod.mk.inj (Option.some.inj rest)
      obtain ⟨rfl, rfl⟩ := Prod.mk.inj same
      exact ⟨sets, rfl⟩

/-- A wipe is stored under the identifier that was drawn, unless a SET fails. -/
theorem execRest_issueWipe {r r' : Redis} {result : Except MessagingError String}
    (ran : execRest cs (Messaging.issueWipe chrono targets request).run r = some
    (result, r', left)) :
    ((∃ e, result = .error e) ↔ SetFails cs targets.length) ∧
      ((∃ wipeId, result = .ok wipeId) → ∃ id,
        r' = targets.foldl (storeEntry chrono id request r.now) r) := by
  obtain ⟨c, c', rest, stored, rfl, sets, rfl⟩ := execRest_issueWipe_cases ran
  obtain ⟨failed, all⟩ := execRest_storeEntries sets
  cases stored with
  | error e =>
      refine ⟨⟨fun _ => failed.mp ⟨e, rfl⟩, fun _ => ⟨e, rfl⟩⟩, ?_⟩
      rintro ⟨wipeId, other⟩
      cases other
  | ok done =>
      refine ⟨⟨?_, fun fails => ?_⟩, fun _ => ⟨c.uuid, all rfl⟩⟩
      · rintro ⟨e, other⟩
        cases other
      · obtain ⟨e, other⟩ := failed.mpr fails
        cases other

/-- What follows the entries changes neither them nor whether there was an error. -/
theorem execRest_storing {ε β : Type} {f : MessagingError → ε} {t : Command String}
    {tail : String → Task ε β} {result : Except ε β}
    (keeps : ∀ wipeId, Keeps SameRedis (tail wipeId).run)
    (succeeds : ∀ wipeId, Succeeds Any (tail wipeId))
    (ran : execRest cs (ExceptT.adapt f (onRedis t) >>= tail).run s = some (result, s', left)) :
    ∃ outcome left', execRest cs t.run s.redis = some (outcome, s'.redis, left') ∧
      ((∃ e, result = .error e) ↔ ∃ e, outcome = .error e) := by
  rw [execRest_run_bind, execRest_adapt] at ran
  have zoomed := @execRest_zoom Chance Server Redis _ Server.redis
    (fun r s => { s with redis := r }) (fun _ _ => rfl) (fun _ => rfl) (fun _ _ _ => rfl) cs t.run s
  rw [onRedis, ExceptT.run_mk, zoomed] at ran
  cases stores : execRest cs t.run s.redis with
  | none =>
      rw [stores] at ran
      cases ran
  | some r =>
      obtain ⟨outcome, r, left'⟩ := r
      rw [stores] at ran
      cases outcome with
      | error e =>
          obtain ⟨rfl, rest⟩ := Prod.mk.inj (Option.some.inj ran)
          obtain ⟨rfl, -⟩ := Prod.mk.inj rest
          exact ⟨_, _, rfl, ⟨fun _ => ⟨e, rfl⟩, fun _ => ⟨_, rfl⟩⟩⟩
      | ok wipeId =>
          have rest := runs_of_execRest ran
          have same : s'.redis = r :=
            rest.keeps (keeps wipeId) sameRedis_refl fun _ _ _ => SameRedis.trans
          obtain ⟨b, rfl⟩ := succeeds wipeId _ _ _ rest
          refine ⟨.ok wipeId, left', by rw [same], ⟨?_, ?_⟩⟩
          · rintro ⟨e, other⟩
            cases other
          · rintro ⟨e, other⟩
            cases other

theorem keeps_tail_issueFor (wipeId : String) : Keeps SameRedis (do
    (liftM (sendToEach targets (.wipeCommand request)) : Task HysjError Unit)
    return (⟨wipeId, targets, []⟩ : WipeStatusResponse) : Task HysjError _).run :=
  Keeps.run_bind sameRedis_sendToEach.lift fun _ => keeps_pure _

/-- The timestamps of the user's wipes are these. -/
def Server.limited (s : Server) (user : Uuid) (times : List Nat) : Server :=
  { s with rateLimiter := Function.update s.rateLimiter (wipeLimitKey user) times }

theorem execRest_restWipe_of_room (c : Chance) (room : WipeRoom s auth.userId) :
    execRest (c :: cs) (issueWipe chrono auth request).run s =
      (execRest cs (issueTargets auth.userId request).run (s.limited auth.userId
        (recent s (wipeLimitKey auth.userId) WIPE_WINDOW_SECONDS ++ [s.redis.now]))).bind
          (thenRun fun targets =>
            if targets = [] then throw (.validationError "No target devices found")
            else issueFor chrono request targets) := by
  have open_ :
      ¬ WIPE_MAX ≤ (recent s ("wipe:" ++ auth.userId.display) WIPE_WINDOW_SECONDS).length :=
    Nat.not_le.mpr room
  unfold issueWipe
  rw [execRest_run_bind, checkRateLimit, atomically, execRest_lift, execRest_act, if_neg open_,
    ← execRest_run_bind]
  rfl

theorem execRest_restWipe_of_full (c : Chance) (full : ¬ WipeRoom s auth.userId) :
    execRest (c :: cs) (issueWipe chrono auth request).run s = some (.error .rateLimited,
      s.limited auth.userId (recent s (wipeLimitKey auth.userId) WIPE_WINDOW_SECONDS), cs) := by
  have full : WIPE_MAX ≤ (recent s ("wipe:" ++ auth.userId.display) WIPE_WINDOW_SECONDS).length :=
    Nat.not_lt.mp full
  unfold issueWipe
  rw [execRest_run_bind, checkRateLimit, atomically, execRest_lift, execRest_act, if_pos full]
  exact execRest_run_throw cs _ _

end

/-- Both requests are rejected, or both have stored the wipe for the same devices, of which there
is one at least. -/
def WipesAgree (chrono : Chrono) (request : WipeRequest) (s : Server)
    (rest : Except HysjError WipeStatusResponse × Server)
    (ws : Except String Unit × Server) : Prop :=
  (∃ e e', rest.1 = .error e ∧ ws.1 = .error e') ∨
    (∃ response, rest.1 = .ok response) ∧ ws.1 = .ok () ∧ ∃ id id' devices devices',
      devices ≠ [] ∧ (∀ d, d ∈ devices ↔ d ∈ devices') ∧
        Stores chrono id request devices s rest.2 ∧ Stores chrono id' request devices' s ws.2

/-- A SET fails in both, or the limiter has room, the fields are there, no look-up fails and a
device is found. -/
def WipesAligned (s : Server) (cs : List Chance) (user : Uuid) (request : WipeRequest) : Prop :=
  SetFails (cs.drop (lookUps user request).length) (wsFound s cs user request).length ∨
    WipeRoom s user ∧ FieldsNamed request ∧
      (∀ c ∈ cs.take (lookUps user request).length, c.fault = none) ∧
        wsFound s cs user request ≠ []

section

variable {s : Server} {cs : List Chance} {c : Chance} {sender : Uuid} {request : WipeRequest}
variable {chrono : Chrono} {auth : AuthUser}
variable {rest : Except HysjError WipeStatusResponse × Server} {ws : Except String Unit × Server}

/-- The WebSocket rejects a wipe only if a SET fails, and stores it for what it has found. -/
theorem wsWipe_of_exec
    (ran : exec cs (wipeCommand chrono auth.userId sender request).run s = some ws) :
    (lookUps auth.userId request).length ≤ cs.length ∧
      ((∃ e, ws.1 = .error e) ↔ SetFails (cs.drop (lookUps auth.userId request).length)
        (wsFound s cs auth.userId request).length) ∧
      (ws.1 = .ok () → ∃ id,
      Stores chrono id request (wsFound s cs auth.userId request) s ws.2) := by
  rw [exec_eq] at ran
  obtain ⟨⟨result, s', left⟩, whole, rfl⟩ := Option.map_eq_some_iff.mp ran
  rw [wipeCommand_eq, execRest_run_bind, execRest_wipeTargets] at whole
  split at whole
  · rename_i enough
    obtain ⟨outcome, left', stores, errors⟩ := execRest_storing
      (fun _ => sameRedis_sendToEach.lift) (fun _ => succeeds_lift _) whole
    obtain ⟨failed, all⟩ := execRest_issueWipe stores
    refine ⟨enough, errors.trans failed, fun is => all ?_⟩
    cases outcome with
    | ok wipeId => exact ⟨wipeId, rfl⟩
    | error e =>
        obtain ⟨e', other⟩ := errors.mpr ⟨e, rfl⟩
        dsimp only at is
        rw [other] at is
        cases is
  · cases whole

/-- The endpoint rejects a wipe also if the limiter is full, a field is missing, a look-up fails or
no device is found. -/
theorem restWipe_of_exec (enough : (lookUps auth.userId request).length ≤ cs.length)
    (ran : exec (c :: cs) (issueWipe chrono auth request).run s = some rest) :
    (∃ e, rest.1 = .error e) ∧ (¬ (WipeRoom s auth.userId ∧ FieldsNamed request ∧
        (∀ c ∈ cs.take (lookUps auth.userId request).length, c.fault = none) ∧
          wsFound s cs auth.userId request ≠ []) ∨
      SetFails (cs.drop (lookUps auth.userId request).length)
        (wsFound s cs auth.userId request).length) ∨
    (∃ response, rest.1 = .ok response) ∧ (WipeRoom s auth.userId ∧ FieldsNamed request ∧
        (∀ c ∈ cs.take (lookUps auth.userId request).length, c.fault = none) ∧
          wsFound s cs auth.userId request ≠ []) ∧
      ¬ SetFails (cs.drop (lookUps auth.userId request).length)
        (wsFound s cs auth.userId request).length ∧
      ∃ id, Stores chrono id request (wsFound s cs auth.userId request) s rest.2 := by
  rw [exec_eq] at ran
  obtain ⟨⟨result, s', left⟩, whole, rfl⟩ := Option.map_eq_some_iff.mp ran
  by_cases room : WipeRoom s auth.userId
  swap
  · rw [execRest_restWipe_of_full c room] at whole
    obtain ⟨rfl, -⟩ := Prod.mk.inj (Option.some.inj whole)
    exact Or.inl ⟨⟨_, rfl⟩, Or.inl fun met => room met.1⟩
  rw [execRest_restWipe_of_room c room] at whole
  rcases @execRest_issueTargets (s.limited auth.userId
    (recent s (wipeLimitKey auth.userId) WIPE_WINDOW_SECONDS ++ [s.redis.now]))
    cs auth.userId request
      enough with ⟨⟨named, clean⟩, finds⟩ | ⟨refused, e, m, left', fails⟩
  swap
  · rw [fails] at whole
    obtain ⟨rfl, -⟩ := Prod.mk.inj (Option.some.inj whole)
    exact Or.inl ⟨⟨_, rfl⟩, Or.inl fun met => refused ⟨met.2.1, met.2.2.1⟩⟩
  rw [finds] at whole
  have same : wsFound (s.limited auth.userId
      (recent s (wipeLimitKey auth.userId) WIPE_WINDOW_SECONDS ++ [s.redis.now])) cs auth.userId
        request = wsFound s cs auth.userId request := rfl
  rw [same] at whole
  dsimp only [Option.bind, thenRun] at whole
  by_cases empty : wsFound s cs auth.userId request = []
  · rw [if_pos empty, execRest_run_throw] at whole
    obtain ⟨rfl, -⟩ := Prod.mk.inj (Option.some.inj whole)
    exact Or.inl ⟨⟨_, rfl⟩, Or.inl fun met => met.2.2.2 empty⟩
  · rw [if_neg empty] at whole
    obtain ⟨outcome, left', stores, errors⟩ := execRest_storing keeps_tail_issueFor
      (fun _ => (succeeds_lift _).bind fun _ => succeeds_pure _) whole
    obtain ⟨failed, all⟩ := execRest_issueWipe stores
    cases outcome with
    | error e =>
        exact Or.inl ⟨errors.mpr ⟨e, rfl⟩, Or.inr (failed.mp ⟨e, rfl⟩)⟩
    | ok wipeId =>
        have done : ¬ ∃ e, result = .error e := by
          intro error
          obtain ⟨e, other⟩ := errors.mp error
          cases other
        refine Or.inr ⟨?_, ⟨room, named, clean, empty⟩, fun fails => ?_, all ⟨wipeId, rfl⟩⟩
        · cases result with
          | ok response => exact ⟨response, rfl⟩
          | error e => exact absurd ⟨e, rfl⟩ done
        · exact done (errors.mpr (failed.mpr fails))

theorem wipesAgree_iff
    (ranRest : exec (c :: cs) (issueWipe chrono auth request).run s = some rest)
    (ranWs : exec cs (wipeCommand chrono auth.userId sender request).run s = some ws) :
    WipesAgree chrono request s rest ws ↔ WipesAligned s cs auth.userId request := by
  obtain ⟨enough, wsErrors, wsStores⟩ := wsWipe_of_exec ranWs
  have outcome : (∃ e, ws.1 = .error e) ∨ ws.1 = .ok () := by
    cases ws.1 with
    | error e => exact Or.inl ⟨e, rfl⟩
    | ok _ => exact Or.inr rfl
  unfold WipesAgree WipesAligned
  rcases restWipe_of_exec enough ranRest with ⟨⟨e, rejected⟩, why⟩ | ⟨accepted, met, sets, stores⟩
  · constructor
    · rintro (⟨-, e', -, wsRejected⟩ | ⟨⟨response, other⟩, -⟩)
      · exact Or.inl (wsErrors.mp ⟨e', wsRejected⟩)
      · rw [rejected] at other
        cases other
    · intro aligned
      have fails : SetFails (cs.drop (lookUps auth.userId request).length)
          (wsFound s cs auth.userId request).length := by
        rcases aligned with fails | met
        · exact fails
        · exact why.resolve_left (not_not.mpr met)
      obtain ⟨e', wsRejected⟩ := wsErrors.mpr fails
      exact Or.inl ⟨e, e', rejected, wsRejected⟩
  · have wsAccepted : ws.1 = .ok () := outcome.resolve_left fun error => sets (wsErrors.mp error)
    obtain ⟨id, restStores⟩ := stores
    obtain ⟨id', wsStored⟩ := wsStores wsAccepted
    refine iff_of_true (Or.inr ⟨accepted, wsAccepted, ?_⟩) (Or.inr met)
    exact ⟨id, id', _, _, met.2.2.2, fun _ => Iff.rfl, restStores, wsStored⟩

end

/-- The horizon of the limiter's clean-up. -/
def CLEANUP_MAX_AGE : Nat := 60 * 60

/-- A wipe that one user issues by either way, under decisions given in advance, a clean-up of the
limiter, or something else. -/
inductive WipeEvent where
  | issue (cs : List Chance) (request : WipeRequest) (result : Except HysjError WipeStatusResponse)
  | command (cs : List Chance) (sender : Uuid) (request : WipeRequest) (result : Except String Unit)
  | cleanup
  | other

/-- What else happens takes time and leaves the limiter's timestamps of the user's wipes. -/
def WipeStep (chrono : Chrono) (auth : AuthUser) (s : Server) : WipeEvent → Server → Prop
  | .issue cs request result, s' =>
      exec cs (issueWipe chrono auth request).run s = some (result, s')
  | .command cs sender request result, s' =>
      exec cs (wipeCommand chrono auth.userId sender request).run s = some (result, s')
  | .cleanup, s' => s' =
      { s with rateLimiter := fun key => within CLEANUP_MAX_AGE s.redis.now (s.rateLimiter key) }
  | .other, s' => s.redis.now ≤ s'.redis.now ∧
      s'.rateLimiter (wipeLimitKey auth.userId) = s.rateLimiter (wipeLimitKey auth.userId)

/-- The event is a wipe of the user. -/
def WipeEvent.IsWipe : WipeEvent → Prop
  | .issue _ _ _ | .command _ _ _ _ => True
  | _ => False

/-- A wipe that has changed what is pending for some device. -/
def TakesEffect (s : Server) (e : WipeEvent) (s' : Server) : Prop :=
  e.IsWipe ∧ ∃ d wipeId, s'.redis.peek (wipeKey d wipeId) ≠ s.redis.peek (wipeKey d wipeId)

/-- A wipe by WebSocket finds no device, or its first SET fails. -/
def WsIdle (auth : AuthUser) (s : Server) : WipeEvent → Prop
  | .command cs _ request _ => wsFound s cs auth.userId request = [] ∨
      ∃ c, (cs.drop ((lookUps auth.userId request).length + 2)).head? = some c ∧ c.fault ≠ none
  | _ => True

abbrev WipeSteps := List (Server × WipeEvent × Server)

/-- No window of the limiter's length holds more wipes that took effect than the limit. -/
def WipesLimited (steps : WipeSteps) : Prop :=
  ∀ (start : Nat) (chosen : WipeSteps),
    chosen.Sublist steps → (∀ x ∈ chosen, TakesEffect x.1 x.2.1 x.2.2 ∧
      start ≤ x.1.redis.now ∧ x.1.redis.now < start + WIPE_WINDOW_SECONDS) →
    chosen.length ≤ WIPE_MAX

section

variable {chrono : Chrono} {auth : AuthUser} {s s' : Server} {e : WipeEvent} {cs : List Chance}
variable {request : WipeRequest}

/-- The limiter's timestamps and the time are left alone. -/
def SameLimits (s s' : Server) : Prop :=
  s'.rateLimiter = s.rateLimiter ∧ s'.redis.now = s.redis.now

theorem sameLimits_refl (s : Server) : SameLimits s s := ⟨rfl, rfl⟩

theorem SameLimits.trans {m : Server} (first : SameLimits s m) (second : SameLimits m s') :
    SameLimits s s' := ⟨second.1.trans first.1, second.2.trans first.2⟩

theorem sameLimits_of_effects {α : Type} {t : Program Chance Server α}
    (effects : Effects (fun e => ∀ key times, e ≠ .limit key times) t) : Keeps SameLimits t := by
  refine effects.mono fun s s' does => ?_
  rcases does with rfl | ⟨effect, allowed, rfl⟩
  · exact sameLimits_refl _
  · cases effect with
    | send d text =>
        simp only [Effect.apply]
        split
        · exact sameLimits_refl _
        · split <;> exact ⟨rfl, rfl⟩
    | disconnect d => exact ⟨rfl, rfl⟩
    | push request => exact ⟨rfl, rfl⟩
    | pins rows => exact ⟨rfl, rfl⟩
    | limit key times => exact absurd rfl (allowed key times)
    | store change =>
        refine ⟨rfl, ?_⟩
        cases change with
        | set key value ttl => rfl
        | del key => rfl
        | expire key ttl => exact Store.now_expire ttl

theorem sameLimits_storing {ε : Type} {f : MessagingError → ε} {targets : List Uuid} :
    Keeps SameLimits (ExceptT.adapt f (onRedis (Messaging.issueWipe chrono targets request))).run :=
  Keeps.adapt (sameLimits_of_effects (effects_onRedis (changes_issueWipe fun _ _ _ _ _ _ => nofun)))

theorem sameLimits_sendToEach {ds : List Uuid} {message : WsMessage} :
    Keeps SameLimits (sendToEach ds message) :=
  sameLimits_of_effects (effects_sendToEach fun _ _ => ⟨fun _ _ => nofun, fun _ _ => nofun⟩)

theorem sameLimits_wipeCommand {user sender : Uuid} :
    Keeps SameLimits (wipeCommand chrono user sender request).run := by
  refine Keeps.run_bind (sameLimits_of_effects effects_wipeTargets) fun targets => ?_
  exact Keeps.run_bind sameLimits_storing fun _ => sameLimits_sendToEach.lift

theorem sameLimits_issueTargets {user : Uuid} :
    Keeps SameLimits (issueTargets user request).run := by
  have reads {u : Uuid} : Keeps SameLimits (query fun _ => Db.listByUser u).run :=
    keeps_query sameLimits_refl fun _ => ⟨rfl, rfl⟩
  unfold issueTargets
  split
  · exact Keeps.run_bind reads.adapt fun _ => keeps_pure _
  · split
    · exact keeps_pure _
    · exact keeps_pure _
  · split
    · exact keeps_pure _
    · refine Keeps.run_bind reads.adapt fun _ => ?_
      exact Keeps.run_bind reads.adapt fun _ => keeps_pure _

theorem sameLimits_afterLimiter : Keeps SameLimits (do
    let targets ← issueTargets auth.userId request
    if targets = [] then throw (.validationError "No target devices found")
    else issueFor chrono request targets : Task HysjError WipeStatusResponse).run := by
  refine Keeps.run_bind sameLimits_issueTargets fun targets => ?_
  split
  · exact keeps_pure _
  · refine Keeps.run_bind sameLimits_storing fun _ => ?_
    exact Keeps.run_bind sameLimits_sendToEach.lift fun _ => keeps_pure _

/-- The limiter lets a wipe pass and notes its time, or rejects it, and then nothing is stored. -/
theorem limits_of_restWipe {result : Except HysjError WipeStatusResponse}
    (ran : exec cs (issueWipe chrono auth request).run s = some (result, s')) :
    s'.redis.now = s.redis.now ∧
      (WipeRoom s auth.userId ∧ s'.rateLimiter (wipeLimitKey auth.userId) =
          recent s (wipeLimitKey auth.userId) WIPE_WINDOW_SECONDS ++ [s.redis.now] ∨
        s'.redis = s.redis ∧ s'.rateLimiter (wipeLimitKey auth.userId) =
          recent s (wipeLimitKey auth.userId) WIPE_WINDOW_SECONDS) := by
  cases cs with
  | nil => cases ran
  | cons c cs =>
      rw [exec_eq] at ran
      obtain ⟨⟨result', m, left⟩, whole, same⟩ := Option.map_eq_some_iff.mp ran
      obtain ⟨rfl, rfl⟩ := Prod.mk.inj same
      by_cases room : WipeRoom s auth.userId
      · rw [execRest_restWipe_of_room c room, ← execRest_run_bind] at whole
        obtain ⟨limits, time⟩ :=
          (runs_of_execRest whole).keeps sameLimits_afterLimiter sameLimits_refl
          fun _ _ _ => SameLimits.trans
        refine ⟨time, Or.inl ⟨room, ?_⟩⟩
        dsimp only
        rw [limits]
        exact Function.update_self _ _ _
      · rw [execRest_restWipe_of_full c room] at whole
        obtain ⟨-, rest⟩ := Prod.mk.inj (Option.some.inj whole)
        obtain ⟨rfl, -⟩ := Prod.mk.inj rest
        exact ⟨rfl, Or.inr ⟨rfl, Function.update_self _ _ _⟩⟩

/-- A wipe by WebSocket that finds no device, or whose first SET fails, stores nothing. -/
theorem sameRedis_of_wsIdle {sender : Uuid} {result : Except String Unit}
    (ran : exec cs (wipeCommand chrono auth.userId sender request).run s = some (result, s'))
    (idle : WsIdle auth s (.command cs sender request result)) : s'.redis = s.redis := by
  rw [exec_eq] at ran
  obtain ⟨⟨result', m, left⟩, whole, same⟩ := Option.map_eq_some_iff.mp ran
  obtain ⟨rfl, rfl⟩ := Prod.mk.inj same
  rw [wipeCommand_eq, execRest_run_bind, execRest_wipeTargets] at whole
  split at whole
  · obtain ⟨outcome, left', stores, -⟩ := execRest_storing
      (fun _ => sameRedis_sendToEach.lift) (fun _ => succeeds_lift _) whole
    obtain ⟨c, c', rest, stored, split, sets, -⟩ := execRest_issueWipe_cases stores
    refine execRest_storeEntries_idle sets (idle.imp_right ?_)
    rw [← List.drop_drop, split]
    exact fun first => first
  · cases whole

/-- The limiter's timestamps show every later window what the history does, the history keeps to
the limit, and every wipe that took effect is in it. -/
structure WipesLogged (auth : AuthUser) (history : List Nat) (steps : WipeSteps)
    (s : Server) : Prop where
  tracks : Tracks WIPE_WINDOW_SECONDS s.redis.now history (s.rateLimiter (wipeLimitKey auth.userId))
  sparse : Sparse WIPE_MAX WIPE_WINDOW_SECONDS history
  effective : ∀ chosen : WipeSteps, chosen.Sublist steps →
    (∀ x ∈ chosen, TakesEffect x.1 x.2.1 x.2.2) →
      (chosen.map fun x => x.1.redis.now).Sublist history

section

variable {history : List Nat} {steps : WipeSteps}

theorem WipesLogged.skip (logged : WipesLogged auth history steps s) (idle : ¬ TakesEffect s e s')
    (tracks : Tracks WIPE_WINDOW_SECONDS s'.redis.now history
      (s'.rateLimiter (wipeLimitKey auth.userId))) :
    WipesLogged auth history (steps ++ [(s, e, s')]) s' := by
  refine ⟨tracks, logged.sparse, fun chosen inside effective => ?_⟩
  obtain ⟨before, last, rfl, old, new⟩ := List.sublist_append_iff.mp inside
  rcases List.sublist_singleton.mp new with rfl | rfl
  · rw [List.append_nil] at effective ⊢
    exact logged.effective before old effective
  · exact absurd (effective _ (List.mem_append_right _ List.mem_cons_self)) idle

theorem WipesLogged.enter (logged : WipesLogged auth history steps s)
    (room : WipeRoom s auth.userId) (time : s'.redis.now = s.redis.now)
    (noted : s'.rateLimiter (wipeLimitKey auth.userId) =
      recent s (wipeLimitKey auth.userId) WIPE_WINDOW_SECONDS ++ [s.redis.now]) :
    WipesLogged auth (history ++ [s.redis.now]) (steps ++ [(s, e, s')]) s' := by
  have pruned := logged.tracks.prune (Nat.le_refl WIPE_WINDOW_SECONDS) (Nat.le_refl s.redis.now)
  constructor
  · rw [time, noted]
    exact pruned.push s.redis.now
  · apply logged.sparse.push
    rw [← logged.tracks s.redis.now (Nat.le_refl _)]
    exact room
  · intro chosen inside effective
    obtain ⟨before, last, rfl, old, new⟩ := List.sublist_append_iff.mp inside
    rw [List.map_append]
    refine List.Sublist.append (logged.effective before old fun x member => ?_) ?_
    · exact effective x (List.mem_append_left _ member)
    · exact new.map fun x : Server × WipeEvent × Server => x.1.redis.now

theorem not_takesEffect_of_redis (same : s'.redis = s.redis) : ¬ TakesEffect s e s' := by
  rintro ⟨-, d, wipeId, differs⟩
  rw [same] at differs
  exact differs rfl

theorem WipesLogged.step (logged : WipesLogged auth history steps s)
    (taken : WipeStep chrono auth s e s') (idle : WsIdle auth s e) :
    ∃ history', WipesLogged auth history' (steps ++ [(s, e, s')]) s' := by
  cases e with
  | issue cs request result =>
      obtain ⟨time, ⟨room, noted⟩ | ⟨same, pruned⟩⟩ := limits_of_restWipe taken
      · exact ⟨_, logged.enter room time noted⟩
      · refine ⟨history, logged.skip (not_takesEffect_of_redis same) ?_⟩
        rw [time, pruned]
        exact logged.tracks.prune (Nat.le_refl _) (Nat.le_refl _)
  | command cs sender request result =>
      have same := sameRedis_of_wsIdle taken idle
      have ran : Runs (fun _ _ => True) _ s result s' := runs_of_exec (fun _ _ _ => trivial) taken
      obtain ⟨limits, time⟩ := ran.keeps sameLimits_wipeCommand sameLimits_refl
        fun _ _ _ => SameLimits.trans
      refine ⟨history, logged.skip (not_takesEffect_of_redis same) ?_⟩
      rw [time, limits]
      exact logged.tracks
  | cleanup =>
      obtain rfl : s' = _ := taken
      refine ⟨history, logged.skip (fun effect => effect.1) ?_⟩
      exact logged.tracks.prune (by decide) (Nat.le_refl _)
  | other =>
      obtain ⟨elapsed, same⟩ := taken
      refine ⟨history, logged.skip (fun effect => effect.1) ?_⟩
      rw [same]
      exact logged.tracks.mono elapsed

theorem WipesLogged.limited (logged : WipesLogged auth history steps s) : WipesLimited steps := by
  intro start chosen inside within_
  have entered := logged.effective chosen inside fun x member => (within_ x member).1
  have seen : (chosen.map fun x => x.1.redis.now).Sublist
      (starting WIPE_WINDOW_SECONDS start history) := by
    have filtered := entered.filter fun t => start ≤ t && t < start + WIPE_WINDOW_SECONDS
    rw [List.filter_eq_self.mpr] at filtered
    · exact filtered
    · intro t member
      obtain ⟨x, there, rfl⟩ := List.mem_map.mp member
      simp [(within_ x there).2]
  have bounded := Nat.le_trans seen.length_le (logged.sparse start)
  rw [List.length_map] at bounded
  exact bounded

theorem wipesLogged_of_trail {first last : Server}
    (trail : Trail (WipeStep chrono auth) first steps last)
    (fresh : first.rateLimiter (wipeLimitKey auth.userId) = [])
    (idle : ∀ x ∈ steps, WsIdle auth x.1 x.2.1) :
    ∃ history, WipesLogged auth history steps last := by
  induction trail with
  | start =>
      refine ⟨[], ?_, sparse_nil _ _, fun chosen inside _ => ?_⟩
      · rw [fresh]
        exact Tracks.refl _ _ _
      · rw [List.sublist_nil.mp inside]
        exact List.Sublist.refl _
  | @next steps s s' e before taken ih =>
      obtain ⟨history, logged⟩ := ih fun x member => idle x (List.mem_append_left _ member)
      exact logged.step taken (idle (s, e, s') (List.mem_append_right _ List.mem_cons_self))

end

end

/-- The endpoint and the WebSocket agree on a wipe exactly if they are aligned, and in every run in
which no wipe by WebSocket stores anything the wipes of a user keep to the limit. -/
theorem wipe_entries (chrono : Chrono) (auth : AuthUser) :
    (∀ (s : Server) (request : WipeRequest) (sender : Uuid) (c : Chance) (cs : List Chance)
        (rest : Except HysjError WipeStatusResponse × Server) (ws : Except String Unit × Server),
      exec (c :: cs) (issueWipe chrono auth request).run s = some rest →
      exec cs (wipeCommand chrono auth.userId sender request).run s = some ws →
      (WipesAgree chrono request s rest ws ↔ WipesAligned s cs auth.userId request)) ∧
    ∀ (first last : Server) (steps : WipeSteps), Trail (WipeStep chrono auth) first steps last →
      first.rateLimiter (wipeLimitKey auth.userId) = [] → (∀ x ∈ steps, WsIdle auth x.1 x.2.1) →
      WipesLimited steps := by
  constructor
  · intro s request sender c cs rest ws ranRest ranWs
    exact wipesAgree_iff ranRest ranWs
  · intro first last steps trail fresh idle
    obtain ⟨history, logged⟩ := wipesLogged_of_trail trail fresh idle
    exact logged.limited

/-- A user with one device, with these timestamps of wipes. -/
def phoneServer (wipes : List Nat) : Server :=
  { Server.start 0 { devices := [.sample (.replicate 16 1) (.replicate 16 2)] } with
    rateLimiter := fun _ => wipes }

def phoneUser : AuthUser := ⟨.replicate 16 2, .replicate 16 1, "alice"⟩

/-- A wipe of that device. -/
def phoneWipe : WipeRequest := ⟨.device, some (.replicate 16 1), none⟩

theorem exec_phoneWipe (s : Server) (id : Uuid) :
    exec [{ uuid := id }, {}, {}]
      (wipeCommand .sample (.replicate 16 2) (.replicate 16 1) phoneWipe).run s =
        some (.ok (), wiped .sample s phoneWipe (.replicate 16 1) id) := rfl

/-- The device issues a wipe for each of the identifiers, one after the other. -/
def phoneIssues (ids : List Uuid) (s : Server) : Option Server :=
  ids.foldlM (fun s id => (exec [{ uuid := id }, {}, {}, {}, {}]
    (issueWipe .sample phoneUser phoneWipe).run s).map Prod.snd) s

theorem trail_of_phoneIssues {ids : List Uuid} {first s last : Server} {steps : WipeSteps}
    (trail : Trail (WipeStep .sample phoneUser) first steps s)
    (idle : ∀ x ∈ steps, WsIdle phoneUser x.1 x.2.1) (ran : phoneIssues ids s = some last) :
    ∃ steps', Trail (WipeStep .sample phoneUser) first steps' last ∧
      (∀ x ∈ steps', WsIdle phoneUser x.1 x.2.1) ∧ steps'.length = steps.length + ids.length := by
  induction ids generalizing s steps with
  | nil =>
      obtain rfl := Option.some.inj ran
      exact ⟨steps, trail, idle, rfl⟩
  | cons id ids ih =>
      obtain ⟨s', one, others⟩ := Option.bind_eq_some_iff.mp ran
      obtain ⟨⟨result, s'⟩, issued, rfl⟩ := Option.map_eq_some_iff.mp one
      have taken : WipeStep .sample phoneUser s (.issue _ phoneWipe result) s' := issued
      obtain ⟨steps', trail', idle', length⟩ := ih (trail.next taken) (fun x member => by
        rcases List.mem_append.mp member with before | last
        · exact idle x before
        · rw [List.mem_singleton.mp last]
          trivial) others
      refine ⟨steps', trail', idle', ?_⟩
      rw [length, List.length_append, List.length_singleton, List.length_cons]
      omega

/-- A wipe that is issued by either way; and of four that the endpoint is asked for three are within
the limit. -/
theorem wipe_entries_phone : ∃ rest ws,
    exec [{}, {}, {}, {}, {}] (issueWipe .sample phoneUser phoneWipe).run
    (phoneServer []) = some rest ∧
      exec [{}, {}, {}, {}] (wipeCommand .sample phoneUser.userId (.replicate 16 1) phoneWipe).run
        (phoneServer []) = some ws ∧
      WipesAgree .sample phoneWipe (phoneServer []) rest ws ∧
      ∃ steps last, Trail (WipeStep .sample phoneUser) (phoneServer []) steps last ∧
        steps.length = 4 ∧ (last.rateLimiter (wipeLimitKey phoneUser.userId)).length = 3 ∧
        WipesLimited steps := by
  obtain ⟨rest, ranRest⟩ := Option.isSome_iff_exists.mp
    (show (exec [{}, {}, {}, {}, {}] (issueWipe .sample phoneUser phoneWipe).run
      (phoneServer [])).isSome by decide +kernel)
  obtain ⟨ws, ranWs⟩ := Option.isSome_iff_exists.mp
    (show (exec [{}, {}, {}, {}]
      (wipeCommand .sample phoneUser.userId (.replicate 16 1) phoneWipe).run
      (phoneServer [])).isSome by decide +kernel)
  have aligned : WipesAligned (phoneServer []) [{}, {}, {}, {}] phoneUser.userId phoneWipe :=
    Or.inr ⟨show 0 < 3 by decide, Option.some_ne_none _, by simp [lookUps, phoneWipe],
      List.cons_ne_nil _ _⟩
  have four : (phoneIssues [.replicate 16 1, .replicate 16 2, .replicate 16 3, .replicate 16 4]
      (phoneServer [])).any
        (fun s => (s.rateLimiter (wipeLimitKey phoneUser.userId)).length = 3) = true := by
    decide +kernel
  obtain ⟨last, ran, limit⟩ := (Option.any_eq_true _ _).mp four
  obtain ⟨steps, trail, idle, length⟩ := trail_of_phoneIssues .start (List.forall_mem_nil _) ran
  refine ⟨rest, ws, ranRest, ranWs, ?_, steps, last, trail, length, of_decide_eq_true limit, ?_⟩
  · exact ((wipe_entries .sample phoneUser).1 _ _ _ _ _ _ _ ranRest ranWs).mpr aligned
  · exact (wipe_entries .sample phoneUser).2 _ _ _ trail rfl idle

theorem peek_wiped (s : Server) (request : WipeRequest) (d id : Uuid) :
    (wiped .sample s request d id).redis.peek (wipeKey d id.display) ≠ none := by
  have lasts : ∀ n ∈ some WIPE_TTL_SECONDS.toNat, 0 < n := by
    rintro _ ⟨⟩
    decide
  show (Store.set _ _ _ _).peek _ ≠ none
  rw [Store.peek_set lasts]
  exact Option.some_ne_none _

theorem takesEffect_wiped {s : Server} {cs : List Chance} {sender d id : Uuid}
    {request : WipeRequest} {result : Except String Unit}
    (free : s.redis.peek (wipeKey d id.display) = none) :
    TakesEffect s (.command cs sender request result) (wiped .sample s request d id) :=
  ⟨trivial, d, id.display, by rw [free]; exact peek_wiped s request d id⟩

/-- After three wipes in the hour the endpoint rejects another one, but the WebSocket stores it; and
by WebSocket four wipes in the hour take effect. -/
theorem wipe_entries_differ :
    (∃ rest ws, exec [{}, {}, {}, {}, {}] (issueWipe .sample phoneUser phoneWipe).run
        (phoneServer [0, 0, 0]) = some rest ∧
      exec [{}, {}, {}, {}] (wipeCommand .sample phoneUser.userId (.replicate 16 1) phoneWipe).run
        (phoneServer [0, 0, 0]) = some ws ∧
      ¬ WipesAgree .sample phoneWipe (phoneServer [0, 0, 0]) rest ws) ∧
    ∃ steps last, Trail (WipeStep .sample phoneUser) (phoneServer []) steps last ∧
      ¬ WipesLimited steps := by
  constructor
  · obtain ⟨rest, ranRest⟩ := Option.isSome_iff_exists.mp
      (show (exec [{}, {}, {}, {}, {}] (issueWipe .sample phoneUser phoneWipe).run
        (phoneServer [0, 0, 0])).isSome by decide +kernel)
    obtain ⟨ws, ranWs⟩ := Option.isSome_iff_exists.mp
      (show (exec [{}, {}, {}, {}] (wipeCommand .sample phoneUser.userId (.replicate 16 1)
        phoneWipe).run (phoneServer [0, 0, 0])).isSome by decide +kernel)
    refine ⟨rest, ws, ranRest, ranWs, fun agree => ?_⟩
    have clean : ¬ SetFails (List.drop (lookUps phoneUser.userId phoneWipe).length
        [({} : Chance), {}, {}, {}]) (wsFound (phoneServer [0, 0, 0]) [{}, {}, {}, {}]
          phoneUser.userId phoneWipe).length := by
      simp [SetFails, lookUps, wsFound, phoneWipe]
    have room := (((wipesAgree_iff ranRest ranWs).mp agree).resolve_left clean).1
    exact Nat.lt_irrefl 3 room
  · have step (s : Server) (id : Uuid) : WipeStep .sample phoneUser s
        (.command [{ uuid := id }, {}, {}] (.replicate 16 1) phoneWipe (.ok ()))
          (wiped .sample s phoneWipe (.replicate 16 1) id) := exec_phoneWipe s id
    refine ⟨_, _,
      ((((Trail.start.next (step _ (.replicate 16 1))).next (step _ (.replicate 16 2))).next
      (step _ (.replicate 16 3))).next (step _ (.replicate 16 4))), fun limited => ?_⟩
    have bounded := limited 0 _ (List.Sublist.refl _) ?_
    · exact absurd bounded (by decide)
    · simp only [List.mem_append, List.mem_singleton, List.not_mem_nil, false_or]
      rintro x (((rfl | rfl) | rfl) | rfl)
      all_goals
        exact ⟨takesEffect_wiped rfl, Nat.le_refl 0, show 0 < 0 + WIPE_WINDOW_SECONDS by decide⟩

end Hysj.Api
