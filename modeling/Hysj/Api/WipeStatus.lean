import Hysj.Api.Tokens
import Hysj.Api.Wipe

set_option autoImplicit false

/- What the status of a wipe says, and what has become of the wipe. -/
namespace Hysj.Api

open Crypto Shared Auth Messaging Program

section

variable (serde : SerdeJson) (chrono : Chrono)

/-- A pending wipe of the device has the id. -/
def Awaits (r : Redis) (wipeId : String) (d : Uuid) : Prop :=
  ∃ id wipe, storedWipe serde chrono r (wipeKey d id) = some wipe ∧ wipe.wipeId = wipeId

end

section

variable {serde : SerdeJson} {chrono : Chrono} {pages : Nat} {wipeId : String} {s s' : Server}
  {auth : AuthUser} {response : WipeStatusResponse}

theorem sure_onRedis {α : Type} {t : Command α} (sure : Sure Clean t) : Sure Clean (onRedis t) := by
  intro s a s' run
  obtain ⟨r, ran, rfl⟩ := (@runs_zoom Chance Server Redis (Except MessagingError α) Server.redis
    (fun r s => { s with redis := r }) (fun _ _ => rfl) (fun _ => rfl) (fun _ _ _ => rfl)
    (fun _ _ => True) t.run s s' (.ok a)).mp run
  exact runs_onRedis.mpr ⟨r, sure _ _ _ ran, rfl⟩

theorem sure_wipeStatuses (devices : List Db.Device) (pending confirmed : List Uuid) :
    Sure Clean (wipeStatuses serde chrono pages wipeId devices pending confirmed) := by
  induction devices generalizing pending confirmed with
  | nil => exact sure_pure _
  | cons device devices ih =>
      refine (sure_onRedis ?_).adapt.bind fun wipes => ?_
      · exact sure_scanLoop sure_pendingPage _ _ _
      · split
        · exact ih _ _
        · exact ih _ _

theorem runs_wipeStatuses {devices : List Db.Device} {pending confirmed : List Uuid}
    {result : List Uuid × List Uuid}
    (run : Runs Clean (wipeStatuses serde chrono pages wipeId devices pending confirmed).run s
      (.ok result) s') :
    (∀ d, d ∈ result.1 ↔ d ∈ pending ∨
      (∃ row ∈ devices, row.id = d) ∧ Awaits serde chrono s.redis wipeId d) ∧
    ∀ d, d ∈ result.2 ↔ d ∈ confirmed ∨
      (∃ row ∈ devices, row.id = d) ∧ ¬ Awaits serde chrono s.redis wipeId d := by
  induction devices generalizing pending confirmed s with
  | nil =>
      obtain ⟨same, -⟩ := runs_run_pure.mp run
      obtain rfl := Except.ok.inj same
      simp
  | cons device devices ih =>
      simp only [wipeStatuses, runs_run_bind_ok, runs_adapt_ok, runs_onRedis] at run
      obtain ⟨wipes, _, ⟨r, found, rfl⟩, rest⟩ := run
      obtain ⟨rfl, listed⟩ := runs_getPendingWipes found
      have awaits : (wipes.any fun wipe => wipe.wipeId = wipeId) = true ↔
          Awaits serde chrono s.redis wipeId device.id := by
        rw [List.any_eq_true]
        constructor
        · rintro ⟨wipe, member, is⟩
          obtain ⟨id, stored⟩ := (listed wipe).mp member
          exact ⟨id, wipe, stored, of_decide_eq_true is⟩
        · rintro ⟨id, wipe, stored, is⟩
          exact ⟨wipe, (listed wipe).mpr ⟨id, stored⟩, decide_eq_true is⟩
      split at rest
      · rename_i still
        have here := awaits.mp still
        obtain ⟨inPending, inConfirmed⟩ := ih rest
        constructor
        · intro d
          rw [inPending, List.mem_append, List.mem_singleton]
          by_cases is : d = device.id
          · subst is
            simp [here]
          · simp [is, Ne.symm is]
        · intro d
          rw [inConfirmed]
          by_cases is : d = device.id
          · subst is
            simp [here]
          · simp [Ne.symm is]
      · rename_i none_
        have here : ¬ Awaits serde chrono s.redis wipeId device.id :=
          fun is => none_ (awaits.mpr is)
        obtain ⟨inPending, inConfirmed⟩ := ih rest
        constructor
        · intro d
          rw [inPending]
          by_cases is : d = device.id
          · subst is
            simp [here]
          · simp [Ne.symm is]
        · intro d
          rw [inConfirmed, List.mem_append, List.mem_singleton]
          by_cases is : d = device.id
          · subst is
            simp [here]
          · simp [is, Ne.symm is]

theorem runs_wipeStatus
    (run : Runs Any (wipeStatus serde chrono pages auth wipeId).run s (.ok response) s') :
    (∀ d, d ∈ response.pendingDevices ↔
      s.Owns auth.userId d ∧ Awaits serde chrono s.redis wipeId d) ∧
    ∀ d, d ∈ response.confirmedDevices ↔
      s.Owns auth.userId d ∧ ¬ Awaits serde chrono s.redis wipeId d := by
  rw [wipeStatus, runs_run_bind_ok] at run
  obtain ⟨devices, _, found, rest⟩ := run
  obtain ⟨answer, rfl⟩ := runs_query_ok.mp (runs_adapt_ok.mp found)
  obtain rfl := Except.ok.inj answer
  rw [runs_run_bind_ok] at rest
  obtain ⟨result, _, told, rest⟩ := rest
  obtain ⟨same, rfl⟩ := runs_run_pure.mp rest
  obtain rfl := Except.ok.inj same
  have owns (d : Uuid) : (∃ row ∈ s.db.devices.filter fun row => row.userId = auth.userId,
      row.id = d) ↔ s.Owns auth.userId d := by
    apply exists_congr
    intro row
    simp only [List.mem_filter, decide_eq_true_eq, and_assoc]
    rw [and_comm (a := row.userId = auth.userId)]
  obtain ⟨pending, confirmed⟩ := runs_wipeStatuses (sure_wipeStatuses _ _ _ _ _ _ told)
  constructor
  · intro d
    rw [pending, owns]
    simp
  · intro d
    rw [confirmed, owns]
    simp

theorem getPendingWipes_answers (serde : SerdeJson) (chrono : Chrono) (d : Uuid) (r : Redis) :
    ∃ wipes r', Runs Clean (getPendingWipes serde chrono 1 d).run r (.ok wipes) r' := by
  have total : Total Clean (getPendingWipes serde chrono 1 d).run :=
    total_scanLoop total_pendingPage _ _
  have succeeds : Succeeds Clean (getPendingWipes serde chrono 1 d) :=
    succeeds_scanLoop succeeds_pendingPage _ _ _
  obtain ⟨outcome, r', run⟩ := total r
  obtain ⟨wipes, rfl⟩ := succeeds r outcome r' run
  exact ⟨wipes, r', run⟩

theorem wipeStatuses_answers (serde : SerdeJson) (chrono : Chrono) (wipeId : String)
    (devices : List Db.Device) (pending confirmed : List Uuid) (s : Server) :
    ∃ result s', Runs Clean (wipeStatuses serde chrono 1 wipeId devices pending confirmed).run s
      (.ok result) s' := by
  induction devices generalizing pending confirmed s with
  | nil => exact ⟨_, s, runs_run_pure.mpr ⟨rfl, rfl⟩⟩
  | cons device devices ih =>
      obtain ⟨wipes, r, found⟩ := getPendingWipes_answers serde chrono device.id s.redis
      simp only [wipeStatuses, runs_run_bind_ok, runs_adapt_ok, runs_onRedis]
      by_cases still : (wipes.any fun wipe => wipe.wipeId = wipeId) = true
      · obtain ⟨result, s', rest⟩ := ih (pending ++ [device.id]) confirmed { s with redis := r }
        refine ⟨result, s', wipes, _, ⟨r, found, rfl⟩, ?_⟩
        rw [if_pos still]
        exact rest
      · obtain ⟨result, s', rest⟩ := ih pending (confirmed ++ [device.id]) { s with redis := r }
        refine ⟨result, s', wipes, _, ⟨r, found, rfl⟩, ?_⟩
        rw [if_neg still]
        exact rest

theorem wipeStatus_answers (serde : SerdeJson) (chrono : Chrono) (s : Server) (auth : AuthUser)
    (wipeId : String) :
    ∃ response s', Runs Any (wipeStatus serde chrono 1 auth wipeId).run s (.ok response) s' := by
  obtain ⟨result, s', told⟩ := wipeStatuses_answers serde chrono wipeId
    (s.db.devices.filter fun row => row.userId = auth.userId) [] [] s
  refine ⟨⟨wipeId, result.1, result.2⟩, s', ?_⟩
  rw [wipeStatus, runs_run_bind_ok]
  refine ⟨_, s, runs_adapt_ok.mpr (runs_query_ok.mpr ⟨rfl, rfl⟩), ?_⟩
  rw [runs_run_bind_ok]
  exact ⟨result, s', told.mono fun _ _ _ => trivial, runs_run_pure.mpr ⟨rfl, rfl⟩⟩

end

section

variable (chrono : Chrono)

/-- What a wipe command does once its targets are found. -/
def spread (senderDeviceId : Uuid) (request : WipeRequest) (targets : List Uuid) :
    Task String Unit := do
  let _ ← ExceptT.adapt MessagingError.display
    (onRedis (Messaging.issueWipe chrono targets request))
  liftM (sendToEach (targets.filter fun d => d ≠ senderDeviceId) (.wipeCommand request))

theorem wipeCommand_eq (user sender : Uuid) (request : WipeRequest) :
    wipeCommand chrono user sender request = wipeTargets user request >>=
    spread chrono sender request :=
  rfl

/-- The entries of the wipe have been stored for the devices, and nothing else has changed in
Redis. -/
def Stores (id : Uuid) (request : WipeRequest) (devices : List Uuid) (s s' : Server) : Prop :=
  s'.redis = devices.foldl (fun r d => r.set (wipeKey d id.display)
    (Json.toVec (PendingWipe.toJson chrono ⟨id.display, request, s.redis.now⟩))
    (some WIPE_TTL_SECONDS.toNat)) s.redis

end

section

variable {chrono : Chrono} {id sender : Uuid} {request : WipeRequest} {targets : List Uuid}
  {s m s' : Server} {auth : AuthUser} {allowed : Chance → Server → Prop}

/-- A step that leaves Redis alone. -/
abbrev SameRedis (s s' : Server) : Prop := s'.redis = s.redis

theorem sameRedis_refl (s : Server) : SameRedis s s := rfl

theorem SameRedis.trans {s m s' : Server} (first : SameRedis s m) (second : SameRedis m s') :
    SameRedis s s' := Eq.trans second first

theorem sameRedis_sendToEach {ds : List Uuid} {message : WsMessage} :
    Keeps SameRedis (sendToEach ds message) := by
  have sends : Effects (fun e => (∃ d text, e = .send d text) ∨ ∃ d, e = .disconnect d)
      (sendToEach ds message) :=
    effects_sendToEach fun d _ => ⟨Or.inl ⟨d, _, rfl⟩, Or.inr ⟨d, rfl⟩⟩
  apply sends.mono
  intro s s' does
  rcases does with rfl | ⟨_, ⟨d, text, rfl⟩ | ⟨d, rfl⟩, rfl⟩
  · exact sameRedis_refl _
  · simp only [Effect.apply]
    split
    · exact sameRedis_refl _
    · split <;> exact sameRedis_refl _
  · exact sameRedis_refl _

theorem sameRedis_query {α : Type} {statement : Nat → Db.Statement α} :
    Keeps SameRedis (query statement).run := keeps_query sameRedis_refl fun _ => rfl

theorem sameRedis_issueTargets {user : Uuid} : Keeps SameRedis (issueTargets user request).run := by
  unfold issueTargets
  split
  · exact Keeps.run_bind sameRedis_query.adapt fun _ => keeps_pure _
  · split
    · exact keeps_pure _
    · exact keeps_pure _
  · split
    · exact keeps_pure _
    · refine Keeps.run_bind sameRedis_query.adapt fun _ => ?_
      exact Keeps.run_bind sameRedis_query.adapt fun _ => keeps_pure _

theorem Stores.of_sameRedis (same : SameRedis s s') : Stores chrono id request [] s s' := same

theorem Stores.before {stored : List Uuid} (same : SameRedis s m)
    (stores : Stores chrono id request stored m s') : Stores chrono id request stored s s' := by
  rw [Stores, same] at stores
  exact stores

theorem Stores.after {stored : List Uuid} (stores : Stores chrono id request stored s m)
    (same : SameRedis m s') : Stores chrono id request stored s s' := Eq.trans same stores

theorem runs_onRedis_draws {α : Type} {t : Command α} {result : Except MessagingError α}
    (run : Runs (Draws id) (onRedis t).run s result s') :
    ∃ r, Runs (Draws id) t.run s.redis result r ∧ s'.redis = r := by
  obtain ⟨r, ran, rfl⟩ := (@runs_zoom Chance Server Redis (Except MessagingError α) Server.redis
    (fun r s => { s with redis := r }) (fun _ _ => rfl) (fun _ => rfl) (fun _ _ _ => rfl)
    (Draws id) t.run s s' result).mp run
  exact ⟨r, ran, rfl⟩

theorem runs_storing {ε : Type} {f : MessagingError → ε} {result : Except ε String}
    (run : Runs (Draws id)
      (ExceptT.adapt f (onRedis (Messaging.issueWipe chrono targets request))).run s result s') :
    ∃ stored, Stores chrono id request stored s s' ∧
      ∀ wipeId, result = .ok wipeId → wipeId = id.display ∧ stored = targets := by
  obtain ⟨outcome, ran, rfl⟩ := runs_adapt.mp run
  obtain ⟨r, ran, same⟩ := runs_onRedis_draws ran
  obtain ⟨stored, stores, all⟩ := runs_issueWipe_draws ran
  refine ⟨stored, same.trans stores, fun wipeId is => ?_⟩
  exact all wipeId (Result.mapError_eq_ok.mp is)

theorem runs_spread {result : Except String Unit}
    (run : Runs (Draws id) (spread chrono sender request targets).run s result s') :
    ∃ stored, Stores chrono id request stored s s' ∧ (result = .ok () → stored = targets) := by
  rcases runs_run_bind.mp run with ⟨wipeId, m, first, rest⟩ | ⟨e, rfl, failed⟩
  · obtain ⟨stored, stores, all⟩ := runs_storing first
    have same := rest.keeps sameRedis_sendToEach.lift sameRedis_refl fun _ _ _ => SameRedis.trans
    exact ⟨stored, stores.after same, fun _ => (all wipeId rfl).2⟩
  · obtain ⟨stored, stores, -⟩ := runs_storing failed
    exact ⟨stored, stores, fun other => (by cases other)⟩

theorem runs_issueFor {result : Except HysjError WipeStatusResponse}
    (run : Runs (Draws id) (issueFor chrono request targets).run s result s') :
    ∃ stored, Stores chrono id request stored s s' ∧ ∀ response, result = .ok response →
      response.wipeId = id.display ∧ stored = response.pendingDevices := by
  rcases runs_run_bind.mp run with ⟨wipeId, m, first, rest⟩ | ⟨e, rfl, failed⟩
  · obtain ⟨stored, stores, all⟩ := runs_storing first
    have keeps : Keeps SameRedis (do
        (liftM (sendToEach targets (.wipeCommand request)) : Task HysjError Unit)
        return (⟨wipeId, targets, []⟩ : WipeStatusResponse) : Task HysjError _).run :=
      Keeps.run_bind sameRedis_sendToEach.lift fun _ => keeps_pure _
    have same := rest.keeps keeps sameRedis_refl fun _ _ _ => SameRedis.trans
    refine ⟨stored, stores.after same, fun response is => ?_⟩
    subst is
    obtain ⟨_, _, -, done⟩ := runs_run_bind_ok.mp rest
    obtain ⟨same, -⟩ := runs_run_pure.mp done
    obtain rfl := Except.ok.inj same
    exact all wipeId rfl
  · obtain ⟨stored, stores, -⟩ := runs_storing failed
    exact ⟨stored, stores, fun _ other => (by cases other)⟩

theorem runs_issueWipe_server {result : Except HysjError WipeStatusResponse}
    (run : Runs (Draws id) (issueWipe chrono auth request).run s result s') :
    ∃ stored, Stores chrono id request stored s s' ∧ ∀ response, result = .ok response →
      response.wipeId = id.display ∧ stored = response.pendingDevices := by
  have early {e : HysjError} {m : Server} (same : SameRedis s m) :
      ∃ stored, Stores chrono id request stored s m ∧
        ∀ response, (.error e : Except HysjError WipeStatusResponse) = .ok response →
          response.wipeId = id.display ∧ stored = response.pendingDevices :=
    ⟨[], .of_sameRedis same, fun _ other => (by cases other)⟩
  have limits : Keeps SameRedis (checkRateLimit ("wipe:" ++ auth.userId.display) WIPE_MAX
      WIPE_WINDOW_SECONDS : Task HysjError Bool).run :=
    sameRows_checkRateLimit.mono fun _ _ same => same.redis
  rcases runs_run_bind.mp run with ⟨passes, m, limited, rest⟩ | ⟨e, rfl, failed⟩
  · have same := limited.keeps limits sameRedis_refl fun _ _ _ => SameRedis.trans
    split at rest
    · rcases runs_run_bind.mp rest with ⟨targets, m', found, rest⟩ | ⟨e, rfl, failed⟩
      · have same' := same.trans
          (found.keeps sameRedis_issueTargets sameRedis_refl fun _ _ _ => SameRedis.trans)
        split at rest
        · obtain ⟨rfl, rfl⟩ := runs_run_throw.mp rest
          exact early same'
        · obtain ⟨stored, stores, all⟩ := runs_issueFor rest
          exact ⟨stored, stores.before same', all⟩
      · exact early (same.trans
          (failed.keeps sameRedis_issueTargets sameRedis_refl fun _ _ _ => SameRedis.trans))
    · obtain ⟨rfl, rfl⟩ := runs_run_throw.mp rest
      exact early same
  · exact early (failed.keeps limits sameRedis_refl fun _ _ _ => SameRedis.trans)

end

/-- A wipe that was issued, and the devices of which an acknowledgement has been handled. -/
structure Issue where
  issuer : Uuid
  targets : List Uuid
  issuedAt : Nat
  acked : List Uuid

/-- The device is a target that has not acknowledged, and its entry has not expired. -/
def Issue.Standing (issue : Issue) (now : Nat) (d : Uuid) : Prop :=
  d ∈ issue.targets ∧ d ∉ issue.acked ∧ now < issue.issuedAt + WIPE_TTL_SECONDS.toNat

/-- The server, the ids that requests for a wipe have drawn, and what has become of the wipes. -/
structure Journal where
  server : Server
  drawn : List String
  issued : String → Option Issue

/-- A request for a wipe of some devices has ended, with success or not. -/
def Journal.issue {ε α : Type} (j : Journal) (id : Uuid) (issuer : Uuid) (targets : α → List Uuid)
    (result : Except ε α) (s : Server) : Journal where
  server := s
  drawn := id.display :: j.drawn
  issued := Function.update j.issued id.display
    (result.toOption.map fun a => ⟨issuer, targets a, j.server.redis.now, []⟩)

/-- An acknowledgement has been handled. -/
def Journal.ack (j : Journal) (ack : WipeAckDto) (s : Server) : Journal where
  server := s
  drawn := j.drawn
  issued := Function.update j.issued ack.wipeId
    ((j.issued ack.wipeId).map fun issue => { issue with acked := ack.deviceId :: issue.acked })

section

variable (serde : SerdeJson) (chrono : Chrono) (config : AppConfig) (jwt : Jwt) (argon2 : Argon2)
  (b64 : Base64Engine)

/-- Wipes are issued and acknowledged, devices are registered and deleted, and time passes, in
any order. A wipe draws an id that no other wipe has drawn. -/
inductive Journalled : Journal → Prop where
  | start (now : Nat) (db : Db.Tables) : Journalled ⟨.start now db, [], fun _ => none⟩
  | issue {j : Journal} {result : Except HysjError WipeStatusResponse} {s : Server}
      (before : Journalled j) (auth : AuthUser) (request : WipeRequest) (id : Uuid)
      (fresh : id.display ∉ j.drawn)
      (run : Runs (Draws id) (issueWipe chrono auth request).run j.server result s) :
      Journalled (j.issue id auth.userId WipeStatusResponse.pendingDevices result s)
  | command {j : Journal} {targets : List Uuid} {result : Except String Unit} {m s : Server}
      (before : Journalled j) (user sender : Uuid) (request : WipeRequest) (id : Uuid)
      (fresh : id.display ∉ j.drawn)
      (found : Runs Any (wipeTargets user request).run j.server (.ok targets) m)
      (run : Runs (Draws id) (spread chrono sender request targets).run m result s) :
      Journalled (j.issue id user (fun _ => targets) result s)
  | ack {j : Journal} {s : Server} (before : Journalled j) (user sender : Uuid) (ack : WipeAckDto)
      (run : Runs Any (handleWsMessage config chrono user sender (.wipeAck ack)).run j.server
        (.ok ()) s) :
      Journalled (j.ack ack s)
  | ackFailed {j : Journal} {e : String} {s : Server} (before : Journalled j) (user sender : Uuid)
      (ack : WipeAckDto)
      (run : Runs Any (handleWsMessage config chrono user sender (.wipeAck ack)).run j.server
        (.error e) s) :
      Journalled { j with server := s }
  | account {j : Journal} {result : Except HysjError (Option LoginResponse)} {s : Server}
      (before : Journalled j) (request : AuthRequest)
      (run : Runs Any (request.handle jwt argon2 b64 config).run j.server result s) :
      Journalled { j with server := s }
  | wait {j : Journal} (before : Journalled j) (seconds : Nat) :
      Journalled { j with server := j.server.wait seconds }

/-- What Redis holds for the wipes of the journal. -/
structure Journal.Kept (j : Journal) : Prop where
  ids : ∀ d id wipe, storedWipe serde chrono j.server.redis (wipeKey d id) = some wipe →
    wipe.wipeId = id
  unused : ∀ id, id ∉ j.drawn →
    j.issued id = none ∧ ∀ d, j.server.redis.peek (wipeKey d id) = none
  standing : ∀ id issue, j.issued id = some issue → ∀ d, issue.Standing j.server.redis.now d →
    ∃ entry wipe, j.server.redis.peek (wipeKey d id) = some entry ∧
      PendingWipe.fromSlice serde chrono entry.value = some wipe ∧
      entry.expiresAt = some (issue.issuedAt + WIPE_TTL_SECONDS.toNat)
  gone : ∀ id issue, j.issued id = some issue → ∀ d, ¬ issue.Standing j.server.redis.now d →
    j.server.redis.peek (wipeKey d id) = none

end

section

variable {serde : SerdeJson} {chrono : Chrono} {config : AppConfig} {jwt : Jwt} {argon2 : Argon2}
  {b64 : Base64Engine} {j : Journal} {s : Server}

@[simp] theorem Journal.issued_ack_self {ack : WipeAckDto} : (j.ack ack s).issued ack.wipeId =
    (j.issued ack.wipeId).map fun issue =>
      { issue with acked := ack.deviceId :: issue.acked } := Function.update_self _ _ _

theorem Journal.issued_ack_of_ne {ack : WipeAckDto} {id : String} (other : id ≠ ack.wipeId) :
    (j.ack ack s).issued id = j.issued id := Function.update_of_ne other _ _

section

variable {ε α : Type} {id user : Uuid} {targets : α → List Uuid} {result : Except ε α}

@[simp] theorem Journal.issued_issue_self : (j.issue id user targets result s).issued id.display =
    result.toOption.map fun a => ⟨user, targets a, j.server.redis.now, []⟩ :=
  Function.update_self _ _ _

theorem Journal.of_issued_issue {issue : Issue} {stored : List Uuid}
    (all : ∀ a, result = .ok a → stored = targets a)
    (issued : (j.issue id user targets result s).issued id.display = some issue) :
    issue = ⟨user, stored, j.server.redis.now, []⟩ := by
  rw [Journal.issued_issue_self] at issued
  obtain ⟨a, done, rfl⟩ := Option.map_eq_some_iff.mp issued
  cases result with
  | error e => cases done
  | ok b =>
      obtain rfl := Option.some.inj done
      rw [all _ rfl]

theorem Journal.issued_issue_of_ne {other : String} (differ : other ≠ id.display) :
    (j.issue id user targets result s).issued other = j.issued other :=
  Function.update_of_ne differ _ _

end

theorem Journal.Kept.start (now : Nat) (db : Db.Tables) :
    Journal.Kept serde chrono ⟨.start now db, [], fun _ => none⟩ := by
  constructor
  · intro d id wipe stored
    cases stored
  · exact fun id _ => ⟨rfl, fun d => rfl⟩
  · intro id issue other
    cases other
  · intro id issue other
    cases other

theorem Journal.Kept.sameRedis (kept : j.Kept serde chrono) (same : SameRedis j.server s) :
    Journal.Kept serde chrono { j with server := s } := by
  constructor
  · intro d id wipe stored
    rw [same] at stored
    exact kept.ids d id wipe stored
  · intro id fresh
    rw [same]
    exact kept.unused id fresh
  · intro id issue issued d stands
    rw [same] at stands ⊢
    exact kept.standing id issue issued d stands
  · intro id issue issued d falls
    rw [same] at falls ⊢
    exact kept.gone id issue issued d falls

theorem Journal.Kept.wait (kept : j.Kept serde chrono) (seconds : Nat) :
    Journal.Kept serde chrono { j with server := j.server.wait seconds } := by
  have none_after {key : String} (none_ : j.server.redis.peek key = none) :
      (j.server.wait seconds).redis.peek key = none := by
    cases later : (j.server.wait seconds).redis.peek key with
    | none => rfl
    | some entry =>
        have there := (Store.peek_advance.mp later).1
        rw [none_] at there
        cases there
  constructor
  · intro d id wipe stored
    obtain ⟨bytes, found, read⟩ := Option.bind_eq_some_iff.mp stored
    obtain ⟨entry, later, rfl⟩ := Store.get?_eq_some.mp found
    have before := (Store.peek_advance.mp later).1
    apply kept.ids d id wipe
    rw [storedWipe, Store.get?, before]
    exact read
  · intro id fresh
    exact ⟨(kept.unused id fresh).1, fun d => none_after ((kept.unused id fresh).2 d)⟩
  · intro id issue issued d stands
    obtain ⟨target, waiting, current⟩ := stands
    have before : issue.Standing j.server.redis.now d :=
      ⟨target, waiting, Nat.lt_of_le_of_lt (Nat.le_add_right _ _) current⟩
    obtain ⟨entry, wipe, there, read, expires⟩ := kept.standing id issue issued d before
    refine ⟨entry, wipe, Store.peek_advance.mpr ⟨there, ?_⟩, read, expires⟩
    intro t is
    rw [expires] at is
    obtain rfl := Option.some.inj is
    exact current
  · intro id issue issued d falls
    by_cases before : issue.Standing j.server.redis.now d
    · obtain ⟨entry, wipe, there, read, expires⟩ := kept.standing id issue issued d before
      cases later : (j.server.wait seconds).redis.peek (wipeKey d id) with
      | none => rfl
      | some other =>
          obtain ⟨found, live⟩ := Store.peek_advance.mp later
          rw [there] at found
          obtain rfl := Option.some.inj found
          exact absurd ⟨before.1, before.2.1, live _ expires⟩ falls
    · exact none_after (kept.gone id issue issued d before)

theorem runs_confirmWipe_ok {d : Uuid} {id : String} {m : Server} {deleted : Bool}
    (run : Runs Any (onRedis (confirmWipe d id)).run s (.ok deleted) m) :
    m.redis = s.redis.del (wipeKey d id) := by
  have sure : Sure Clean (confirmWipe d id) := (sure_command _).bind fun _ => sure_pure _
  have clean := sure_onRedis sure _ _ _ run
  simp only [runs_onRedis, confirmWipe, runs_run_bind_ok, runs_del, runs_run_pure] at clean
  obtain ⟨r, ⟨_, _, ⟨-, rfl⟩, -, rfl⟩, rfl⟩ := clean
  rfl

theorem runs_confirmWipe_error {d : Uuid} {id : String} {m : Server} {e : MessagingError}
    (run : Runs Any (onRedis (confirmWipe d id)).run s (.error e) m) : SameRedis s m := by
  obtain ⟨r, ran, rfl⟩ := (@runs_zoom Chance Server Redis (Except MessagingError Bool) Server.redis
    (fun r s => { s with redis := r }) (fun _ _ => rfl) (fun _ => rfl) (fun _ _ _ => rfl)
    (fun _ _ => True) (confirmWipe d id).run s m (.error e)).mp run
  rcases runs_run_bind.mp ran with ⟨_, _, -, rest⟩ | ⟨_, -, failed⟩
  · cases (runs_run_pure.mp rest).1
  · rw [del, command, runs_run_mk, runs_act] at failed
    obtain ⟨c, -, answer⟩ := failed
    cases fault : c.fault with
    | some e =>
        rw [fault] at answer
        exact (Prod.mk.inj answer).2.symm
    | none =>
        rw [fault] at answer
        cases (Prod.mk.inj answer).1

theorem runs_wipeAck {user sender : Uuid} {ack : WipeAckDto} {s' : Server}
    {result : Except String Unit}
    (run : Runs Any (handleWsMessage config chrono user sender (.wipeAck ack)).run s result s') :
    result = .ok () ∧ s'.redis = s.redis.del (wipeKey ack.deviceId ack.wipeId) ∨
      (∃ e, result = .error e) ∧ SameRedis s s' := by
  rcases runs_run_bind.mp run with ⟨deleted, m, ran, rest⟩ | ⟨e, rfl, failed⟩
  · obtain ⟨rfl, rfl⟩ := runs_run_pure.mp rest
    exact Or.inl ⟨rfl, runs_confirmWipe_ok (runs_adapt_ok.mp ran)⟩
  · obtain ⟨outcome, ran, is⟩ := runs_adapt.mp failed
    cases outcome with
    | ok deleted => cases is
    | error e => exact Or.inr ⟨⟨_, rfl⟩, runs_confirmWipe_error ran⟩

theorem Journal.Kept.ack (kept : j.Kept serde chrono) {ack : WipeAckDto}
    (deleted : s.redis = j.server.redis.del (wipeKey ack.deviceId ack.wipeId)) :
    (j.ack ack s).Kept serde chrono := by
  have after (key : String) : s.redis.peek key = none ∨
      key ≠ wipeKey ack.deviceId ack.wipeId ∧ s.redis.peek key = j.server.redis.peek key := by
    rw [deleted]
    by_cases is : key = wipeKey ack.deviceId ack.wipeId
    · subst is
      exact Or.inl Store.peek_del
    · exact Or.inr ⟨is, Store.peek_del_of_ne is⟩
  have now : s.redis.now = j.server.redis.now := by
    rw [deleted]
    rfl
  -- an issue of the journal after the acknowledgement is one from before
  have issues {id : String} {issue : Issue} (issued : (j.ack ack s).issued id = some issue) :
      ∃ before, j.issued id = some before ∧ issue.issuedAt = before.issuedAt ∧ ∀ d t,
        issue.Standing t d ↔ before.Standing t d ∧
          wipeKey d id ≠ wipeKey ack.deviceId ack.wipeId := by
    by_cases this : id = ack.wipeId
    · subst this
      rw [Journal.issued_ack_self] at issued
      obtain ⟨before, found, rfl⟩ := Option.map_eq_some_iff.mp issued
      refine ⟨before, found, rfl, fun d t => ?_⟩
      simp only [Issue.Standing, List.mem_cons, not_or, ne_eq, wipeKey_inj, and_true]
      constructor
      · rintro ⟨target, ⟨other, waiting⟩, current⟩
        exact ⟨⟨target, waiting, current⟩, other⟩
      · rintro ⟨⟨target, waiting, current⟩, other⟩
        exact ⟨target, ⟨other, waiting⟩, current⟩
    · rw [Journal.issued_ack_of_ne this] at issued
      refine ⟨issue, issued, rfl, fun d t => ?_⟩
      simp [this]
  constructor
  · intro d id wipe stored
    obtain ⟨bytes, found, read⟩ := Option.bind_eq_some_iff.mp stored
    obtain ⟨entry, there, rfl⟩ := Store.get?_eq_some.mp found
    rcases after (wipeKey d id) with none_ | ⟨-, same⟩
    · exact absurd there (by simp [Journal.ack, none_])
    · apply kept.ids d id wipe
      rw [storedWipe, Store.get?, ← same, ← Store.get?]
      exact stored
  · intro id fresh
    obtain ⟨unissued, none_⟩ := kept.unused id fresh
    constructor
    · by_cases this : id = ack.wipeId
      · subst this
        rw [Journal.issued_ack_self, unissued]
        rfl
      · rw [Journal.issued_ack_of_ne this, unissued]
    · intro d
      rcases after (wipeKey d id) with gone | ⟨-, same⟩
      · exact gone
      · exact same.trans (none_ d)
  · intro id issue issued d stands
    obtain ⟨before, found, issuedAt, iff⟩ := issues issued
    obtain ⟨stood, other⟩ := (iff d _).mp stands
    rw [show (j.ack ack s).server.redis.now = j.server.redis.now from now] at stood
    obtain ⟨entry, wipe, there, read, expires⟩ := kept.standing id before found d stood
    have same : s.redis.peek (wipeKey d id) = j.server.redis.peek (wipeKey d id) := by
      rw [deleted, Store.peek_del_of_ne other]
    refine ⟨entry, wipe, same.trans there, read, ?_⟩
    rw [issuedAt]
    exact expires
  · intro id issue issued d falls
    obtain ⟨before, found, -, iff⟩ := issues issued
    rcases after (wipeKey d id) with gone | ⟨other, same⟩
    · exact gone
    · refine same.trans (kept.gone id before found d fun stood => falls ?_)
      rw [show (j.ack ack s).server.redis.now = j.server.redis.now from now]
      exact (iff d _).mpr ⟨stood, other⟩

/-- The entry of a device after a wipe was stored for some devices under an unused id. -/
theorem Stores.peek {id : Uuid} {request : WipeRequest} {stored : List Uuid} {s' : Server}
    (stores : Stores chrono id request stored s s') :
    s'.redis.now = s.redis.now ∧
      (∀ key, (∀ d ∈ stored, key ≠ wipeKey d id.display) → s'.redis.peek key = s.redis.peek key) ∧
      ∀ d ∈ stored, ∃ serial, s'.redis.peek (wipeKey d id.display) = some
        ⟨Json.toVec (PendingWipe.toJson chrono ⟨id.display, request, s.redis.now⟩),
          some (s.redis.now + WIPE_TTL_SECONDS.toNat), s.redis.now, serial⟩ := by
  have lasts : 0 < WIPE_TTL_SECONDS.toNat := by decide
  rw [Stores] at stores
  rw [stores]
  refine ⟨(peek_storeWipes lasts stored s.redis "").1, fun key others => ?_, fun d member => ?_⟩
  · exact (peek_storeWipes lasts stored s.redis key).2.1 others
  · exact (peek_storeWipes lasts stored s.redis _).2.2 ⟨d, member, rfl⟩

theorem Journal.Kept.issue (lawful : serde.Lawful) (inverse : chrono.Inverse)
    (kept : j.Kept serde chrono) {ε α : Type} {id user : Uuid} {targets : α → List Uuid}
    {result : Except ε α} {request : WipeRequest} {stored : List Uuid}
    (fresh : id.display ∉ j.drawn) (stores : Stores chrono id request stored j.server s)
    (all : ∀ a, result = .ok a → stored = targets a) :
    (j.issue id user targets result s).Kept serde chrono := by
  obtain ⟨now, others, here⟩ := stores.peek
  have same {other : String} (differ : other ≠ id.display) (d : Uuid) :
      s.redis.peek (wipeKey d other) = j.server.redis.peek (wipeKey d other) :=
    others _ fun d' _ is => differ (wipeKey_inj.mp is).2
  have missing {d : Uuid} (absent : d ∉ stored) : s.redis.peek (wipeKey d id.display) = none := by
    rw [others]
    · exact (kept.unused _ fresh).2 d
    · intro d' member is
      rw [← (wipeKey_inj.mp is).1] at member
      exact absent member
  have read (request : WipeRequest) (t : Nat) : PendingWipe.fromSlice serde chrono
      (Json.toVec (PendingWipe.toJson chrono ⟨id.display, request, t⟩)) =
        some ⟨id.display, request, t⟩ := PendingWipe.fromSlice_toVec lawful inverse _
  constructor
  · intro d other wipe stored_
    obtain ⟨bytes, found, reads⟩ := Option.bind_eq_some_iff.mp stored_
    obtain ⟨entry, there, rfl⟩ := Store.get?_eq_some.mp found
    by_cases this : other = id.display
    · subst this
      by_cases member : d ∈ stored
      · obtain ⟨serial, entry'⟩ := here d member
        rw [show (j.issue id user targets result s).server = s from rfl, entry'] at there
        obtain rfl := Option.some.inj there
        rw [read] at reads
        rw [← Option.some.inj reads]
      · rw [show (j.issue id user targets result s).server = s from rfl, missing member] at there
        cases there
    · apply kept.ids d other wipe
      rw [storedWipe, Store.get?, ← same this]
      exact stored_
  · intro other unused
    rw [Journal.issue, List.mem_cons, not_or] at unused
    obtain ⟨differ, unused⟩ := unused
    rw [Journal.issued_issue_of_ne differ]
    refine ⟨(kept.unused other unused).1, fun d => (same differ d).trans ?_⟩
    exact (kept.unused other unused).2 d
  · intro other issue issued d stands
    by_cases this : other = id.display
    · subst this
      obtain rfl := Journal.of_issued_issue all issued
      obtain ⟨serial, entry⟩ := here d stands.1
      exact ⟨_, _, entry, read _ _, rfl⟩
    · rw [Journal.issued_issue_of_ne this] at issued
      rw [show (j.issue id user targets result s).server.redis.now = j.server.redis.now from now]
        at stands
      obtain ⟨entry, wipe, there, reads, expires⟩ := kept.standing other issue issued d stands
      exact ⟨entry, wipe, (same this d).trans there, reads, expires⟩
  · intro other issue issued d falls
    rw [show (j.issue id user targets result s).server.redis.now = j.server.redis.now from now]
      at falls
    by_cases this : other = id.display
    · subst this
      obtain rfl := Journal.of_issued_issue all issued
      apply missing
      intro member
      have lasts : 0 < WIPE_TTL_SECONDS.toNat := by decide
      exact falls ⟨member, List.not_mem_nil, by simpa using lasts⟩
    · rw [Journal.issued_issue_of_ne this] at issued
      exact (same this d).trans (kept.gone other issue issued d falls)

theorem sameRedis_handle (request : AuthRequest) :
    Keeps SameRedis (request.handle jwt argon2 b64 config).run := by
  have same {s s' : Server} (rows : SameRows s s') : SameRedis s s' := rows.redis
  have spared {P : Db.Device → Prop} {s s' : Server} (rows : Spares P s s') : SameRedis s s' :=
    rows.redis
  cases request with
  | register headers request =>
      refine Keeps.run_bind ?_ fun _ => keeps_pure _
      exact Keeps.mono (spares_register (P := fun _ => True) headers request) fun _ _ => spared
  | login headers request =>
      refine Keeps.run_bind ?_ fun _ => keeps_pure _
      exact (sameRows_login headers request).mono fun _ _ => same
  | refresh request =>
      refine Keeps.run_bind ?_ fun _ => keeps_pure _
      exact (sameRows_refresh request).mono fun _ _ => same
  | deleteDevice headers d =>
      refine Keeps.run_bind (keeps_fromRequestParts sameRedis_refl headers) fun auth => ?_
      refine Keeps.run_bind ?_ fun _ => keeps_pure _
      exact (spares_deleteDevice auth d).mono fun _ _ => spared
  | deleteAccount headers =>
      refine Keeps.run_bind (keeps_fromRequestParts sameRedis_refl headers) fun auth => ?_
      refine Keeps.run_bind ?_ fun _ => keeps_pure _
      exact (spares_deleteAccount auth).mono fun _ _ => spared

theorem sameRedis_wipeTargets (user : Uuid) (request : WipeRequest) :
    Keeps SameRedis (wipeTargets user request).run := by
  have none_ : Effects (fun _ => False) (wipeTargets user request).run := effects_wipeTargets
  apply none_.mono
  rintro s s' (rfl | ⟨_, other, -⟩)
  · exact sameRedis_refl _
  · exact other.elim

theorem Journalled.kept (lawful : serde.Lawful) (inverse : chrono.Inverse)
    (run : Journalled chrono config jwt argon2 b64 j) : j.Kept serde chrono := by
  induction run with
  | start now db => exact .start now db
  | issue before auth request id fresh run ih =>
      obtain ⟨stored, stores, all⟩ := runs_issueWipe_server run
      exact ih.issue lawful inverse fresh stores fun response done => (all response done).2
  | command before user sender request id fresh found run ih =>
      obtain ⟨stored, stores, all⟩ := runs_spread run
      have same := found.keeps (sameRedis_wipeTargets user request) sameRedis_refl
        fun _ _ _ => SameRedis.trans
      exact ih.issue lawful inverse fresh (stores.before same) fun _ done => all done
  | ack before user sender ack run ih =>
      rcases runs_wipeAck run with ⟨-, deleted⟩ | ⟨⟨e, other⟩, -⟩
      · exact ih.ack deleted
      · cases other
  | ackFailed before user sender ack run ih =>
      rcases runs_wipeAck run with ⟨other, -⟩ | ⟨-, same⟩
      · cases other
      · exact ih.sameRedis same
  | account before request run ih =>
      exact ih.sameRedis (run.keeps (sameRedis_handle request) sameRedis_refl
        fun _ _ _ => SameRedis.trans)
  | wait before seconds ih => exact ih.wait seconds

/-- Of a wipe that was issued, the devices that stand are those that await it. -/
theorem Journal.Kept.awaits_iff (kept : j.Kept serde chrono) {id : String} {issue : Issue}
    (issued : j.issued id = some issue) (d : Uuid) :
    Awaits serde chrono j.server.redis id d ↔ issue.Standing j.server.redis.now d := by
  constructor
  · rintro ⟨id', wipe, stored, is⟩
    have same := kept.ids d id' wipe stored
    rw [is] at same
    subst same
    by_contra falls
    rw [storedWipe, Store.get?, kept.gone _ issue issued d falls] at stored
    cases stored
  · intro stands
    obtain ⟨entry, wipe, there, read, -⟩ := kept.standing id issue issued d stands
    have stored : storedWipe serde chrono j.server.redis (wipeKey d id) = some wipe := by
      rw [storedWipe, Store.get?, there]
      exact read
    exact ⟨id, wipe, stored, kept.ids d id wipe stored⟩

theorem Journal.Kept.not_awaits (kept : j.Kept serde chrono) {id : String} (unused : id ∉ j.drawn)
    (d : Uuid) : ¬ Awaits serde chrono j.server.redis id d := by
  rintro ⟨id', wipe, stored, is⟩
  have same := kept.ids d id' wipe stored
  rw [is] at same
  subst same
  rw [storedWipe, Store.get?, (kept.unused _ unused).2 d] at stored
  cases stored

end

/-- There is a row for the device. -/
def Server.HasDevice (s : Server) (d : Uuid) : Prop := ∃ row ∈ s.db.devices, row.id = d

/-- The existing targets are divided into those that have acknowledged the wipe and the others. -/
structure Truthful (s : Server) (issue : Issue) (response : WipeStatusResponse) : Prop where
  disjoint : ∀ d ∈ response.pendingDevices, d ∉ response.confirmedDevices
  union : ∀ d, d ∈ response.pendingDevices ∨ d ∈ response.confirmedDevices ↔
    d ∈ issue.targets ∧ s.HasDevice d
  confirmed : ∀ d ∈ issue.targets, s.HasDevice d →
    (d ∈ response.confirmedDevices ↔ d ∈ issue.acked)

/-- The existing targets are the devices of the issuer, and none of them is past its time without
an acknowledgement. -/
structure Trackable (s : Server) (issue : Issue) : Prop where
  own : ∀ d, s.Owns issue.issuer d ↔ d ∈ issue.targets ∧ s.HasDevice d
  current : ∀ d ∈ issue.targets, s.HasDevice d → d ∉ issue.acked →
    s.redis.now < issue.issuedAt + WIPE_TTL_SECONDS.toNat

/-- In every run, the status of an issued wipe is right exactly when the existing targets are the
issuer's devices and none of them is overdue; of an id that was never drawn, exactly when the user
has no devices. -/
theorem status_truthful_iff {serde : SerdeJson} {chrono : Chrono} (lawful : serde.Lawful)
    (inverse : chrono.Inverse) {config : AppConfig} {jwt : Jwt} {argon2 : Argon2}
    {b64 : Base64Engine} {j : Journal} (run : Journalled chrono config jwt argon2 b64 j)
    (auth : AuthUser) (id : String) :
    (∀ issue, j.issued id = some issue → issue.issuer = auth.userId →
      ((∀ pages response s,
          Runs Any (wipeStatus serde chrono pages auth id).run j.server (.ok response) s →
          Truthful j.server issue response) ↔ Trackable j.server issue)) ∧
    (id ∉ j.drawn →
      ((∀ pages response s,
          Runs Any (wipeStatus serde chrono pages auth id).run j.server (.ok response) s →
          response.confirmedDevices = []) ↔ ∀ d, ¬ j.server.Owns auth.userId d)) := by
  have kept : j.Kept serde chrono := run.kept lawful inverse
  obtain ⟨sample, after, told⟩ := wipeStatus_answers serde chrono j.server auth id
  constructor
  · intro issue issued own
    constructor
    · intro truthful
      obtain ⟨pending, confirmed⟩ := runs_wipeStatus told
      obtain ⟨-, union, acked⟩ := truthful _ _ _ told
      have owns (d : Uuid) :
          j.server.Owns issue.issuer d ↔ d ∈ issue.targets ∧ j.server.HasDevice d := by
        rw [← union, pending, confirmed, own, ← and_or_left]
        exact (and_iff_left (em _)).symm
      refine ⟨owns, fun d target exists_ waiting => ?_⟩
      by_contra overdue
      have awaits : ¬ Awaits serde chrono j.server.redis id d := by
        rw [kept.awaits_iff issued]
        exact fun stands => overdue stands.2.2
      have has : j.server.Owns auth.userId d := by
        rw [← own]
        exact (owns d).mpr ⟨target, exists_⟩
      exact waiting ((acked d target exists_).mp ((confirmed d).mpr ⟨has, awaits⟩))
    · intro trackable pages response s told
      obtain ⟨pending, confirmed⟩ := runs_wipeStatus told
      constructor
      · intro d isPending isConfirmed
        exact ((confirmed d).mp isConfirmed).2 ((pending d).mp isPending).2
      · intro d
        rw [pending, confirmed, ← and_or_left, ← own, ← trackable.own]
        exact and_iff_left (em _)
      · intro d target exists_
        have has : j.server.Owns auth.userId d := by
          rw [← own]
          exact (trackable.own d).mpr ⟨target, exists_⟩
        rw [confirmed, kept.awaits_iff issued, and_iff_right has]
        constructor
        · intro falls
          by_contra waiting
          exact falls ⟨target, waiting, trackable.current d target exists_ waiting⟩
        · exact fun acked stands => stands.2.1 acked
  · intro unused
    constructor
    · intro empty d has
      obtain ⟨-, confirmed⟩ := runs_wipeStatus told
      have member := (confirmed d).mpr ⟨has, kept.not_awaits unused d⟩
      rw [empty _ _ _ told] at member
      cases member
    · intro none_ pages response s told
      obtain ⟨-, confirmed⟩ := runs_wipeStatus told
      rw [List.eq_nil_iff_forall_not_mem]
      intro d member
      exact none_ d ((confirmed d).mp member).1

theorem Journal.Kept.confirms {serde : SerdeJson} {chrono : Chrono} {j : Journal}
    (kept : j.Kept serde chrono) {id : String} {issue : Issue} (issued : j.issued id = some issue)
    {auth : AuthUser} {d : Uuid} (owns : j.server.Owns auth.userId d) (other : d ∉ issue.targets) :
    ∃ response s, Runs Any (wipeStatus serde chrono 1 auth id).run j.server (.ok response) s ∧
      d ∈ response.confirmedDevices ∧ ¬ Truthful j.server issue response := by
  obtain ⟨response, s, told⟩ := wipeStatus_answers serde chrono j.server auth id
  have confirmed : d ∈ response.confirmedDevices := by
    refine ((runs_wipeStatus told).2 d).mpr ⟨owns, ?_⟩
    rw [kept.awaits_iff issued]
    exact fun stands => other stands.1
  refine ⟨response, s, told, confirmed, fun truthful => ?_⟩
  exact other ((truthful.union d).mp (Or.inr confirmed)).1

/-- User 2 has a phone and a laptop. -/
def twoDevices : Db.Tables where
  devices :=
    [.sample (.replicate 16 7) (.replicate 16 2), .sample (.replicate 16 8) (.replicate 16 2)]

def userTwo : AuthUser := ⟨.replicate 16 2, .replicate 16 8, "two"⟩

/-- User 2 issues a wipe under the id 1, right after the server has started. -/
theorem journalled_wipe (request : WipeRequest) {response : WipeStatusResponse} {s : Server}
    (ran : exec (drawing 1) (issueWipe Chrono.sample userTwo request).run (.start 0 twoDevices) =
      some (.ok response, s)) :
    Journalled Chrono.sample ⟨none, "secret"⟩ .sample .sample .sample
      (Journal.issue ⟨.start 0 twoDevices, [], fun _ => none⟩ (.replicate 16 1) userTwo.userId
        WipeStatusResponse.pendingDevices (.ok response : Except HysjError _) s) := by
  refine (Journalled.start 0 twoDevices).issue userTwo request (.replicate 16 1) List.not_mem_nil ?_
  refine runs_of_exec (fun c member s => ?_) ran
  rw [List.eq_of_mem_replicate member]

theorem owns_twoDevices (d : Uuid) : (Server.start 0 twoDevices).Owns userTwo.userId d ↔
    d ∈ ([.replicate 16 7, .replicate 16 8] : List Uuid) := by
  constructor
  · rintro ⟨row, member, rfl, -⟩
    exact List.mem_map_of_mem (f := Db.Device.id) member
  · intro listed
    rcases List.mem_pair.mp listed with rfl | rfl
    · exact ⟨_, List.mem_cons_self, rfl, rfl⟩
    · exact ⟨_, List.mem_cons_of_mem _ List.mem_cons_self, rfl, rfl⟩

theorem hasDevice_of_owns {s : Server} {u d : Uuid} (owns : s.Owns u d) : s.HasDevice d := by
  obtain ⟨row, member, is, -⟩ := owns
  exact ⟨row, member, is⟩

/-- A wipe of all devices is reported right. -/
theorem status_truthful_all : ∃ j : Journal, ∃ issue,
    Journalled Chrono.sample ⟨none, "secret"⟩ .sample .sample .sample j ∧
      j.issued (Uuid.display (.replicate 16 1)) = some issue ∧ issue.targets.length = 2 ∧
      ∀ pages response s, Runs Any (wipeStatus SerdeJson.sample Chrono.sample pages userTwo
        (Uuid.display (.replicate 16 1))).run j.server (.ok response) s →
        Truthful j.server issue response := by
  have run := journalled_wipe ⟨.all, none, none⟩ rfl
  refine ⟨_, _, run, Journal.issued_issue_self, rfl, ?_⟩
  refine ((status_truthful_iff SerdeJson.sample_lawful Chrono.sample_inverse run userTwo _).1 _
    Journal.issued_issue_self rfl).mpr ⟨fun d => ?_, ?_⟩
  · constructor
    · exact fun owns => ⟨(owns_twoDevices d).mp owns, hasDevice_of_owns owns⟩
    · exact fun target => (owns_twoDevices d).mpr target.1
  · intro d _ _ _
    decide

/-- After a wipe of the phone alone, the laptop is reported as confirmed. -/
theorem status_confirms_laptop : ∃ j : Journal, ∃ issue,
    Journalled Chrono.sample ⟨none, "secret"⟩ .sample .sample .sample j ∧
      j.issued (Uuid.display (.replicate 16 1)) = some issue ∧ issue.issuer = userTwo.userId ∧
      issue.targets = [.replicate 16 7] ∧ ∃ response s, Runs Any (wipeStatus SerdeJson.sample
        Chrono.sample 1 userTwo (Uuid.display (.replicate 16 1))).run j.server (.ok response) s ∧
        .replicate 16 8 ∈ response.confirmedDevices ∧ ¬ Truthful j.server issue response := by
  have run := journalled_wipe ⟨.device, some (.replicate 16 7), none⟩ rfl
  have kept := run.kept SerdeJson.sample_lawful Chrono.sample_inverse
  have other : (.replicate 16 8 : Uuid) ∉ ([.replicate 16 7] : List Uuid) := by decide
  refine ⟨_, _, run, Journal.issued_issue_self, rfl, rfl, ?_⟩
  exact kept.confirms Journal.issued_issue_self ((owns_twoDevices _).mpr (by decide)) other

end Hysj.Api
