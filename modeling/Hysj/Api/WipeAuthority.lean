import Hysj.Api.Acknowledgements
import Hysj.Api.Wipe

set_option autoImplicit false

/- Whose devices a wipe can reach. -/
namespace Hysj.Api

open Crypto Shared Messaging Program

/-- The rows of devices name the same users. -/
def SameOwners (s s' : Server) : Prop := ∀ user d, s'.Owns user d ↔ s.Owns user d

/-- The step stores a pending wipe for the device or sends a frame to it. -/
def Reaches (s s' : Server) (d : Uuid) : Prop :=
  (∃ id, (s'.redis.get? (wipeKey d id)).isSome ∧
    s'.redis.peek (wipeKey d id) ≠ s.redis.peek (wipeKey d id)) ∨
  ∃ frame ∈ s'.sent.drop s.sent.length, frame.deviceId = d

/-- The device belongs to the user, or to the partner whose conversation is wiped. -/
def MayWipe (s : Server) (user : Uuid) (request : WipeRequest) (d : Uuid) : Prop :=
  s.Owns user d ∨ request.wipeType = .conversation ∧
    ∃ partner ∈ request.conversationPartnerId, s.Owns partner d

/-- If the request names a device to wipe, it is the user's. -/
def OwnTarget (s : Server) (user : Uuid) (request : WipeRequest) : Prop :=
  request.wipeType = .device → ∀ d ∈ request.targetDeviceId, s.Owns user d

/-- What a wipe of some devices may do. -/
def targetEffects (targets : List Uuid) : Effect → Prop
  | .store (.set key _ _) => ∃ d ∈ targets, ∃ id, key = wipeKey d id
  | .send d _ => d ∈ targets
  | .disconnect _ => True
  | _ => False

/-- A program that reaches only devices its user may wipe, whatever the others do, as long as
they leave the rows of devices. -/
abbrev Authorised {α : Type} (s : Server) (user : Uuid) (request : WipeRequest) (Q : α → Prop)
    (t : Program Chance Server α) : Prop :=
  Secures (fun _ _ => True) (SameOwners s)
    (fun a a' => ∀ d, Reaches a a' d → MayWipe s user request d) Q t

section

variable {s a a' : Server} {user sender d : Uuid} {request : WipeRequest} {targets : List Uuid}
  {chrono : Chrono}

theorem not_reaches_self (a : Server) (d : Uuid) : ¬ Reaches a a d := by
  rintro (⟨id, -, differs⟩ | ⟨frame, member, -⟩)
  · exact differs rfl
  · rw [List.drop_length] at member
    cases member

theorem targetEffects_reaches (does : Does Effect.apply (targetEffects targets) a a')
    (reaches : Reaches a a' d) : d ∈ targets := by
  obtain rfl | ⟨effect, may, rfl⟩ := does
  · exact absurd reaches (not_reaches_self _ d)
  · cases effect with
    | send d' text =>
        simp only [Effect.apply] at reaches
        split at reaches
        · exact absurd reaches (not_reaches_self a d)
        · split at reaches
          · exact absurd reaches (not_reaches_self a d)
          · obtain ⟨id, -, differs⟩ | ⟨frame, member, rfl⟩ := reaches
            · exact absurd rfl differs
            · rw [List.drop_left] at member
              obtain rfl := List.mem_singleton.mp member
              exact may
    | disconnect d' =>
        obtain ⟨id, -, differs⟩ | ⟨frame, member, -⟩ := reaches
        · exact absurd rfl differs
        · rw [Effect.apply, List.drop_length] at member
          cases member
    | store change =>
        cases change with
        | set key value ttl =>
            obtain ⟨d', member, id', rfl⟩ := may
            obtain ⟨id, -, differs⟩ | ⟨frame, member, -⟩ := reaches
            · by_contra absent
              have other : wipeKey d id ≠ wipeKey d' id' := by
                intro same
                obtain ⟨rfl, -⟩ := wipeKey_inj.mp same
                exact absent member
              exact differs (Store.peek_set_of_ne other)
            · rw [Effect.apply, List.drop_length] at member
              cases member
        | del key => exact may.elim
        | expire key ttl => exact may.elim
    | push request => exact may.elim
    | pins rows => exact may.elim
    | limit key times => exact may.elim

theorem owners_of_does (does : Does Effect.apply (targetEffects targets) a a')
    (owners : SameOwners s a) : SameOwners s a' := by
  obtain rfl | ⟨effect, may, rfl⟩ := does
  · exact owners
  · cases effect with
    | send d text =>
        simp only [Effect.apply]
        split
        · exact owners
        · split <;> exact owners
    | disconnect d => exact owners
    | store change => exact owners
    | push request => exact may.elim
    | pins rows => exact may.elim
    | limit key times => exact may.elim

theorem Authorised.of_targets {α : Type} {t : Program Chance Server α}
    (effects : Effects (targetEffects targets) t)
    (allowed : ∀ d ∈ targets, MayWipe s user request d) :
    Authorised s user request (fun _ => True) t := by
  refine (effects.secures fun _ _ owners does => owners_of_does does owners).mono
    ?_ fun _ _ => trivial
  intro a a' _ does d reaches
  exact allowed d (targetEffects_reaches does reaches)

theorem effects_issueWipe : Effects (targetEffects targets)
    (onRedis (Messaging.issueWipe chrono targets request)).run :=
  effects_onRedis (changes_issueWipe fun d member id _ => ⟨d, member, id, rfl⟩)

theorem effects_sendToTargets {ds : List Uuid} {message : WsMessage} (inside : ds ⊆ targets) :
    Effects (targetEffects targets) (sendToEach ds message) :=
  effects_sendToEach fun _ member => ⟨inside member, trivial⟩

/-- The devices that a query for a user returns are the user's. -/
theorem authorised_listByUser (owner : Uuid) : Authorised s user request
    (OnOk fun devices => ∀ d ∈ devices.map Db.Device.id, s.Owns owner d)
    (query fun _ => Db.listByUser owner).run := by
  refine secures_act fun c a _ owners => ?_
  have same (d : Uuid) (reaches : Reaches a a d) : MayWipe s user request d :=
    absurd reaches (not_reaches_self a d)
  split
  · exact ⟨owners, same, fun devices failed => (by cases failed)⟩
  · refine ⟨owners, same, fun devices found d member => ?_⟩
    obtain rfl := Except.ok.inj found
    obtain ⟨row, listed, rfl⟩ := List.mem_map.mp member
    obtain ⟨present, is⟩ := List.mem_filter.mp listed
    exact (owners owner row.id).mp ⟨row, present, rfl, of_decide_eq_true is⟩

theorem authorised_devicesOrNone (owner : Uuid) : Authorised s user request
    (OnOk fun devices => ∀ d ∈ devices.map Db.Device.id, s.Owns owner d)
    (devicesOrNone (Db.listByUser owner)).run := by
  refine Secures.run_bind (authorised_listByUser owner).attempt fun devices holds => ?_
  split
  · exact secures_run_pure (holds _ rfl)
  · exact secures_run_pure fun d member => (by cases member)

theorem authorised_partnerDevices : Authorised s user request
    (OnOk fun devices => ∀ d ∈ devices.map Db.Device.id,
      ∃ partner ∈ request.conversationPartnerId, s.Owns partner d)
    (partnerDevices request).run := by
  unfold partnerDevices
  split
  · rename_i partner named
    refine (authorised_devicesOrNone partner).mono (fun _ _ _ same => same) ?_
    intro result holds devices found d member
    exact ⟨partner, named, holds devices found d member⟩
  · exact secures_run_pure fun d member => (by cases member)

theorem authorised_wipeTargets (own : OwnTarget s user request) : Authorised s user request
    (OnOk fun targets => ∀ d ∈ targets, MayWipe s user request d)
    (wipeTargets user request).run := by
  unfold wipeTargets
  split
  · refine Secures.run_bind (authorised_devicesOrNone user) fun devices owned => ?_
    exact secures_run_pure fun d member => Or.inl (owned d member)
  · rename_i device
    exact secures_run_pure fun d member => Or.inl (own device d (Option.mem_toList.mp member))
  · rename_i conversation
    refine Secures.run_bind authorised_partnerDevices fun partners theirs => ?_
    refine Secures.run_bind (authorised_devicesOrNone user) fun devices owned => ?_
    refine secures_run_pure fun d member => ?_
    rcases List.mem_append.mp member with member | member
    · exact Or.inr ⟨conversation, theirs d member⟩
    · exact Or.inl (owned d member)

/-- The command that stores a wipe, with its errors translated. -/
theorem authorised_issue {ε : Type} {f : MessagingError → ε}
    (allowed : ∀ d ∈ targets, MayWipe s user request d) : Authorised s user request
      (OnOk fun _ => True)
      (ExceptT.adapt f (onRedis (Messaging.issueWipe chrono targets request))).run := by
  apply Secures.adapt
  refine Secures.mono (Authorised.of_targets effects_issueWipe allowed) ?_ ?_
  · exact fun _ _ _ same => same
  · exact fun _ _ _ _ => trivial

theorem authorised_sendToEach {ε : Type} {ds : List Uuid} {message : WsMessage}
    (allowed : ∀ d ∈ targets, MayWipe s user request d) (inside : ds ⊆ targets) :
    Authorised s user request (OnOk fun _ => True)
      (liftM (sendToEach ds message) : Task ε Unit).run :=
  (Authorised.of_targets (effects_sendToTargets inside) allowed).lift

theorem authorised_wipeCommand (own : OwnTarget s user request) : Authorised s user request
    (OnOk fun _ => True) (wipeCommand chrono user sender request).run := by
  refine Secures.run_bind (authorised_wipeTargets own) fun targets allowed => ?_
  refine Secures.run_bind (authorised_issue allowed) fun id _ => ?_
  exact authorised_sendToEach allowed fun _ member => (List.mem_filter.mp member).1

theorem authorised_issueTargets (own : OwnTarget s user request) : Authorised s user request
    (OnOk fun targets => ∀ d ∈ targets, MayWipe s user request d)
    (issueTargets user request).run := by
  unfold issueTargets
  split
  · refine Secures.run_bind (authorised_listByUser user).adapt fun devices owned => ?_
    exact secures_run_pure fun d member => Or.inl (owned d member)
  · rename_i device
    split
    · exact secures_run_throw
    · rename_i target named
      refine secures_run_pure fun d member => ?_
      obtain rfl := List.mem_singleton.mp member
      exact Or.inl (own device d named)
  · rename_i conversation
    split
    · exact secures_run_throw
    · rename_i partner named
      refine Secures.run_bind (authorised_listByUser partner).adapt fun partners theirs => ?_
      refine Secures.run_bind (authorised_listByUser user).adapt fun devices owned => ?_
      refine secures_run_pure fun d member => ?_
      rcases List.mem_append.mp member with member | member
      · exact Or.inr ⟨conversation, partner, named, theirs d member⟩
      · exact Or.inl (owned d member)

theorem authorised_checkRateLimit {ε : Type} {key : String} {maxRequests window : Nat} :
    Authorised s user request (OnOk fun _ => True)
      (checkRateLimit key maxRequests window : Task ε Bool).run := by
  have limits : Effects (fun e => ∃ key times, e = .limit key times)
      (checkRateLimit key maxRequests window : Task ε Bool).run :=
    effects_checkRateLimit fun times => ⟨key, times, rfl⟩
  refine (limits.secures (I := SameOwners s) ?_).mono ?_ fun _ _ _ _ => trivial
  · rintro a _ owners (rfl | ⟨_, ⟨key, times, rfl⟩, rfl⟩)
    · exact owners
    · exact owners
  · rintro a _ - (rfl | ⟨_, ⟨key, times, rfl⟩, rfl⟩) d reaches
    · exact absurd reaches (not_reaches_self _ d)
    · exact absurd reaches (not_reaches_self a d)

theorem authorised_issueWipe {auth : AuthUser} (own : OwnTarget s auth.userId request) :
    Authorised s auth.userId request (OnOk fun _ => True)
      (issueWipe chrono auth request).run := by
  refine Secures.run_bind authorised_checkRateLimit fun passes _ => ?_
  split
  · refine Secures.run_bind (authorised_issueTargets own) fun targets allowed => ?_
    split
    · exact secures_run_throw
    · refine Secures.run_bind (authorised_issue allowed) fun id _ => ?_
      refine Secures.run_bind (authorised_sendToEach allowed (List.Subset.refl _)) fun _ _ => ?_
      exact secures_run_pure trivial
  · exact secures_run_throw

/-- Storing a wipe of a device reaches it: in a store without keys. -/
theorem reaches_set (s : Server) (d : Uuid) (id : String) (value : Bytes) :
    Reaches { s with redis := .empty 0 }
      { s with
        redis := Store.set (.empty 0) (wipeKey d id) value (some WIPE_TTL_SECONDS.toNat) } d := by
  have lasts : ∀ n ∈ some WIPE_TTL_SECONDS.toNat, 0 < n := by decide
  refine Or.inl ⟨id, ?_, ?_⟩
  · rw [Store.get?_set lasts]
    rfl
  · rw [Store.peek_set lasts]
    exact Option.some_ne_none _

theorem ownTarget_of_wipeCommand
    (authorised : Authorised s user request (OnOk fun _ => True)
      (wipeCommand chrono user sender request).run) : OwnTarget s user request := by
  intro device d named
  obtain ⟨wipeType, target, partner⟩ := request
  obtain rfl : wipeType = .device := device
  obtain rfl : target = some d := named
  have drawn := authorised {} s trivial fun _ _ => Iff.rfl
  have timed := drawn.2.2 {} s trivial fun _ _ => Iff.rfl
  have stored := timed.2.2 {} { s with redis := .empty 0 } trivial fun _ _ => Iff.rfl
  rcases stored.2.1 d (reaches_set s d _ _) with owns | ⟨other, -⟩
  · exact owns
  · cases other

theorem ownTarget_of_issueWipe {auth : AuthUser}
    (authorised : Authorised s auth.userId request (OnOk fun _ => True)
      (issueWipe chrono auth request).run) : OwnTarget s auth.userId request := by
  intro device d named
  obtain ⟨wipeType, target, partner⟩ := request
  obtain rfl : wipeType = .device := device
  obtain rfl : target = some d := named
  have passed := authorised {} { s with rateLimiter := fun _ => [] } trivial fun _ _ => Iff.rfl
  have drawn := passed.2.2 {} s trivial fun _ _ => Iff.rfl
  have timed := drawn.2.2 {} s trivial fun _ _ => Iff.rfl
  have stored := timed.2.2 {} { s with redis := .empty 0 } trivial fun _ _ => Iff.rfl
  rcases stored.2.1 d (reaches_set s d _ _) with owns | ⟨other, -⟩
  · exact owns
  · cases other

end

/-- While the rows of devices stay, a wipe through either way reaches only devices its issuer
may wipe, exactly when it names no device of another user. -/
theorem wipe_authorised_iff (config : AppConfig) (chrono : Chrono) (s : Server)
    (auth : AuthUser) (sender : Uuid)
    (request : WipeRequest) :
    (Authorised s auth.userId request (OnOk fun _ => True)
        (handleWsMessage config chrono auth.userId sender (.wipeCommand request)).run ↔
      OwnTarget s auth.userId request) ∧
    (Authorised s auth.userId request (OnOk fun _ => True) (issueWipe chrono auth request).run ↔
      OwnTarget s auth.userId request) :=
  ⟨⟨ownTarget_of_wipeCommand, authorised_wipeCommand⟩,
    ⟨ownTarget_of_issueWipe, authorised_issueWipe⟩⟩

/-- The server after one device was wiped under an identifier. -/
def wiped (chrono : Chrono) (s : Server) (request : WipeRequest) (d id : Uuid) : Server :=
  { s with
    redis := s.redis.set (wipeKey d id.display) (Json.toVec
      (PendingWipe.toJson chrono ⟨id.display, request, s.redis.now⟩))
        (some WIPE_TTL_SECONDS.toNat) }

/-- A wipe of one device that is offline may get any identifier. -/
theorem wipeCommand_returns (chrono : Chrono) (s : Server) (user sender d : Uuid)
    (partner : Option Uuid) (id : Uuid) (offline : s.connections d = none) :
    Runs Clean (wipeCommand chrono user sender ⟨.device, some d, partner⟩).run s (.ok ())
      (wiped chrono s ⟨.device, some d, partner⟩ d id) := by
  have targets : Runs Clean (wipeTargets user ⟨.device, some d, partner⟩).run s (.ok [d]) s :=
    runs_run_pure.mpr ⟨rfl, rfl⟩
  refine runs_run_bind_ok.mpr ⟨[d], s, targets, ?_⟩
  simp only [runs_run_bind_ok, runs_adapt, runs_onRedis, runs_run_lift]
  refine ⟨id.display, _, ⟨_, ⟨_, runs_issueWipe.mpr ⟨id, rfl, rfl⟩, rfl⟩, rfl⟩, (), ?_, trivial⟩
  refine (runs_sendToEach_offline fun d' member => ?_).mpr rfl
  obtain rfl := List.mem_singleton.mp (List.mem_filter.mp member).1
  exact offline

/-- User 4 wipes a device of user 2. -/
theorem wipe_reaches_foreign :
    let phone : Uuid := .replicate 16 1
    let start := Server.start 0 { devices := [.sample phone (.replicate 16 2)] }
    let request : WipeRequest := ⟨.device, some phone, none⟩
    ∃ s, Runs Clean (handleWsMessage ⟨none, ""⟩ Chrono.sample (.replicate 16 4) (.replicate 16 6)
        (.wipeCommand request)).run start (.ok ()) s ∧
      Reaches start s phone ∧ ¬ MayWipe start (.replicate 16 4) request phone := by
  intro phone start request
  have lasts : ∀ n ∈ some WIPE_TTL_SECONDS.toNat, 0 < n := by decide
  refine ⟨_, wipeCommand_returns Chrono.sample start _ _ phone none (.replicate 16 9) rfl, ?_, ?_⟩
  · refine Or.inl ⟨Uuid.display (.replicate 16 9), ?_, ?_⟩
    · rw [wiped, Store.get?_set lasts]
      rfl
    · rw [wiped, Store.peek_set lasts]
      exact Option.some_ne_none _
  · rintro (⟨row, member, -, other⟩ | ⟨other, -⟩)
    · obtain rfl := List.mem_singleton.mp member
      revert other
      decide
    · cases other

end Hysj.Api
