import Hysj.Api.Durability
import Hysj.Api.MediaKeys
import Hysj.Api.Otp
import Hysj.Api.Wipe
import Hysj.Api.Deliveries
import Hysj.Messaging.Sources

set_option autoImplicit false

/- Everything that writes to the queue, to the channels and to the push service, in any order of the
steps, and where what they hold comes from. -/
namespace Hysj.Shared

/-- The server hands such a message on as it is. -/
def WsMessage.Forwarded : WsMessage → Prop
  | .sendMessage _ | .delivered _ | .wipeAck _ | .error _ => False
  | .sendGroupMessage _ _ | .typing _ | .read _ | .wipeCommand _ | .saveInChat _ | .reaction _
  | .callSignal _ | .pinMessage _ => True

end Hysj.Shared

namespace Hysj.Api

open Crypto Shared Messaging Program

structure RegisterPushTokenRequest where
  /-- FCM or APNs token -/
  pushToken : String
  /-- "fcm" or "apns" -/
  platform : String

structure PushTokenResponse where
  message : String

namespace Push

/-- `.map_err(|e| AppError(HysjError::InternalError(e.to_string())))` at an error of Redis itself.
-/
def onPush {α : Type} (t : Command α) : Task HysjError α :=
  ExceptT.adapt (fun e => match e with
    | .redisError message => .internalError message
    | other => .internalError other.display) (onRedis t)

/-- `POST /api/push/register` -/
def registerPushToken (auth : AuthUser) (request : RegisterPushTokenRequest) :
    Task HysjError PushTokenResponse := do
  if request.pushToken = "" then throw (.validationError "Push token cannot be empty")
  else if request.platform ≠ "fcm" ∧ request.platform ≠ "apns" then
    throw (.validationError "Platform must be 'fcm' or 'apns'")
  else
    onPush (registerPush auth.deviceId request.platform request.pushToken)
    return ⟨"Push token registered"⟩

/-- `POST /api/push/unregister` -/
def unregisterPushToken (auth : AuthUser) : Task HysjError PushTokenResponse := do
  onPush (unregisterPush auth.deviceId)
  return ⟨"Push tokens removed"⟩

end Push

/-- The keys of the relay: what is queued, what is to be wiped, and where to push. -/
def RelayKey (key : String) : Prop :=
  ∃ d id, key = msgKey d id ∨ key = wipeKey d id ∨ key = pushKey d id

/-- The step leaves the relay alone. -/
structure Uninvolved (s s' : Server) : Prop where
  stored : ∀ key, RelayKey key → Leaves key s.redis s'.redis
  sent : s'.sent = s.sent
  pushed : s'.pushed = s.pushed

inductive RelayCall where
  | receive (userId senderDeviceId : Uuid) (text : String)
  | arrive (deviceId : Uuid) (socket : SocketId) (pages : Nat)
  | leave (deviceId : Uuid) (socket : SocketId)
  | issueWipe (auth : AuthUser) (request : WipeRequest)
  | registerPush (auth : AuthUser) (request : RegisterPushTokenRequest)
  | unregisterPush (auth : AuthUser)
  | media (call : MediaCall)
  | sendOtp (headers : HeaderMap) (request : SendOtpRequest)
  | verifyOtp (request : VerifyOtpRequest)
  | wipeSweep (rounds pages : Nat)
  | expirySweep (pages : Nat)
  /-- any that only works on the tables, the registry and other keys -/
  | other (program : Program Chance Server Unit) (uninvolved : Keeps Uninvolved program)

/-- How the server is configured, and what it rests on. -/
structure RelaySetup where
  config : AppConfig
  chrono : Chrono
  serde : SerdeJson
  accepts : SmsRequest → Bool
  twilio : Option TwilioConfig

def RelayCall.program (x : RelaySetup) : RelayCall → Program Chance Server Unit
  | .receive userId sender text => receiveText x.config x.chrono x.serde userId sender text
  | .arrive deviceId socket pages => arriveSocket x.chrono x.serde deviceId socket pages
  | .leave deviceId socket => leaveSocket deviceId socket
  | .issueWipe auth request => (fun _ => ()) <$> (Api.issueWipe x.chrono auth request).run
  | .registerPush auth request => (fun _ => ()) <$> (Push.registerPushToken auth request).run
  | .unregisterPush auth => (fun _ => ()) <$> (Push.unregisterPushToken auth).run
  | .media call => (fun _ => ()) <$> call.program x.serde
  | .sendOtp headers request =>
      (fun _ => ()) <$> (Api.sendOtp x.accepts x.twilio headers request).run
  | .verifyOtp request => (fun _ => ()) <$> (verifyOtpCode request).run
  | .wipeSweep rounds pages =>
      (fun _ => ()) <$> (wipePending x.serde x.chrono rounds pages .zero).run
  | .expirySweep pages => messageExpiry pages
  | .other program _ => program

abbrev RelayCalls := Pool Chance Server RelayCall Unit

abbrev RelayEvent := Pool.Event Chance RelayCall

/-- A call is made, a call takes its next step, or time passes. -/
def RelayCalls.step (x : RelaySetup) (q : RelayCalls) (e : RelayEvent) : Option RelayCalls :=
  Pool.step (RelayCall.program x) (fun seconds s => s.wait seconds) q e

/-- Calls from the first state on, in any order of their steps. -/
abbrev RelayRun (x : RelaySetup) (first : Server)
    (steps : List (RelayCalls × RelayEvent × RelayCalls)) (q : RelayCalls) : Prop :=
  Trail (fun q e q' => RelayCalls.step x q e = some q') ⟨first, []⟩ steps q

/-- A device has sent a text that is read as the message. -/
def Receives (x : RelaySetup) (made : RelayCall → Prop) (userId sender : Uuid)
    (message : WsMessage) :
    Prop :=
  ∃ text, made (.receive userId sender text) ∧ WsMessage.fromStr x.serde text = .ok message

/-- Why a message is on its way to a device: a client sent it to the device, or to others and the
server forwards it, or to a group and it is queued, or a user asked for a wipe, or it answers a text
of the device itself that was no message or could not be handled. -/
inductive Origin (x : RelaySetup) (made : RelayCall → Prop) (d : Uuid) : WsMessage → Prop where
  | direct {userId sender : Uuid} {envelope : EncryptedEnvelope}
      (received : Receives x made userId sender (.sendMessage envelope))
      (addressed : envelope.recipientDeviceId = d) : Origin x made d (.sendMessage envelope)
  | forwarded {userId sender : Uuid} {message : WsMessage}
      (received : Receives x made userId sender message) (forwards : message.Forwarded) :
      Origin x made d message
  | group {userId sender groupId : Uuid} {envelope : EncryptedEnvelope}
      (received : Receives x made userId sender (.sendGroupMessage groupId envelope)) :
      Origin x made d (.sendMessage envelope)
  | asked {auth : AuthUser} {request : WipeRequest} (asked : made (.issueWipe auth request)) :
      Origin x made d (.wipeCommand request)
  | unread {userId : Uuid} {text e : String} (received : made (.receive userId d text))
      (refused : WsMessage.fromStr x.serde text = .error e) :
      Origin x made d (.error ("Invalid message format: " ++ e))
  | unhandled {userId : Uuid} {message : WsMessage} {e : String}
      (received : Receives x made userId d message) : Origin x made d (.error e)

/-- A client has sent a message to a device. -/
def SentTo (x : RelaySetup) (made : RelayCall → Prop) (d : Uuid) : Prop :=
  ∃ userId sender envelope, Receives x made userId sender (.sendMessage envelope) ∧
    envelope.recipientDeviceId = d

/-- A device has registered a token for itself. -/
def Subscribed (made : RelayCall → Prop) (d : Uuid) (token : String) : Prop :=
  ∃ auth, made (.registerPush auth ⟨token, "fcm"⟩) ∧ auth.deviceId = d ∧ token ≠ ""

/-- A push for a message that was sent to a device goes to a token of the device. It tells nothing
of the message. -/
def Announces (x : RelaySetup) (made : RelayCall → Prop) (request : PushRequest) : Prop :=
  ∃ d key token, SentTo x made d ∧ x.config.fcmServerKey = some key ∧ Subscribed made d token ∧
    request = ⟨"key=" ++ key, pushBody token "Hysj" "New message"⟩

/-- What may be stored under a key, go into a channel, or be pushed. -/
structure Licence where
  store : String → Bytes → Prop
  send : Uuid → String → Prop
  push : PushRequest → Prop

/-- What is there is what may be. -/
structure Licensed (l : Licence) (s : Server) : Prop where
  stored : HoldsOnly l.store s.redis
  sent : ∀ f ∈ s.sent, l.send f.deviceId f.text
  pushed : ∀ request ∈ s.pushed, l.push request

/-- What becomes new is what may be. -/
structure Within (l : Licence) (s s' : Server) : Prop where
  stored : AddsOnly l.store s.redis s'.redis
  sent : ∀ f ∈ s'.sent, f ∈ s.sent ∨ l.send f.deviceId f.text
  pushed : ∀ request ∈ s'.pushed, request ∈ s.pushed ∨ l.push request

def Licence.Allows (l : Licence) : Effect → Prop
  | .send d text => l.send d text
  | .push request => l.push request
  | .store change => change.Stores l.store
  | .disconnect _ | .pins _ | .limit _ _ => True

section

variable {l : Licence} {s s' : Server}

theorem Licensed.within (licensed : Licensed l s) (within : Within l s s') : Licensed l s' where
  stored := licensed.stored.adds within.stored
  sent f member := (within.sent f member).elim (licensed.sent f) id
  pushed request member := (within.pushed request member).elim (licensed.pushed request) id

theorem within_of_same (redis : s'.redis = s.redis) (sent : s'.sent = s.sent)
    (pushed : s'.pushed = s.pushed) : Within l s s' := by
  constructor
  · rw [redis]
    exact adds_refl s.redis
  · rw [sent]
    exact fun _ member => Or.inl member
  · rw [pushed]
    exact fun _ member => Or.inl member

theorem within_refl (s : Server) : Within l s s := within_of_same rfl rfl rfl

theorem within_of_redis {r : Redis} (adds : AddsOnly l.store s.redis r) :
    Within l s { s with redis := r } := ⟨adds, fun _ => Or.inl, fun _ => Or.inl⟩

theorem within_of_does (does : Does Effect.apply l.Allows s s') : Within l s s' := by
  obtain rfl | ⟨effect, allowed, rfl⟩ := does
  · exact within_refl s'
  · cases effect with
    | send d text =>
        simp only [Effect.apply]
        split
        · exact within_refl s
        · split
          · exact within_refl s
          · refine ⟨adds_refl _, fun f member => ?_, fun _ => Or.inl⟩
            rcases List.mem_append.mp member with old | new
            · exact Or.inl old
            · obtain rfl := List.mem_singleton.mp new
              exact Or.inr allowed
    | push request =>
        refine ⟨adds_refl _, fun _ => Or.inl, fun request' member => ?_⟩
        rcases List.mem_append.mp member with old | new
        · exact Or.inl old
        · obtain rfl := List.mem_singleton.mp new
          exact Or.inr allowed
    | store change => exact within_of_redis (adds_of_does (Or.inr ⟨change, allowed, rfl⟩))
    | disconnect d => exact within_of_same rfl rfl rfl
    | pins rows => exact within_of_same rfl rfl rfl
    | limit key times => exact within_of_same rfl rfl rfl

end

/-- While everything there is what may be, only what may be becomes new, and what comes out
satisfies `Q`. -/
abbrev Obeys {α : Type} (l : Licence) (Q : α → Prop) (t : Program Chance Server α) : Prop :=
  Secures (fun _ _ => True) (Licensed l) (Within l) Q t

section

variable {l : Licence} {α β ε : Type} {P Q : α → Prop}

theorem obeys_of_keeps {t : Program Chance Server α} (keeps : Keeps (Within l) t) :
    Obeys l (fun _ => True) t := keeps.secures fun _ _ licensed within => licensed.within within

theorem obeys_of_effects {t : Program Chance Server α} (effects : Effects l.Allows t) :
    Obeys l (fun _ => True) t := obeys_of_keeps (effects.mono fun _ _ => within_of_does)

theorem obeys_ok {t : Task ε α} (obeys : Obeys l (fun _ => True) t.run) :
    Obeys l (OnOk fun _ => True) t.run :=
  obeys.mono (fun _ _ _ within => within) fun _ _ _ _ => trivial

theorem obeys_onRedis {t : Command α} (fetches : Fetches l.store P t) :
    Obeys l (OnOk P) (onRedis t).run :=
  fetches.zoomed (fun _ licensed => licensed.stored) fun _ _ licensed adds =>
    ⟨licensed.within (within_of_redis adds), within_of_redis adds⟩

theorem Obeys.discard {t : Program Chance Server α} (obeys : Obeys l Q t) (f : α → β) :
    Obeys l (fun _ => True) (f <$> t) := obeys.map fun _ _ => trivial

end

/-- What is stored, sent and pushed on account of the calls that were made. -/
def licence (x : RelaySetup) (made : RelayCall → Prop) : Licence where
  store key value :=
    (∀ d id, key = msgKey d id → ∃ envelope : EncryptedEnvelope, envelope.messageId = id ∧
      value = envelopeBlob envelope ∧ Origin x made d (.sendMessage envelope)) ∧
    (∀ d id, key = wipeKey d id → ∃ wipe : PendingWipe,
      value = Json.toVec (wipe.toJson x.chrono) ∧ Origin x made d (.wipeCommand wipe.command)) ∧
    ∀ d, key = pushKey d "fcm" → ∃ token, value = strBytes token ∧ Subscribed made d token
  send d text := ∃ message : WsMessage, text = message.text ∧ Origin x made d message
  push := Announces x made

theorem msgKey_ne_pushKey (d d' : Uuid) (id id' : String) : msgKey d id ≠ pushKey d' id' := by
  intro same
  have heads := congrArg (fun key => key.toList.head?) same
  simp at heads

theorem wipeKey_ne_pushKey (d d' : Uuid) (id id' : String) : wipeKey d id ≠ pushKey d' id' := by
  intro same
  have heads := congrArg (fun key => key.toList.head?) same
  simp at heads

section

variable {x : RelaySetup} {made : RelayCall → Prop} {d : Uuid} {key id : String} {value : Bytes}

theorem store_message {envelope : EncryptedEnvelope}
    (origin : Origin x made d (.sendMessage envelope)) :
    (licence x made).store (msgKey d envelope.messageId) (envelopeBlob envelope) := by
  refine ⟨fun d' id same => ?_, fun d' id same => ?_, fun d' same => ?_⟩
  · obtain ⟨rfl, rfl⟩ := msgKey_inj.mp same
    exact ⟨envelope, rfl, rfl, origin⟩
  · exact absurd same (msgKey_ne_wipeKey _ _ _ _)
  · exact absurd same (msgKey_ne_pushKey _ _ _ _)

theorem store_wipe {wipe : PendingWipe} (origin : Origin x made d (.wipeCommand wipe.command)) :
    (licence x made).store (wipeKey d id) (Json.toVec (wipe.toJson x.chrono)) := by
  refine ⟨fun d' id' same => ?_, fun d' id' same => ?_, fun d' same => ?_⟩
  · exact absurd same.symm (msgKey_ne_wipeKey _ _ _ _)
  · obtain ⟨rfl, -⟩ := wipeKey_inj.mp same
    exact ⟨wipe, rfl, origin⟩
  · exact absurd same (wipeKey_ne_pushKey _ _ _ _)

theorem store_token {platform token : String}
    (registered : platform = "fcm" → Subscribed made d token) :
    (licence x made).store (pushKey d platform) (strBytes token) := by
  refine ⟨fun d' id same => ?_, fun d' id same => ?_, fun d' same => ?_⟩
  · exact absurd same.symm (msgKey_ne_pushKey _ _ _ _)
  · exact absurd same.symm (wipeKey_ne_pushKey _ _ _ _)
  · obtain ⟨rfl, is⟩ := keyPrefix_append_inj.mp same
    exact ⟨token, rfl, registered is⟩

theorem store_other (other : ¬ RelayKey key) : (licence x made).store key value :=
  ⟨fun d id same => absurd ⟨d, id, Or.inl same⟩ other,
    fun d id same => absurd ⟨d, id, Or.inr (Or.inl same)⟩ other,
    fun d same => absurd ⟨d, "fcm", Or.inr (Or.inr same)⟩ other⟩

theorem Uninvolved.within {s s' : Server} (uninvolved : Uninvolved s s') :
    Within (licence x made) s s' := by
  refine ⟨fun key value found => ?_, fun f member => ?_, fun request member => ?_⟩
  · by_cases relay : RelayKey key
    · rw [Store.get?, (uninvolved.stored key relay).2] at found
      exact Or.inl found
    · exact Or.inr (store_other relay)
  · rw [uninvolved.sent] at member
    exact Or.inl member
  · rw [uninvolved.pushed] at member
    exact Or.inl member

theorem maySend_origin {message : WsMessage} (origin : Origin x made d message) :
    MaySend (licence x made).Allows d message.text := ⟨⟨message, rfl, origin⟩, trivial⟩

theorem stores_issueWipe {may : String → Bytes → Prop} {chrono : Chrono} {targets : List Uuid}
    {command : WipeRequest} (allowed : ∀ d ∈ targets, ∀ wipe : PendingWipe, wipe.command = command →
      may (wipeKey d wipe.wipeId) (Json.toVec (wipe.toJson chrono))) :
    Changes (Change.Stores may) (Messaging.issueWipe chrono targets command) := by
  refine Keeps.run_bind (Keeps.lift (keeps_act fun _ _ => Or.inl rfl)) fun id => ?_
  refine Keeps.run_bind (Keeps.lift (keeps_act fun _ _ => Or.inl rfl)) fun now => ?_
  refine Keeps.run_bind (Keeps.run_forM fun d member => ?_) fun _ => keeps_pure _
  exact changes_setEx fun _ => allowed d member ⟨id.display, command, now⟩ rfl

theorem effects_issueOrigin {targets : List Uuid} {request : WipeRequest}
    (origin : ∀ d, Origin x made d (.wipeCommand request)) : Effects (licence x made).Allows
      (onRedis (Messaging.issueWipe x.chrono targets request)).run :=
  effects_onRedis (stores_issueWipe fun d _ _ is => store_wipe (is ▸ origin d))

theorem effects_enqueueOrigin {envelope : EncryptedEnvelope}
    (origin : Origin x made d (.sendMessage envelope)) : Effects (licence x made).Allows
      (onRedis (enqueue d envelope.messageId (envelopeBlob envelope) (messageTtl envelope))).run :=
  effects_onRedis (changes_enqueue fun _ => store_message origin)

/-- A push is for the device, and goes to a token that the device has registered. -/
theorem obeys_sendPushNotification {key : String} (configured : x.config.fcmServerKey = some key)
    (sent : SentTo x made d) : Obeys (licence x made) (OnOk fun _ => True)
      (sendPushNotification key d "Hysj" "New message").run := by
  refine Secures.run_bind (obeys_onRedis (fetches_get _)).adapt fun found stored => ?_
  cases found with
  | none => exact secures_run_pure trivial
  | some bytes =>
      obtain ⟨token, rfl, subscribed⟩ := (stored bytes rfl).2.2 d rfl
      simp only [fromUtf8_strBytes]
      refine secures_act fun c s _ licensed => ?_
      have announced : Within (licence x made) s { s with
          pushed := s.pushed ++ [⟨"key=" ++ key, pushBody token "Hysj" "New message"⟩] } :=
        within_of_does (Or.inr ⟨.push _, ⟨d, key, token, sent, configured, subscribed, rfl⟩, rfl⟩)
      cases c.fault with
      | some e => exact ⟨licensed, within_refl s, fun _ _ => trivial⟩
      | none => exact ⟨licensed.within announced, announced, fun _ _ => trivial⟩

theorem obeys_sendMessage {userId sender : Uuid} {envelope : EncryptedEnvelope}
    (received : Receives x made userId sender (.sendMessage envelope)) :
    Obeys (licence x made) (OnOk fun _ => True) (sendMessage x.config envelope).run := by
  have origin :
      Origin x made envelope.recipientDeviceId (.sendMessage envelope) := .direct received rfl
  refine Secures.run_bind (obeys_of_effects (effects_sendToDevice (maySend_origin origin))).lift
    fun sent _ => ?_
  cases sent with
  | true => exact secures_run_pure trivial
  | false =>
      refine Secures.run_bind (P := fun _ => True)
        (obeys_ok (obeys_of_effects (effects_enqueueOrigin origin))).adapt fun _ _ => ?_
      split
      · rename_i key configured
        have sentTo : SentTo x made envelope.recipientDeviceId :=
          ⟨userId, sender, envelope, received, rfl⟩
        have pushed := obeys_sendPushNotification configured sentTo
        exact Secures.run_bind pushed.attempt fun _ _ => secures_run_pure trivial
      · exact secures_run_pure trivial

theorem effects_sendGroup {userId sender groupId : Uuid} {envelope : EncryptedEnvelope}
    (received : Receives x made userId sender (.sendGroupMessage groupId envelope)) :
    Effects (licence x made).Allows (sendGroupMessage userId groupId envelope).run := by
  refine Keeps.run_bind (effects_query fun _ _ => rfl).adapt fun members => ?_
  refine Keeps.run_bind (effects_devicesOrNone (reads_listByUsers _)) fun devices => ?_
  refine Keeps.run_forM fun device _ => ?_
  refine Keeps.run_bind (effects_sendToDevice (maySend_origin (.forwarded received trivial))).lift
    fun sent => ?_
  cases sent with
  | true => exact keeps_pure _
  | false =>
      exact Keeps.run_bind (effects_enqueueOrigin (.group received)).attempt fun _ => keeps_pure _

theorem effects_pin {userId : Uuid} {pin : PinMessage}
    (origin : ∀ d, Origin x made d (.pinMessage pin)) :
    Effects (licence x made).Allows (pinMessage userId pin).run := by
  refine Keeps.run_bind (effects_query fun _ _ => rfl).attempt fun isMember => ?_
  split
  · refine Keeps.run_bind (Keeps.adapt (keeps_act fun c s => ?_)) fun _ => ?_
    · split
      · exact Or.inl rfl
      · obtain ⟨rows, pins⟩ := pins_pin pin userId s.db
        rw [pins]
        exact Or.inr ⟨.pins rows, trivial, rfl⟩
    · refine Keeps.run_bind (effects_query fun _ _ => rfl).attempt fun members => ?_
      refine Keeps.run_bind (effects_devicesOrNone (reads_listByUsers _)) fun devices => ?_
      exact (effects_sendToEach fun d _ => maySend_origin (origin d)).lift
  · exact keeps_pure _

/-- Whatever a client sends, handling it does what the message accounts for. -/
theorem obeys_handleWsMessage {userId sender : Uuid} {message : WsMessage}
    (received : Receives x made userId sender message) : Obeys (licence x made) (fun _ => True)
      (handleWsMessage x.config x.chrono userId sender message).run := by
  have forwards (forwarded : message.Forwarded) (d : Uuid) :
      MaySend (licence x made).Allows d message.text :=
    maySend_origin (.forwarded received forwarded)
  cases message with
  | sendMessage envelope =>
      exact (obeys_sendMessage received).mono (fun _ _ _ within => within) fun _ _ => trivial
  | sendGroupMessage group envelope => exact obeys_of_effects (effects_sendGroup received)
  | delivered ack =>
      refine obeys_of_effects
        (Keeps.run_bind (Keeps.adapt (effects_onRedis ?_)) fun _ => keeps_pure _)
      exact changes_deleteMessage trivial
  | wipeAck ack =>
      refine obeys_of_effects
        (Keeps.run_bind (Keeps.adapt (effects_onRedis ?_)) fun _ => keeps_pure _)
      exact changes_confirmWipe trivial
  | wipeCommand request =>
      refine obeys_of_effects (Keeps.run_bind effects_wipeTargets fun targets => ?_)
      refine Keeps.run_bind
        (effects_issueOrigin fun d => .forwarded received trivial).adapt fun _ => ?_
      exact (effects_sendToEach fun d _ => forwards trivial d).lift
  | pinMessage pin => exact obeys_of_effects (effects_pin fun d => .forwarded received trivial)
  | typing indicator =>
      exact obeys_of_effects (effects_sendToUserDevices (forwards trivial)).lift
  | read receipt => exact obeys_of_effects (effects_sendToUserDevices (forwards trivial)).lift
  | saveInChat save => exact obeys_of_effects (effects_sendToUserDevices (forwards trivial)).lift
  | reaction change => exact obeys_of_effects (effects_sendToUserDevices (forwards trivial)).lift
  | callSignal signal => exact obeys_of_effects (effects_sendToUserDevices (forwards trivial)).lift
  | error message => exact secures_pure trivial

theorem effects_sendToSelf {e : String} (origin : Origin x made d (.error e)) :
    Effects (licence x made).Allows (sendToSelf d e) :=
  Keeps.bind (effects_sendToDevice (maySend_origin origin)) fun _ => keeps_pure _

theorem obeys_receiveText {userId sender : Uuid} {text : String}
    (received : made (.receive userId sender text)) : Obeys (licence x made) (fun _ => True)
      (receiveText x.config x.chrono x.serde userId sender text) := by
  unfold receiveText
  split
  · rename_i message read
    have receives : Receives x made userId sender message := ⟨text, received, read⟩
    refine Secures.bind (obeys_handleWsMessage receives) fun outcome _ => ?_
    cases outcome with
    | ok _ => exact secures_pure trivial
    | error e => exact obeys_of_effects (effects_sendToSelf (.unhandled receives))
  · rename_i e refused
    exact obeys_of_effects (effects_sendToSelf (.unread received refused))

variable (lawful : x.serde.Lawful) (inverse : x.chrono.Inverse)

include lawful in
/-- What is taken from the queue of a device is delivered as the message it was stored for. -/
theorem effects_deliverQueued {queued : QueuedMessage}
    (stored : (licence x made).store (msgKey d id) queued.encryptedBlob) :
    Effects (licence x made).Allows (deliverQueued x.serde d queued) := by
  obtain ⟨envelope, -, is, origin⟩ := stored.1 d id rfl
  have read : (x.serde.fromSlice queued.encryptedBlob).toOption.bind EncryptedEnvelope.ofJson =
      some envelope := by
    rw [is, envelopeBlob, lawful, EncryptedEnvelope.toJson]
    change Option.bind (some _) EncryptedEnvelope.ofJson = _
    rw [Option.bind_some, EncryptedEnvelope.ofJson_members]
  rw [deliverQueued, read]
  exact Keeps.bind (effects_sendToDevice (maySend_origin origin)) fun _ => keeps_pure _

include lawful in
theorem obeys_deliverPendingMessages (pages : Nat) :
    Obeys (licence x made) (fun _ => True) (deliverPendingMessages x.serde pages d) := by
  refine Secures.bind (obeys_onRedis (fetches_dequeueAll pages)) fun outcome queued => ?_
  cases outcome with
  | error e => exact secures_pure trivial
  | ok messages =>
      refine obeys_of_effects (keeps_forM fun message member => ?_)
      obtain ⟨id, stored⟩ := queued messages rfl message member
      exact effects_deliverQueued lawful stored

include lawful inverse in
theorem obeys_sendWipes {wipes : List PendingWipe}
    (awaited : Awaited x.serde x.chrono (licence x made).store d wipes) :
    Obeys (licence x made) (fun _ => True) (sendWipes d wipes) := by
  refine obeys_of_effects (keeps_forM fun wipe member => ?_)
  obtain ⟨id, value, stored, read⟩ := awaited wipe member
  obtain ⟨wipe', rfl, origin⟩ := stored.2.1 d id rfl
  rw [PendingWipe.fromSlice_toVec lawful inverse] at read
  obtain rfl := Option.some.inj read
  exact Keeps.bind (effects_sendToDevice (maySend_origin origin)) fun _ => keeps_pure _

include lawful inverse in
theorem obeys_deliverPendingWipes (pages : Nat) :
    Obeys (licence x made) (fun _ => True) (deliverPendingWipes x.serde x.chrono pages d) := by
  refine Secures.bind (obeys_onRedis (fetches_getPendingWipes pages)) fun outcome awaited => ?_
  cases outcome with
  | error e => exact secures_pure trivial
  | ok wipes => exact obeys_sendWipes lawful inverse (awaited wipes rfl)

theorem within_markOnline {online : Bool} {c : Chance} {s : Server} :
    Within (licence x made) s (markOnline d online c s) := by
  unfold markOnline
  split
  · exact within_refl s
  · exact within_of_same rfl rfl rfl

include lawful inverse in
theorem obeys_arriveSocket (socket : SocketId) (pages : Nat) :
    Obeys (licence x made) (fun _ => True)
    (arriveSocket x.chrono x.serde d socket pages) := by
  have connects : Obeys (licence x made) (fun _ => True)
      (.act fun _ s => ((), s.connect d socket) : Program Chance Server Unit) :=
    obeys_of_keeps (keeps_act fun _ _ => within_of_same rfl rfl rfl)
  have marks : Obeys (licence x made) (fun _ => True)
      (.act fun c s => ((), markOnline d true c s) : Program Chance Server Unit) :=
    obeys_of_keeps (keeps_act fun _ _ => within_markOnline)
  refine connects.bind fun _ _ => marks.bind fun _ _ => ?_
  refine (obeys_deliverPendingMessages lawful pages).bind fun _ _ => ?_
  exact obeys_deliverPendingWipes lawful inverse pages

theorem keeps_leaveSocket (socket : SocketId) :
    Keeps (Within (licence x made)) (leaveSocket d socket) := by
  refine Keeps.bind (keeps_act fun _ _ => within_of_same rfl rfl rfl) fun _ => ?_
  refine Keeps.bind (keeps_act fun _ _ => within_of_same rfl rfl rfl) fun _ => ?_
  exact keeps_act fun _ _ => within_markOnline

include lawful inverse in
theorem obeys_sweepWipe (pages : Nat) (key : String) : Obeys (licence x made) (OnOk fun _ => True)
    (sweepWipe x.serde x.chrono pages key).run := by
  unfold sweepWipe
  split
  · exact secures_run_pure trivial
  · have looks (d : Uuid) : Obeys (licence x made) (fun _ => True)
        (atomically fun s => ((s.connections d).isSome, s) : Task MessagingError Bool).run :=
      obeys_of_keeps (Keeps.lift (keeps_act fun _ s => within_refl s))
    refine Secures.run_bind (obeys_ok (looks _)) fun connected _ => ?_
    split
    · refine Secures.run_bind (obeys_onRedis (fetches_getPendingWipes pages)).attempt
        fun outcome awaited => ?_
      split
      · exact (obeys_sendWipes lawful inverse (awaited _ rfl)).lift
      · exact secures_run_pure trivial
    · exact secures_run_pure trivial

include lawful inverse in
theorem obeys_wipePending (rounds pages : Nat) (cursor : Cursor) :
    Obeys (licence x made) (OnOk fun _ => True)
    (wipePending x.serde x.chrono rounds pages cursor).run := by
  induction rounds generalizing cursor with
  | zero => trivial
  | succ rounds ih =>
      refine Secures.run_bind (obeys_onRedis (fetches_scan cursor "wipe:")) fun found _ => ?_
      refine Secures.run_bind
        (Secures.run_forM fun key _ => obeys_sweepWipe lawful inverse pages key)
        fun _ _ => ?_
      split
      · exact secures_run_pure trivial
      · exact ih _

end

section

variable {α ε : Type} {key id : String}

theorem not_relayKey_of_head {c : Char} (head : key.toList.head? = some c)
    (other : c ≠ 'm' ∧ c ≠ 'w' ∧ c ≠ 'p') : ¬ RelayKey key := by
  rintro ⟨d, id, rfl | rfl | rfl⟩
  · rw [head_msgKey] at head
    exact other.1 (Option.some.inj head).symm
  · rw [head_wipeKey] at head
    exact other.2.1 (Option.some.inj head).symm
  · rw [head_pushKey] at head
    exact other.2.2 (Option.some.inj head).symm

theorem RelayKey.ne_media (relay : RelayKey key) : key ≠ mediaKey id ∧ key ≠ mediaMetaKey id := by
  have second (name : String) : (mediaKey name).toList[1]? = some 'e' := by simp [mediaKey]
  have apart (name : String) : key ≠ mediaKey name := by
    rintro rfl
    obtain ⟨d, id', same⟩ := relay
    rcases same with same | same | same
    · have chars := congrArg (fun key => key.toList[1]?) same
      simp [mediaKey, msgKey, keyPrefix] at chars
    · have heads := congrArg (fun key => key.toList.head?) same
      simp at heads
    · have heads := congrArg (fun key => key.toList.head?) same
      simp at heads
  exact ⟨apart id, apart (id ++ ":meta")⟩

theorem uninvolved_refl (s : Server) : Uninvolved s s := ⟨fun _ _ => leaves_refl _ _, rfl, rfl⟩

theorem uninvolved_onRedis {t : Command α}
    (leaves : ∀ key, RelayKey key → Keeps (Leaves key) t.run) :
    Keeps Uninvolved (onRedis t).run := by
  have all : Keeps (fun r r' => ∀ key, RelayKey key → Leaves key r r') t.run := keeps_all leaves
  exact all.zoom fun _ _ left => ⟨left, rfl, rfl⟩

theorem uninvolved_checkRateLimit {name : String} {maxRequests window : Nat} :
    Keeps Uninvolved (checkRateLimit name maxRequests window : Task ε Bool).run := by
  refine Keeps.lift (keeps_act fun _ s => ?_)
  dsimp only
  split
  · exact ⟨fun _ _ => leaves_refl _ _, rfl, rfl⟩
  · exact ⟨fun _ _ => leaves_refl _ _, rfl, rfl⟩

theorem uninvolved_onMedia {t : Command α}
    (leaves : ∀ key, RelayKey key → Keeps (Leaves key) t.run) : Keeps Uninvolved (onMedia t).run :=
  (uninvolved_onRedis leaves).adapt

variable {serde : SerdeJson} {kind : MediaKind}

theorem uninvolved_getMeta : Keeps Uninvolved (onMedia (getMeta serde id)).run :=
  uninvolved_onMedia fun _ _ => leaves_getMeta id

theorem uninvolved_storeMeta {d : Uuid} {duration : UInt32} {size ttl : UInt64} :
    Keeps Uninvolved (onMedia (storeMeta id d duration size ttl)).run :=
  uninvolved_onMedia fun _ relay => leaves_of_changes (changes_setEx fun _ => relay.ne_media.2)

theorem uninvolved_uploadMedia {body : Bytes} :
    Keeps Uninvolved (uploadMedia serde kind id body).run := by
  refine Keeps.run_bind uninvolved_getMeta fun info => ?_
  cases info with
  | none => exact keeps_pure _
  | some info =>
      dsimp only
      split
      · exact keeps_pure _
      · split
        · exact keeps_pure _
        · exact uninvolved_onMedia fun _ relay =>
            leaves_of_changes (changes_setEx fun _ => relay.ne_media.1)

theorem uninvolved_downloadMedia : Keeps Uninvolved (downloadMedia kind id).run := by
  refine Keeps.run_bind (uninvolved_onMedia fun _ relay =>
    leaves_retrieveAndExpire relay.ne_media.1 relay.ne_media.2) fun data => ?_
  cases data with
  | none => exact keeps_pure _
  | some data => exact keeps_pure _

theorem uninvolved_mediaInfo : Keeps Uninvolved (mediaInfo serde kind id).run := by
  refine Keeps.run_bind uninvolved_getMeta fun info => ?_
  cases info with
  | none => exact keeps_pure _
  | some info => exact keeps_pure _

theorem uninvolved_deleteMedia : Keeps Uninvolved (deleteMedia kind id).run := by
  refine Keeps.run_bind (uninvolved_onMedia fun _ relay =>
    leaves_deleteBlob relay.ne_media.1 relay.ne_media.2) fun deleted => ?_
  split
  · exact keeps_pure _
  · exact keeps_pure _

theorem uninvolved_random : Keeps Uninvolved (random : Task ε Uuid).run :=
  Keeps.lift (keeps_act fun _ s => uninvolved_refl s)

theorem MediaCall.uninvolved (call : MediaCall) : Keeps Uninvolved (call.program serde) := by
  cases call with
  | initAudio auth request =>
      refine Keeps.map (Keeps.run_bind uninvolved_checkRateLimit fun free => ?_) _
      split
      · split
        · exact keeps_pure _
        · split
          · exact keeps_pure _
          · refine Keeps.run_bind uninvolved_random fun audioId => ?_
            exact Keeps.run_bind uninvolved_storeMeta fun _ => keeps_pure _
      · exact keeps_pure _
  | initFile auth request =>
      refine Keeps.map (Keeps.run_bind uninvolved_checkRateLimit fun free => ?_) _
      split
      · split
        · exact keeps_pure _
        · split
          · exact keeps_pure _
          · refine Keeps.run_bind uninvolved_random fun fileId => ?_
            exact Keeps.run_bind uninvolved_storeMeta fun _ => keeps_pure _
      · exact keeps_pure _
  | uploadAudio id body => exact uninvolved_uploadMedia.map _
  | uploadFile id body => exact uninvolved_uploadMedia.map _
  | downloadAudio id => exact uninvolved_downloadMedia.map _
  | downloadFile id => exact uninvolved_downloadMedia.map _
  | audioMeta id => exact (Keeps.run_bind uninvolved_mediaInfo fun _ => keeps_pure _).map _
  | fileMeta id =>
      refine (Keeps.run_bind uninvolved_mediaInfo fun _ => ?_).map _
      exact Keeps.run_bind
        (Keeps.lift (keeps_act fun _ s => uninvolved_refl s)) fun _ => keeps_pure _
  | deleteAudio id => exact uninvolved_deleteMedia.map _
  | deleteFile id => exact uninvolved_deleteMedia.map _

theorem RelayKey.ne_otp (relay : RelayKey key) : key ≠ otpKey id ∧ key ≠ verifiedKey id := by
  constructor
  · rintro rfl
    exact not_relayKey_of_head (head_otpKey id) (by decide) relay
  · rintro rfl
    exact not_relayKey_of_head (head_verifiedKey id) (by decide) relay

theorem uninvolved_sendOtp {accepts : SmsRequest → Bool} {twilio : Option TwilioConfig}
    {headers : HeaderMap} {request : SendOtpRequest} :
    Keeps Uninvolved (sendOtp accepts twilio headers request).run := by
  refine Keeps.run_bind uninvolved_checkRateLimit fun free => ?_
  split
  · refine Keeps.run_bind uninvolved_checkRateLimit fun free => ?_
    split
    · split
      · refine Keeps.run_bind uninvolved_random fun id => ?_
        refine Keeps.run_bind (uninvolved_onRedis fun _ relay =>
          leaves_setText relay.ne_otp.1).adapt fun _ => ?_
        split
        · refine Keeps.run_bind (keeps_act fun c s => ?_) fun _ => keeps_pure _
          split
          · exact uninvolved_refl s
          · split <;> exact uninvolved_refl s
        · exact keeps_pure _
      · exact keeps_pure _
    · exact keeps_pure _
  · exact keeps_pure _

theorem uninvolved_verifyOtpCode {request : VerifyOtpRequest} :
    Keeps Uninvolved (verifyOtpCode request).run := by
  unfold verifyOtpCode
  split
  · exact keeps_pure _
  · refine Keeps.run_bind (uninvolved_onRedis fun _ relay =>
      leaves_verifyOtp relay.ne_otp.1).adapt fun valid => ?_
    split
    · refine Keeps.run_bind uninvolved_random fun token => ?_
      exact Keeps.run_bind (uninvolved_onRedis fun _ relay =>
        leaves_setText relay.ne_otp.2).adapt fun _ => keeps_pure _
    · exact keeps_pure _

end

section

variable {x : RelaySetup} {made : RelayCall → Prop} {l : Licence}

theorem effects_issueTargets {userId : Uuid} {request : WipeRequest} :
    Effects l.Allows (issueTargets userId request).run := by
  unfold issueTargets
  split
  · exact Keeps.run_bind (effects_query fun _ _ => rfl).adapt fun _ => keeps_pure _
  · split
    · exact keeps_pure _
    · exact keeps_pure _
  · split
    · exact keeps_pure _
    · refine Keeps.run_bind (effects_query fun _ _ => rfl).adapt fun _ => ?_
      exact Keeps.run_bind (effects_query fun _ _ => rfl).adapt fun _ => keeps_pure _

theorem effects_issue {auth : AuthUser} {request : WipeRequest}
    (asked : made (.issueWipe auth request)) :
    Effects (licence x made).Allows (issueWipe x.chrono auth request).run := by
  refine Keeps.run_bind (effects_checkRateLimit fun _ => trivial) fun free => ?_
  split
  · refine Keeps.run_bind effects_issueTargets fun targets => ?_
    split
    · exact keeps_pure _
    · refine Keeps.run_bind (effects_issueOrigin fun _ => .asked asked).adapt fun _ => ?_
      refine Keeps.run_bind (Keeps.lift (effects_sendToEach fun d _ => ?_)) fun _ => keeps_pure _
      exact maySend_origin (.asked asked)
  · exact keeps_pure _

theorem obeys_registerPush {auth : AuthUser} {request : RegisterPushTokenRequest}
    (registers : made (.registerPush auth request)) :
    Obeys (licence x made) (OnOk fun _ => True) (Push.registerPushToken auth request).run := by
  unfold Push.registerPushToken
  split
  · exact secures_run_throw
  · rename_i named
    split
    · exact secures_run_throw
    · have token (fcm : request.platform = "fcm") :
          Subscribed made auth.deviceId request.pushToken := by
        refine ⟨auth, ?_, rfl, named⟩
        rw [← fcm]
        exact registers
      have sets : Keeps (AddsOnly (licence x made).store)
          (registerPush auth.deviceId request.platform request.pushToken).run :=
        keeps_command adds_refl fun _ _ => adds_set (store_token token)
      have fetches : Fetches (licence x made).store (fun _ => True)
          (registerPush auth.deviceId request.platform request.pushToken) :=
        (sets.secures fun _ _ stocked adds => stocked.adds adds).mono (fun _ _ _ adds => adds)
          fun _ _ _ _ => trivial
      exact Secures.run_bind (obeys_onRedis fetches).adapt fun _ _ => secures_run_pure trivial

theorem effects_unregisterPush {auth : AuthUser} :
    Effects l.Allows (Push.unregisterPushToken auth).run := by
  refine Keeps.run_bind (Keeps.adapt (effects_onRedis ?_)) fun _ => keeps_pure _
  exact Keeps.run_forM fun platform _ => Keeps.run_bind (changes_del trivial) fun _ => keeps_pure _

/-- Every call does what the calls that were made account for, among any others. -/
theorem obeys_program (lawful : x.serde.Lawful) (inverse : x.chrono.Inverse) {call : RelayCall}
    (calls : made call) : Obeys (licence x made) (fun _ => True) (call.program x) := by
  have alone {t : Program Chance Server Unit} (uninvolved : Keeps Uninvolved t) :
      Obeys (licence x made) (fun _ => True) t :=
    obeys_of_keeps (uninvolved.mono fun _ _ => Uninvolved.within)
  cases call with
  | receive userId sender text => exact obeys_receiveText calls
  | arrive d socket pages => exact obeys_arriveSocket lawful inverse socket pages
  | leave d socket => exact obeys_of_keeps (keeps_leaveSocket socket)
  | issueWipe auth request => exact (obeys_of_effects (effects_issue calls)).discard _
  | registerPush auth request => exact (obeys_registerPush calls).discard _
  | unregisterPush auth => exact (obeys_of_effects effects_unregisterPush).discard _
  | media call => exact alone (call.uninvolved.map _)
  | sendOtp headers request => exact alone (uninvolved_sendOtp.map _)
  | verifyOtp request => exact alone (uninvolved_verifyOtpCode.map _)
  | wipeSweep rounds pages => exact (obeys_wipePending lawful inverse rounds pages .zero).discard _
  | expirySweep pages =>
      have sweeps : Effects (licence x made).Allows (messageExpiry pages) :=
        Keeps.bind
          (effects_onRedis (changes_expirySweep (fun _ _ => trivial) pages)) fun _ => keeps_pure _
      exact obeys_of_effects sweeps
  | other program uninvolved => exact alone uninvolved

end

section

variable {x : RelaySetup} {now : Nat} {db : Db.Tables} {q : RelayCalls}
variable {steps : List (RelayCalls × RelayEvent × RelayCalls)}

theorem licensed_start (l : Licence) : Licensed l (.start now db) where
  stored key value found := by
    obtain ⟨entry, there, -⟩ := Store.get?_eq_some.mp found
    rw [Server.start, Store.peek_empty] at there
    cases there
  sent f member := absurd member List.not_mem_nil
  pushed request member := absurd member List.not_mem_nil

theorem licensed_of_run (lawful : x.serde.Lawful) (inverse : x.chrono.Inverse)
    (run : RelayRun x (.start now db) steps q) : Licensed (licence x q.Made) q.state := by
  have passes (seconds : Nat) (s : Server) (licensed : Licensed (licence x q.Made) s) :
      Licensed (licence x q.Made) (s.wait seconds) :=
    licensed.within (within_of_redis adds_advance)
  exact (Pool.secured (licensed_start _) passes
    (fun _ calls => obeys_program lawful inverse calls) run
    fun _ member _ called => Pool.made_of_mem run member called).1

/-- Whatever is pushed is pushed for a message to a device, to a token that this device has
registered, and always with the same text. -/
theorem pushes_announce (lawful : x.serde.Lawful) (inverse : x.chrono.Inverse)
    (run : RelayRun x (.start now db) steps q) :
    ∀ request ∈ q.state.pushed, Announces x q.Made request :=
  (licensed_of_run lawful inverse run).pushed

end

def phoneSetup : RelaySetup := ⟨⟨some "key", "secret"⟩, .sample, .sample, fun _ => true, none⟩

def phoneAuth : AuthUser := ⟨.replicate 16 2, .replicate 16 1, "alice"⟩

def phoneMessage : WsMessage :=
  .sendMessage ⟨.replicate 16 1, "1", "", none, none, none, false⟩

/-- The phone registers a token; the message that has come is queued and announced; the phone
connects, and sends what is no message. -/
def announcedThenFetched : List RelayEvent :=
  [.call (.registerPush phoneAuth ⟨"token", "fcm"⟩), .run 1 {}, .run 0 {}, .run 0 {}, .run 0 {},
    .run 0 {}, .run 0 {}, .call (.arrive (.replicate 16 1) 0 1), .run 2 {}, .run 2 {}, .run 2 {},
    .run 2 {}, .run 2 {}, .run 2 {}, .call (.receive (.replicate 16 2) (.replicate 16 1) "hello"),
    .run 3 {}]

theorem relay_announced : ∃ steps q, RelayRun phoneSetup (.start 0 {}) steps q ∧
    q.state.sent.length = 2 ∧ q.state.pushed.length = 1 := by
  have counted : (Pool.follow (RelayCall.program phoneSetup) (fun seconds s => s.wait seconds)
      ⟨.start 0 {}, []⟩ (.call (.receive (.replicate 16 3) (.replicate 16 4) phoneMessage.text) ::
        announcedThenFetched)).map
        (fun q => (q.state.sent.length, q.state.pushed.length)) = some (2, 1) := by
    -- the text is read as the message by the lemma, not by evaluation
    rw [Pool.follow, Pool.step, RelayCall.program, receiveText,
      fromStr_text (show phoneSetup.serde.Lawful from SerdeJson.sample_lawful)]
    decide +kernel
  obtain ⟨q, followed, lengths⟩ := Option.map_eq_some_iff.mp counted
  obtain ⟨steps, run⟩ := Pool.trail_of_follow _ followed
  obtain ⟨sent, pushed⟩ := Prod.mk.inj lengths
  exact ⟨steps, q, run, sent, pushed⟩

theorem pushes_announce_phone : ∃ steps q, RelayRun phoneSetup (.start 0 {}) steps q ∧
    ∃ request ∈ q.state.pushed, Announces phoneSetup q.Made request := by
  obtain ⟨steps, q, run, -, pushed⟩ := relay_announced
  obtain ⟨request, is⟩ := List.length_eq_one_iff.mp pushed
  have member : request ∈ q.state.pushed := by simp [is]
  have announced := pushes_announce SerdeJson.sample_lawful Chrono.sample_inverse run
  exact ⟨steps, q, run, request, member, announced request member⟩

end Hysj.Api
