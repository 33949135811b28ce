import Hysj.Api.Handler
import Hysj.Messaging.Changes

set_option autoImplicit false

/- What the steps of the handlers do to the state of the server. -/
namespace Hysj.Api

open Crypto Shared Messaging Program

inductive Effect where
  | send (deviceId : Uuid) (text : String)
  | disconnect (deviceId : Uuid)
  | push (request : PushRequest)
  | store (change : Change)
  | pins (rows : List Db.PinnedMessage)
  | limit (key : String) (times : List Nat)

/-- A text goes into the channel of a device that has an open one. -/
def Effect.apply : Effect → Server → Server
  | .send deviceId text, s =>
      match s.connections deviceId with
      | none => s
      | some socket =>
          if s.closed socket then s
          else { s with sent := s.sent ++ [⟨socket, deviceId, text⟩] }
  | .disconnect deviceId, s =>
      { s with connections := Function.update s.connections deviceId none }
  | .push request, s => { s with pushed := s.pushed ++ [request] }
  | .store change, s => { s with redis := change.apply s.redis }
  | .pins rows, s => { s with db := { s.db with pinnedMessages := rows } }
  | .limit key times, s => { s with rateLimiter := Function.update s.rateLimiter key times }

variable {α ε : Type} {may : Effect → Prop}

abbrev Effects (may : Effect → Prop) (t : Program Chance Server α) : Prop :=
  Keeps (Does Effect.apply may) t

/-- Sending to a device, whether or not it is online. -/
structure MaySend (may : Effect → Prop) (deviceId : Uuid) (text : String) : Prop where
  send : may (.send deviceId text)
  disconnect : may (.disconnect deviceId)

theorem effects_trySend {d : Uuid} {text : String} (allowed : may (.send d text)) :
    Effects may (trySend d text) := by
  apply keeps_act
  intro c s
  split
  · exact Or.inl rfl
  · rename_i socket found
    split
    · exact Or.inl rfl
    · rename_i alive
      refine Or.inr ⟨_, allowed, ?_⟩
      simp only [Effect.apply, found, if_neg alive]

theorem effects_sendToDevice {d : Uuid} {message : WsMessage}
    (allowed : MaySend may d message.text) : Effects may (sendToDevice d message) := by
  refine Keeps.bind (effects_trySend allowed.send) fun sending => ?_
  cases sending with
  | absent => exact keeps_pure _
  | sent => exact keeps_pure _
  | closed =>
      refine Keeps.bind (keeps_act fun _ _ => ?_) fun _ => keeps_pure _
      exact Or.inr ⟨_, allowed.disconnect, rfl⟩

theorem effects_sendToEach {ds : List Uuid} {message : WsMessage}
    (allowed : ∀ d ∈ ds, MaySend may d message.text) : Effects may (sendToEach ds message) :=
  keeps_forM fun d member =>
    Keeps.bind (effects_sendToDevice (allowed d member)) fun _ => keeps_pure _

theorem effects_query {statement : Nat → Db.Statement α}
    (reads : ∀ now t, (statement now t).2 = t) : Effects may (query statement).run := by
  apply keeps_act
  intro c s
  split
  · exact Or.inl rfl
  · rw [reads]
    exact Or.inl rfl

theorem effects_onRedis {t : Command α} (changes : Changes (fun c => may (.store c)) t) :
    Effects may (onRedis t).run := by
  refine Keeps.zoom changes fun s r does => ?_
  obtain rfl | ⟨change, allowed, rfl⟩ := does
  · exact Or.inl rfl
  · exact Or.inr ⟨_, allowed, rfl⟩

theorem effects_devicesOrNone {statement : Db.Statement (List Db.Device)}
    (reads : ∀ t, (statement t).2 = t) : Effects may (devicesOrNone statement).run := by
  refine Keeps.run_bind (effects_query fun _ => reads).attempt fun devices => ?_
  split
  · exact keeps_pure _
  · exact keeps_pure _

theorem reads_listByUser (user : Uuid) (t : Db.Tables) : (Db.listByUser user t).2 = t := rfl

theorem reads_listByUsers (users : List Uuid) (t : Db.Tables) :
    (Db.listByUsers users t).2 = t := rfl

theorem effects_sendToUserDevices {user : Uuid} {message : WsMessage}
    (allowed : ∀ d, MaySend may d message.text) :
    Effects may (sendToUserDevices user message) := by
  refine Keeps.bind (effects_query fun _ => reads_listByUser user) fun devices => ?_
  cases devices with
  | ok devices => exact effects_sendToEach fun d _ => allowed d
  | error e => exact keeps_pure _

theorem effects_sendPushNotification {key : String} {d : Uuid} {title body : String}
    (allowed : ∀ request, may (.push request)) :
    Effects may (sendPushNotification key d title body).run := by
  refine Keeps.run_bind (effects_onRedis (changes_get _)).adapt fun token => ?_
  cases token with
  | none => exact keeps_pure _
  | some bytes =>
      dsimp only
      split
      · exact keeps_pure _
      · apply keeps_act
        intro c s
        split
        · exact Or.inl rfl
        · exact Or.inr ⟨_, allowed _, rfl⟩

theorem effects_checkRateLimit {key : String} {maxRequests window : Nat}
    (allowed : ∀ times, may (.limit key times)) :
    Effects may (checkRateLimit key maxRequests window : Task ε Bool).run := by
  apply Keeps.lift
  apply keeps_act
  intro c s
  dsimp only
  split
  · exact Or.inr ⟨_, allowed _, rfl⟩
  · exact Or.inr ⟨_, allowed _, rfl⟩

/-- What a step of handling a message may do: send the message on and forget senders, and with
Redis only what the message is for. -/
def handlerEffects (message : WsMessage) : Effect → Prop
  | .send _ text => text = message.text
  | .store (.set key value ttl) =>
      (∃ envelope d, (message = .sendMessage envelope ∧ d = envelope.recipientDeviceId ∨
          ∃ group, message = .sendGroupMessage group envelope) ∧
        key = msgKey d envelope.messageId ∧ value = envelopeBlob envelope ∧
        ttl = (messageTtl envelope).toNat ∧ 0 < ttl) ∨
      ∃ request d id, message = .wipeCommand request ∧ key = wipeKey d id ∧
        ttl = WIPE_TTL_SECONDS.toNat
  | .store (.del key) =>
      (∃ ack, message = .delivered ack ∧ key = msgKey ack.deviceId ack.messageId) ∨
      ∃ ack, message = .wipeAck ack ∧ key = wipeKey ack.deviceId ack.wipeId
  | .store (.expire _ _) => False
  | _ => True

section

variable {message : WsMessage} {d : Uuid} {envelope : EncryptedEnvelope}

theorem maySend_handler : MaySend (handlerEffects message) d message.text := ⟨rfl, trivial⟩

theorem effects_enqueue
    (carried : message = .sendMessage envelope ∧ d = envelope.recipientDeviceId ∨
      ∃ group, message = .sendGroupMessage group envelope) :
    Effects (handlerEffects message) (onRedis
      (enqueue d envelope.messageId (envelopeBlob envelope) (messageTtl envelope))).run := by
  apply effects_onRedis
  apply changes_enqueue
  intro lasts
  have positive : 0 < (messageTtl envelope).toNat := by
    rw [Nat.pos_iff_ne_zero]
    intro zero
    exact lasts (UInt64.toNat_inj.mp zero)
  exact Or.inl ⟨envelope, d, carried, rfl, rfl, rfl, positive⟩

theorem effects_queueMessage {config : AppConfig} (is : message = .sendMessage envelope) :
    Effects (handlerEffects message) (queueMessage config envelope).run := by
  refine Keeps.run_bind (effects_enqueue (Or.inl ⟨is, rfl⟩)).adapt fun _ => ?_
  split
  · refine Keeps.run_bind (Keeps.attempt ?_) fun _ => keeps_pure _
    exact effects_sendPushNotification fun _ => trivial
  · exact keeps_pure _

theorem effects_sendMessage {config : AppConfig} :
    Effects (handlerEffects (.sendMessage envelope)) (sendMessage config envelope).run := by
  refine Keeps.run_bind (effects_sendToDevice maySend_handler).lift fun sent => ?_
  cases sent with
  | true => exact keeps_pure _
  | false => exact effects_queueMessage rfl

theorem effects_sendGroupMessage {user group : Uuid} :
    Effects (handlerEffects (.sendGroupMessage group envelope))
      (sendGroupMessage user group envelope).run := by
  refine Keeps.run_bind (effects_query fun _ _ => rfl).adapt fun members => ?_
  refine Keeps.run_bind (effects_devicesOrNone (reads_listByUsers _)) fun devices => ?_
  refine Keeps.run_forM fun device _ => ?_
  refine Keeps.run_bind (effects_sendToDevice maySend_handler).lift fun sent => ?_
  cases sent with
  | true => exact keeps_pure _
  | false =>
      refine Keeps.run_bind (Keeps.attempt ?_) fun _ => keeps_pure _
      exact effects_enqueue (Or.inr ⟨group, rfl⟩)

theorem effects_partnerDevices {request : WipeRequest} :
    Effects may (partnerDevices request).run := by
  unfold partnerDevices
  split
  · exact effects_devicesOrNone (reads_listByUser _)
  · exact keeps_pure _

theorem effects_wipeTargets {user : Uuid} {request : WipeRequest} :
    Effects may (wipeTargets user request).run := by
  unfold wipeTargets
  split
  · exact Keeps.run_bind (effects_devicesOrNone (reads_listByUser _)) fun _ => keeps_pure _
  · exact keeps_pure _
  · refine Keeps.run_bind effects_partnerDevices fun partners => ?_
    exact Keeps.run_bind (effects_devicesOrNone (reads_listByUser _)) fun _ => keeps_pure _

theorem effects_wipeCommand {chrono : Chrono} {user sender : Uuid} {request : WipeRequest} :
    Effects (handlerEffects (.wipeCommand request))
    (wipeCommand chrono user sender request).run := by
  refine Keeps.run_bind effects_wipeTargets fun targets => ?_
  refine Keeps.run_bind (Keeps.adapt (effects_onRedis (changes_issueWipe ?_))) fun _ => ?_
  · intro d _ id value
    exact Or.inr ⟨request, d, id, rfl, rfl, rfl⟩
  · exact (effects_sendToEach fun _ _ => maySend_handler).lift

theorem pins_pin (pin : PinMessage) (user : Uuid) (t : Db.Tables) :
    ∃ rows, ((if pin.pin then Db.pin pin.groupId pin.messageId user
      else Db.unpin pin.groupId pin.messageId) t).2 = { t with pinnedMessages := rows } := by
  split
  · unfold Db.pin
    split
    · exact ⟨t.pinnedMessages, rfl⟩
    · split
      · split
        · exact ⟨_, rfl⟩
        · exact ⟨t.pinnedMessages, rfl⟩
      · exact ⟨t.pinnedMessages, rfl⟩
  · exact ⟨_, rfl⟩

theorem effects_pinMessage {user : Uuid} {pin : PinMessage} :
    Effects (handlerEffects (.pinMessage pin)) (pinMessage user pin).run := by
  refine Keeps.run_bind (effects_query fun _ _ => rfl).attempt fun isMember => ?_
  split
  · refine Keeps.run_bind (Keeps.adapt (keeps_act fun c s => ?_)) fun _ => ?_
    · split
      · exact Or.inl rfl
      · obtain ⟨rows, pins⟩ := pins_pin pin user s.db
        rw [pins]
        exact Or.inr ⟨.pins rows, trivial, rfl⟩
    · refine Keeps.run_bind (effects_query fun _ _ => rfl).attempt fun members => ?_
      refine Keeps.run_bind (effects_devicesOrNone (reads_listByUsers _)) fun devices => ?_
      exact (effects_sendToEach fun _ _ => maySend_handler).lift
  · exact keeps_pure _

/-- Whatever the other tasks of the server do between two steps, each step of handling a
message does what the message is for. -/
theorem effects_handleWsMessage (config : AppConfig) (chrono : Chrono) (user sender : Uuid)
    (message : WsMessage) : Effects (handlerEffects message)
      (handleWsMessage config chrono user sender message).run := by
  cases message with
  | sendMessage envelope => exact effects_sendMessage
  | sendGroupMessage group envelope => exact effects_sendGroupMessage
  | delivered ack =>
      refine Keeps.run_bind (Keeps.adapt (effects_onRedis ?_)) fun _ => keeps_pure _
      exact changes_deleteMessage (Or.inl ⟨ack, rfl, rfl⟩)
  | wipeAck ack =>
      refine Keeps.run_bind (Keeps.adapt (effects_onRedis ?_)) fun _ => keeps_pure _
      exact changes_confirmWipe (Or.inr ⟨ack, rfl, rfl⟩)
  | wipeCommand request => exact effects_wipeCommand
  | pinMessage pin => exact effects_pinMessage
  | typing indicator => exact (effects_sendToUserDevices fun _ => maySend_handler).lift
  | read receipt => exact (effects_sendToUserDevices fun _ => maySend_handler).lift
  | saveInChat save => exact (effects_sendToUserDevices fun _ => maySend_handler).lift
  | reaction change => exact (effects_sendToUserDevices fun _ => maySend_handler).lift
  | callSignal signal => exact (effects_sendToUserDevices fun _ => maySend_handler).lift
  | error message => exact keeps_pure _

end

section

variable {serde : SerdeJson} {chrono : Chrono} {d : Uuid} {pages : Nat}

theorem effects_deliverPendingMessages (deletes : ∀ id, may (.store (.del (msgKey d id))))
    (sends : ∀ text, MaySend may d text) : Effects may (deliverPendingMessages serde pages d) := by
  refine Keeps.bind (effects_onRedis (changes_dequeueAll deletes pages)) fun outcome => ?_
  cases outcome with
  | error e => exact keeps_pure _
  | ok queue =>
      refine keeps_forM fun queued _ => ?_
      unfold deliverQueued
      split
      · exact Keeps.bind (effects_sendToDevice (sends _)) fun _ => keeps_pure _
      · exact Keeps.bind (effects_trySend (sends _).send) fun _ => keeps_pure _

theorem effects_sendWipes {wipes : List PendingWipe} (sends : ∀ text, MaySend may d text) :
    Effects may (sendWipes d wipes) :=
  keeps_forM fun _ _ => Keeps.bind (effects_sendToDevice (sends _)) fun _ => keeps_pure _

theorem effects_deliverPendingWipes (sends : ∀ text, MaySend may d text) :
    Effects may (deliverPendingWipes serde chrono pages d) := by
  refine Keeps.bind (effects_onRedis (changes_getPendingWipes pages d)) fun outcome => ?_
  cases outcome with
  | error e => exact keeps_pure _
  | ok wipes => exact effects_sendWipes sends

theorem effects_sweepWipe {key : String} (sends : ∀ d text, MaySend may d text) :
    Effects may (sweepWipe serde chrono pages key).run := by
  unfold sweepWipe
  split
  · exact keeps_pure _
  · refine Keeps.run_bind (Keeps.lift (keeps_act fun _ _ => Or.inl rfl)) fun connected => ?_
    split
    · refine Keeps.run_bind (effects_onRedis (changes_getPendingWipes pages _)).attempt
        fun outcome => ?_
      split
      · exact (effects_sendWipes (sends _)).lift
      · exact keeps_pure _
    · exact keeps_pure _

theorem effects_wipePending (sends : ∀ d text, MaySend may d text) (rounds : Nat)
    (cursor : Cursor) : Effects may (wipePending serde chrono rounds pages cursor).run := by
  induction rounds generalizing cursor with
  | zero => trivial
  | succ rounds ih =>
      have answer : Changes (fun c => may (.store c)) (scan cursor "wipe:") :=
        changes_read fun c r => by dsimp only; split <;> rfl
      refine Keeps.run_bind (effects_onRedis answer) fun found => ?_
      refine Keeps.run_bind (Keeps.run_forM fun key _ => effects_sweepWipe sends) fun _ => ?_
      split
      · exact keeps_pure _
      · exact ih _

end

end Hysj.Api
