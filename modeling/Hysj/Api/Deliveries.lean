import Hysj.Api.Ledger
import Hysj.Base.PoolRuns
import Hysj.Messaging.Drain

set_option autoImplicit false

/- Sends to devices and connects of devices, in any order of their steps. -/
namespace Hysj.Api

open Crypto Shared Messaging Program

inductive DeliveryCall where
  | send (envelope : EncryptedEnvelope)
  | arrive (deviceId : Uuid) (socket : SocketId) (pages : Nat)
  | leave (deviceId : Uuid) (socket : SocketId)
  | acknowledge (ack : DeliveryAck)

section

variable (config : AppConfig) (chrono : Chrono) (serde : SerdeJson)

/-- `handle_socket` up to its loop. -/
def arriveSocket (deviceId : Uuid) (socket : SocketId) (pages : Nat) :
    Program Chance Server Unit := do
  .act fun _ s => ((), s.connect deviceId socket)
  .act fun c s => ((), markOnline deviceId true c s)
  arrival chrono serde pages deviceId

/-- What `handle_socket` does with one text: an error, of reading or of handling it, goes back to
the device. -/
def receiveText (userId deviceId : Uuid) (text : String) : Program Chance Server Unit :=
  match WsMessage.fromStr serde text with
  | .ok message => do
      match ← (handleWsMessage config chrono userId deviceId message).run with
      | .ok _ => return ()
      | .error e => sendToSelf deviceId e
  | .error e => sendToSelf deviceId ("Invalid message format: " ++ e)

/-- `handle_socket` after its loop. -/
def leaveSocket (deviceId : Uuid) (socket : SocketId) : Program Chance Server Unit := do
  .act fun _ s => ((), s.remove deviceId)
  .act fun _ s => ((), s.close socket)
  .act fun c s => ((), markOnline deviceId false c s)

def DeliveryCall.program : DeliveryCall → Program Chance Server Unit
  | .send envelope => do
      let _ ← (sendMessage config envelope).run
  | .arrive deviceId socket pages => arriveSocket chrono serde deviceId socket pages
  | .leave deviceId socket => leaveSocket deviceId socket
  | .acknowledge ack => do
      let _ ← (onRedis (deleteMessage ack.deviceId ack.messageId)).run

end

abbrev DeliveryRest := Program Chance Server Unit

abbrev DeliveryCalls := Pool Chance Server DeliveryCall Unit

abbrev DeliveryEvent := Pool.Event Chance DeliveryCall

/-- A call is made, a call takes its next step, or time passes. -/
def DeliveryCalls.step (config : AppConfig) (chrono : Chrono)
    (serde : SerdeJson) (p : DeliveryCalls)
    (e : DeliveryEvent) : Option DeliveryCalls :=
  Pool.step (DeliveryCall.program config chrono serde) (fun seconds s => s.wait seconds) p e

/-- Where a call stands. -/
inductive Delivery where
  /-- the channel of the recipient is tried next -/
  | sending (envelope : EncryptedEnvelope)
  /-- the channel was closed, and the sender is removed next -/
  | stale (envelope : EncryptedEnvelope)
  /-- `EXISTS` is next -/
  | looking (envelope : EncryptedEnvelope)
  /-- `SET` is next -/
  | storing (envelope : EncryptedEnvelope)
  /-- `connections.insert` is next -/
  | entering (deviceId : Uuid) (socket : SocketId) (pages : Nat)
  /-- `set_online(true)` is next -/
  | marking (deviceId : Uuid) (pages : Nat)
  | draining (deviceId : Uuid) (pages : Nat) (place : Drain)
  /-- the channel is tried next, with the first of the drained messages -/
  | delivering (deviceId : Uuid) (pages : Nat) (queued : QueuedMessage)
      (messages : List QueuedMessage)
  /-- the channel was closed, and the sender is removed next -/
  | closing (deviceId : Uuid) (pages : Nat) (messages : List QueuedMessage)
  | elsewhere

/-- What trying to send a text to a device comes to. -/
def tried (s : Server) (d : Uuid) (text : String) : Server :=
  match s.connections d with
  | none => s
  | some socket =>
      if s.closed socket then s else { s with sent := s.sent ++ [⟨socket, d, text⟩] }

/-- What the `SET` of a message comes to. -/
def storedBy (c : Chance) (envelope : EncryptedEnvelope) (r : Redis) : Redis :=
  if c.fault = none ∧ messageTtl envelope ≠ 0 then
    r.set (msgKey envelope.recipientDeviceId envelope.messageId) (envelopeBlob envelope)
      (some (messageTtl envelope).toNat)
  else r

/-- The queue changes by removals only, and only a wipe is sent. -/
structure Aside (s s' : Server) : Prop where
  queue : ∀ d id, s'.redis.peek (msgKey d id) = s.redis.peek (msgKey d id) ∨
    s'.redis.peek (msgKey d id) = none
  sent : s'.sent = s.sent ∨
    ∃ x d wipe, s'.sent = s.sent ++ [⟨x, d, (WsMessage.wipeCommand wipe).text⟩]

/-- The effects of that kind. -/
def asideEffect : Effect → Prop
  | .send _ text => ∃ wipe, text = (WsMessage.wipeCommand wipe).text
  | .store (.set key _ _) | .store (.expire key _) => ∀ d id, msgKey d id ≠ key
  | _ => True

section

variable {s s' : Server}

theorem aside_refl (s : Server) : Aside s s := ⟨fun _ _ => Or.inl rfl, Or.inl rfl⟩

theorem aside_of_same (redis : s'.redis = s.redis) (sent : s'.sent = s.sent) : Aside s s' :=
  ⟨fun d id => Or.inl (by rw [redis]), Or.inl sent⟩

theorem aside_of_does (does : Does Effect.apply asideEffect s s') : Aside s s' := by
  rcases does with rfl | ⟨effect, may, rfl⟩
  · exact aside_refl s'
  · cases effect with
    | send d text =>
        obtain ⟨wipe, rfl⟩ := may
        simp only [Effect.apply]
        split
        · exact aside_refl s
        · split
          · exact aside_refl s
          · exact ⟨fun _ _ => Or.inl rfl, Or.inr ⟨_, d, wipe, rfl⟩⟩
    | store change =>
        refine ⟨fun d id => ?_, Or.inl rfl⟩
        cases change with
        | set key value ttl => exact Or.inl (Store.peek_set_of_ne (may d id))
        | expire key ttl => exact Or.inl (Store.peek_expire_of_ne (may d id))
        | del key =>
            by_cases same : msgKey d id = key
            · right
              show Store.peek (Store.del s.redis key) _ = none
              rw [same]
              exact Store.peek_del
            · exact Or.inl (Store.peek_del_of_ne same)
    | disconnect | push | pins | limit => exact aside_of_same rfl rfl

theorem aside_of_effects {α : Type} {t : Program Chance Server α}
    (effects : Effects asideEffect t) :
    Keeps Aside t := effects.mono fun _ _ => aside_of_does

@[simp] theorem sent_markOnline {d : Uuid} {online : Bool} {c : Chance} :
    (markOnline d online c s).sent = s.sent := by
  unfold markOnline
  split <;> rfl

theorem redis_tried {d : Uuid} {text : String} : (tried s d text).redis = s.redis := by
  unfold tried
  split
  · rfl
  · split <;> rfl

end

namespace Delivery

section

variable (config : AppConfig) (chrono : Chrono) (serde : SerdeJson)

/-- The messages that were drained, and the pending wipes. -/
def deliverRest (d : Uuid) (pages : Nat) (messages : List QueuedMessage) : DeliveryRest := do
  forM messages fun queued => deliverQueued serde d queued
  deliverPendingWipes serde chrono pages d

/-- What a connect does with what it has drained. -/
def handDown (d : Uuid) : Except MessagingError (List QueuedMessage) → DeliveryRest
  | .ok messages => forM messages fun queued => deliverQueued serde d queued
  | .error _ => return ()

/-- What is left of a connect while the drain stands there. -/
def drainRest (d : Uuid) (pages : Nat) (place : Drain) : DeliveryRest := do
  let drained ← zoom Server.redis (fun r s => { s with redis := r }) (place.rest d)
  handDown serde d drained
  deliverPendingWipes serde chrono pages d

/-- A drained message is an envelope again. -/
def parses (queued : QueuedMessage) : Bool :=
  ((serde.fromSlice queued.encryptedBlob).toOption.bind EncryptedEnvelope.ofJson).isSome

/-- Where a call stands when it is made. -/
def first : DeliveryCall → Delivery
  | .send envelope => .sending envelope
  | .arrive d socket pages => .entering d socket pages
  | _ => .elsewhere

/-- Where a connect stands that has these messages to deliver. -/
def ofMessages (d : Uuid) (pages : Nat) : List QueuedMessage → Delivery
  | [] => .elsewhere
  | queued :: messages => .delivering d pages queued messages

def ofPlace (d : Uuid) (pages : Nat) : Drain → Delivery
  | .returned messages => ofMessages d pages messages
  | .failed _ => .elsewhere
  | place => .draining d pages place

/-- Where a call stands after its next step. -/
def next (c : Chance) (s : Server) : Delivery → Delivery
  | .sending envelope =>
      match s.connections envelope.recipientDeviceId with
      | none => .looking envelope
      | some socket => if s.closed socket then .stale envelope else .elsewhere
  | .stale envelope => .looking envelope
  | .looking envelope =>
      if c.fault = none ∧
          (s.redis.get? (msgKey envelope.recipientDeviceId envelope.messageId)).isSome = false then
        .storing envelope
      else .elsewhere
  | .entering d _ pages => .marking d pages
  | .marking d pages => .draining d pages (.scanning pages .zero [])
  | .draining d pages place => ofPlace d pages (place.next d c s.redis)
  | .delivering d pages queued messages =>
      match s.connections d with
      | none => ofMessages d pages messages
      | some socket =>
          if s.closed socket && parses serde queued then .closing d pages messages
          else ofMessages d pages messages
  | .closing d pages messages => ofMessages d pages messages
  | _ => .elsewhere

/-- The call stands there. -/
def Stands (call : DeliveryCall) (rest : DeliveryRest) : Delivery → Prop
  | .sending envelope => call = .send envelope ∧
      rest = (sendMessage config envelope).run >>= fun _ => pure ()
  | .stale envelope =>
      call = .send envelope ∧ rest = removeStale config envelope >>= fun _ => pure ()
  | .looking envelope => call = .send envelope ∧
      rest = (queueMessage config envelope).run >>= fun _ => pure ()
  | .storing envelope => call = .send envelope ∧
      rest = (storeMessage config envelope).run >>= fun _ => pure ()
  | .entering d socket pages => rest = arriveSocket chrono serde d socket pages
  | .marking d pages =>
      rest = (.act fun c s => ((), markOnline d true c s) : DeliveryRest) >>= fun _ =>
        arrival chrono serde pages d
  | .draining d pages place => place.ended = false ∧ rest = drainRest chrono serde d pages place
  | .delivering d pages queued messages =>
      rest = deliverRest chrono serde d pages (queued :: messages)
  | .closing d pages messages =>
      rest = disconnect d >>= fun _ => deliverRest chrono serde d pages messages
  | .elsewhere => Keeps Aside rest

/-- What the next step does. -/
def Does (c : Chance) (s s' : Server) : Delivery → Prop
  | .sending envelope =>
      s' = tried s envelope.recipientDeviceId (WsMessage.sendMessage envelope).text
  | .storing envelope => s' = { s with redis := storedBy c envelope s.redis }
  | .draining _ _ place => s' = { s with redis := place.effect c s.redis }
  | .delivering d _ queued _ => s' = tried s d (queuedText serde queued.encryptedBlob)
  | .elsewhere => Aside s s'
  | _ => s'.redis = s.redis ∧ s'.sent = s.sent

variable {config chrono serde} {call : DeliveryCall} {stage : Delivery} {rest : DeliveryRest}
variable {effect : Chance → Server → Server} {next' : Chance → Server → DeliveryRest}
variable {d : Uuid} {pages : Nat} {messages : List QueuedMessage} {place : Drain}
variable {envelope : EncryptedEnvelope}

theorem aside_deliverPendingWipes : Keeps Aside (deliverPendingWipes serde chrono pages d) := by
  apply aside_of_effects
  refine Keeps.bind (effects_onRedis (changes_getPendingWipes pages d)) fun outcome => ?_
  cases outcome with
  | error e => exact keeps_pure _
  | ok wipes =>
      refine keeps_forM fun wipe _ => Keeps.bind (effects_sendToDevice ?_) fun _ => keeps_pure _
      exact ⟨⟨wipe.command, rfl⟩, trivial⟩

theorem stands_ofMessages : (ofMessages d pages messages).Stands config chrono serde call
    (deliverRest chrono serde d pages messages) := by
  cases messages with
  | nil => exact aside_deliverPendingWipes
  | cons queued messages => rfl

theorem stands_ofPlace : (ofPlace d pages place).Stands config chrono serde call
    (drainRest chrono serde d pages place) := by
  cases place with
  | returned messages => exact stands_ofMessages
  | failed e =>
      change Keeps Aside (deliverPendingWipes serde chrono pages d)
      exact aside_deliverPendingWipes
  | scanning | reading | deleting => exact ⟨rfl, rfl⟩

theorem step_sending (is : (sendMessage config envelope).run >>= (fun _ => pure ()) =
    .step effect next') (c : Chance) (s : Server) :
    ((Delivery.sending envelope).next serde c s).Stands config chrono serde (.send envelope)
      (next' c s) ∧
      effect c s = tried s envelope.recipientDeviceId (WsMessage.sendMessage envelope).text := by
  obtain ⟨rfl, rfl⟩ := Program.step.inj is
  rw [Delivery.next, tried]
  cases found : s.connections envelope.recipientDeviceId with
  | none =>
      simp only [found]
      exact ⟨⟨rfl, rfl⟩, trivial⟩
  | some socket =>
      by_cases closed : s.closed socket = true
      · simp only [found, if_pos closed]
        exact ⟨⟨rfl, rfl⟩, trivial⟩
      · simp only [found, if_neg closed]
        exact ⟨trivial, trivial⟩

/-- The push notification for a message that was queued. -/
def notify (config : AppConfig) (envelope : EncryptedEnvelope) : Task String Unit := do
  match config.fcmServerKey with
  | some fcmKey => do
      let _ ← attempt (sendPushNotification fcmKey envelope.recipientDeviceId "Hysj" "New message")
  | none => return ()

theorem aside_notify : Keeps Aside ((notify config envelope).run >>= fun _ => pure ()) := by
  apply aside_of_effects
  refine Keeps.bind ?_ fun _ => keeps_pure _
  unfold notify
  split
  · refine Keeps.run_bind (Keeps.attempt ?_) fun _ => keeps_pure _
    exact effects_sendPushNotification fun _ => trivial
  · exact keeps_pure _

theorem step_looking (is : (queueMessage config envelope).run >>= (fun _ => pure ()) =
    .step effect next') (c : Chance) (s : Server) :
    ((Delivery.looking envelope).next serde c s).Stands config chrono serde (.send envelope)
      (next' c s) ∧ effect c s = s := by
  obtain ⟨rfl, rfl⟩ := Program.step.inj is
  rw [Delivery.next]
  cases fault : c.fault with
  | some e =>
      simp only [fault, reduceCtorEq, false_and, if_false]
      exact ⟨trivial, trivial⟩
  | none =>
      cases there :
        (s.redis.get? (msgKey envelope.recipientDeviceId envelope.messageId)).isSome with
      | true =>
          simp only [fault, there, Bool.true_eq_false, and_false, if_false]
          exact ⟨aside_notify, trivial⟩
      | false =>
          simp only [fault, there, and_self, if_true]
          exact ⟨⟨rfl, rfl⟩, trivial⟩

theorem step_storing (is : (storeMessage config envelope).run >>= (fun _ => pure ()) =
    .step effect next') (c : Chance) (s : Server) :
    Keeps Aside (next' c s) ∧ effect c s = { s with redis := storedBy c envelope s.redis } := by
  obtain ⟨rfl, rfl⟩ := Program.step.inj is
  rw [storedBy]
  cases fault : c.fault with
  | some e =>
      simp only [fault, reduceCtorEq, false_and, if_false]
      exact ⟨trivial, trivial⟩
  | none =>
      by_cases zero : messageTtl envelope = 0
      · simp only [fault, zero, if_true, ne_eq, not_true_eq_false, and_false, if_false]
        exact ⟨trivial, trivial⟩
      · simp only [fault, zero, if_false, ne_eq, not_false_eq_true, and_self, if_true]
        exact ⟨aside_notify, trivial⟩

theorem step_draining (running : place.ended = false)
    (is : drainRest chrono serde d pages place = .step effect next') (c : Chance) (s : Server) :
    ((Delivery.draining d pages place).next serde c s).Stands config chrono serde call (next' c s) ∧
      effect c s = { s with redis := place.effect c s.redis } := by
  cases left : place.rest d with
  | step effect₀ next₀ =>
      rw [drainRest, left] at is
      obtain ⟨rfl, rfl⟩ := Program.step.inj is
      obtain ⟨does, goes, -⟩ := Drain.rest_step left c s.redis
      refine ⟨?_, by simp only [does]⟩
      show Stands config chrono serde call (do
        let drained ← zoom Server.redis (fun r s => { s with redis := r }) (next₀ c s.redis)
        handDown serde d drained
        deliverPendingWipes serde chrono pages d) (ofPlace d pages (place.next d c s.redis))
      rw [goes]
      exact stands_ofPlace
  | done result =>
      rcases Drain.of_rest_done left with ⟨messages, rfl, -⟩ | ⟨e, rfl⟩
      · cases running
      · cases running
  | never =>
      rw [drainRest, left] at is
      cases is

/-- Trying to send to a device, and what follows if its channel is closed. -/
theorem step_deliver {queued : QueuedMessage}
    (is : deliverRest chrono serde d pages (queued :: messages) = .step effect next') (c : Chance)
    (s : Server) :
    ((Delivery.delivering d pages queued messages).next serde c s).Stands config chrono serde call
      (next' c s) ∧ effect c s = tried s d (queuedText serde queued.encryptedBlob) := by
  rw [Delivery.next, tried, parses, queuedText]
  cases read : (serde.fromSlice queued.encryptedBlob).toOption.bind EncryptedEnvelope.ofJson with
  | some envelope =>
      rw [deliverRest, List.forM_cons, deliverQueued, read] at is
      obtain ⟨rfl, rfl⟩ := Program.step.inj is
      cases found : s.connections d with
      | none =>
          simp only [found]
          exact ⟨stands_ofMessages, trivial⟩
      | some socket =>
          by_cases closed : s.closed socket = true
          · simp only [found, closed, if_true, Option.isSome_some, Bool.and_self]
            exact ⟨rfl, trivial⟩
          · simp only [found, closed, if_false, Bool.false_and, Bool.false_eq_true]
            exact ⟨stands_ofMessages, trivial⟩
  | none =>
      rw [deliverRest, List.forM_cons, deliverQueued, read] at is
      obtain ⟨rfl, rfl⟩ := Program.step.inj is
      cases found : s.connections d with
      | none =>
          simp only [found]
          exact ⟨stands_ofMessages, trivial⟩
      | some socket =>
          by_cases closed : s.closed socket = true
          · simp only [found, closed, if_true, Option.isSome_none, Bool.and_false,
              Bool.false_eq_true, if_false]
            exact ⟨stands_ofMessages, trivial⟩
          · simp only [found, closed, if_false, Bool.false_and, Bool.false_eq_true]
            exact ⟨stands_ofMessages, trivial⟩

theorem arrival_eq : arrival chrono serde pages d =
    drainRest chrono serde d pages (.scanning pages .zero []) := by
  rw [arrival, deliverPendingMessages, LawfulMonad.bind_assoc, drainRest]
  refine congrArg _ (funext fun drained => ?_)
  cases drained <;> rfl

/-- A call goes from one of these places to the next, and its steps do this. -/
theorem Stands.step
    (stands : stage.Stands config chrono serde call (.step effect next')) (c : Chance)
    (s : Server) :
    (stage.next serde c s).Stands config chrono serde call (next' c s) ∧
      stage.Does serde c s (effect c s) := by
  cases stage with
  | sending envelope =>
      obtain ⟨rfl, is⟩ := stands
      exact step_sending is.symm c s
  | stale envelope =>
      obtain ⟨rfl, is⟩ := stands
      obtain ⟨rfl, rfl⟩ := Program.step.inj is
      exact ⟨⟨rfl, rfl⟩, rfl, rfl⟩
  | looking envelope =>
      obtain ⟨rfl, is⟩ := stands
      obtain ⟨goes, stays⟩ := @step_looking config chrono serde _ _ envelope is.symm c s
      exact ⟨goes, by rw [stays], by rw [stays]⟩
  | storing envelope =>
      obtain ⟨rfl, is⟩ := stands
      exact step_storing is.symm c s
  | entering d socket pages =>
      obtain ⟨rfl, rfl⟩ := Program.step.inj stands
      exact ⟨rfl, rfl, rfl⟩
  | marking d pages =>
      obtain ⟨rfl, rfl⟩ := Program.step.inj stands
      exact ⟨⟨rfl, arrival_eq⟩, redis_markOnline, sent_markOnline⟩
  | draining d pages place =>
      obtain ⟨running, is⟩ := stands
      exact step_draining running is.symm c s
  | delivering d pages queued messages => exact step_deliver stands.symm c s
  | closing d pages messages =>
      obtain ⟨rfl, rfl⟩ := Program.step.inj stands
      exact ⟨stands_ofMessages, rfl, rfl⟩
  | elsewhere => exact ⟨(stands c s).2, (stands c s).1⟩

theorem stands_first :
    (Delivery.first call).Stands config chrono serde call (call.program config chrono serde) := by
  cases call with
  | send envelope => exact ⟨rfl, rfl⟩
  | arrive d socket pages => rfl
  | leave d socket =>
      refine Keeps.bind (keeps_act fun _ s => aside_of_same rfl rfl) fun _ => ?_
      refine Keeps.bind (keeps_act fun _ s => aside_of_same rfl rfl) fun _ => ?_
      exact keeps_act fun _ s => aside_of_same redis_markOnline sent_markOnline
  | acknowledge ack =>
      refine Keeps.bind (aside_of_effects (effects_onRedis ?_)) fun _ => keeps_pure _
      exact changes_deleteMessage trivial

end

end Delivery

end Hysj.Api
