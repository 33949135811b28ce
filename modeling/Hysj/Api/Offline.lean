import Hysj.Api.Effects
import Hysj.Api.WipeAuthority

set_option autoImplicit false

/- What a device receives of a message when it is online, and when it connects later. -/
namespace Hysj.Api

open Crypto Shared Messaging Program

theorem WsMessage.text_injective : Function.Injective WsMessage.text := by
  intro message other same
  have rendered : Json.render message.toJson = Json.render other.toJson :=
    String.ofList_injective same
  have values : message.toJson = other.toJson := Json.toVec_injective (congrArg Json.utf8 rendered)
  have read := WsMessage.ofJson_toJson message
  rw [values, WsMessage.ofJson_toJson] at read
  exact (Option.some.inj read).symm

section

variable {config : AppConfig} {chrono : Chrono} {serde : SerdeJson} {s s' : Server}
  {user sender group d : Uuid} {envelope : EncryptedEnvelope} {message : WsMessage}

/-- The text was sent, and no other. -/
def Only (texts : List String) (text : String) : Prop := texts ≠ [] ∧ ∀ t ∈ texts, t = text

/-- A frame to the device is among those sent. -/
def Told (s s' : Server) (d : Uuid) : Prop := ∃ f ∈ s'.sent.drop s.sent.length, f.deviceId = d

theorem sends_of_does (does : Does Effect.apply (handlerEffects message) s s') :
    ∃ frames, s'.sent = s.sent ++ frames ∧ ∀ f ∈ frames, f.text = message.text := by
  have none_ : ∃ frames, s.sent = s.sent ++ frames ∧ ∀ f ∈ frames, Sent.text f = message.text :=
    ⟨[], by simp⟩
  obtain rfl | ⟨effect, may, rfl⟩ := does
  · exact none_
  · cases effect with
    | send d text =>
        simp only [Effect.apply]
        split
        · exact none_
        · split
          · exact none_
          · refine ⟨_, rfl, fun f member => ?_⟩
            obtain rfl := List.mem_singleton.mp member
            exact may
    | disconnect d => exact none_
    | push request => exact none_
    | store change => exact none_
    | pins rows => exact none_
    | limit key times => exact none_

theorem sends_handleWsMessage {outcome : Except String Unit}
    (run : Runs Clean (handleWsMessage config chrono user sender message).run s outcome s') :
    ∃ frames, s'.sent = s.sent ++ frames ∧ ∀ f ∈ frames, f.text = message.text := by
  refine run.keeps ((effects_handleWsMessage config chrono user sender message).mono
    fun _ _ does => sends_of_does does) ?_ ?_
  · exact fun s => ⟨[], by simp⟩
  · rintro s m s' ⟨frames, first, same⟩ ⟨frames', second, same'⟩
    refine ⟨frames ++ frames', by rw [second, first, List.append_assoc], fun f member => ?_⟩
    rcases List.mem_append.mp member with member | member
    · exact same f member
    · exact same' f member

theorem only_of_sent {outcome : Except String Unit}
    (run : Runs Clean (handleWsMessage config chrono user sender message).run s outcome s')
    (told : Told s s' d) : Only (newTexts s s' d) message.text := by
  obtain ⟨frames, sent, same⟩ := sends_handleWsMessage run
  rw [Told, sent, List.drop_left] at told
  obtain ⟨f, member, is⟩ := told
  have new : newTexts s s' d = (frames.filter fun f => f.deviceId = d).map Sent.text := by
    rw [newTexts, sent, List.drop_left]
  rw [new]
  constructor
  · intro empty
    have listed : f.text ∈ (frames.filter fun f => f.deviceId = d).map Sent.text :=
      List.mem_map_of_mem (List.mem_filter.mpr ⟨member, by simpa using is⟩)
    rw [empty] at listed
    cases listed
  · intro text listed
    obtain ⟨f', member', rfl⟩ := List.mem_map.mp listed
    exact same f' (List.mem_filter.mp member').1

theorem runs_sendToMember {d' : Uuid}
    (run : Runs Clean (sendToMember group envelope d').run s (.ok ()) s') :
    (s.Online d' ∧ s' = afterSend s d' (WsMessage.sendGroupMessage group envelope).text) ∨
    ¬ s.Online d' ∧ s' = { afterSend s d' (WsMessage.sendGroupMessage group envelope).text with
      redis := (enqueuedFor s envelope d').2 } := by
  simp only [sendToMember, runs_run_bind_ok, runs_run_lift, runs_sendToDevice] at run
  obtain ⟨sent, m, ⟨sent', ⟨online, rfl⟩, same⟩, rest⟩ := run
  rw [Except.ok.inj same] at online
  cases sent with
  | true =>
      rw [if_pos rfl] at rest
      exact Or.inl ⟨online.mp rfl, (runs_run_pure.mp rest).2.symm⟩
  | false =>
      have away : ¬ s.Online d' := fun there => Bool.noConfusion (online.mpr there)
      rw [if_neg Bool.false_ne_true] at rest
      simp only [runs_run_bind_ok, runs_attempt, runs_onRedis, runs_enqueue, runs_run_pure] at rest
      obtain ⟨_, m, ⟨outcome, ⟨r, queued, rfl⟩, -⟩, -, rfl⟩ := rest
      rw [redis_afterSend] at queued
      refine Or.inr ⟨away, ?_⟩
      rw [enqueuedFor, queued]

theorem told_afterSend {text : String} (online : s.Online d) : Told s (afterSend s d text) d := by
  obtain ⟨socket, found, alive⟩ := online
  refine ⟨⟨socket, d, text⟩, ?_, rfl⟩
  simp [afterSend, found, alive]

theorem Told.trans {m : Server} {frames frames' : List Sent} (first : m.sent = s.sent ++ frames)
    (second : s'.sent = m.sent ++ frames') (told : Told s m d ∨ Told m s' d) : Told s s' d := by
  rw [Told, second, first, List.append_assoc, List.drop_left]
  rcases told with ⟨f, member, is⟩ | ⟨f, member, is⟩
  · rw [first, List.drop_left] at member
    exact ⟨f, List.mem_append_left _ member, is⟩
  · rw [second, List.drop_left] at member
    exact ⟨f, List.mem_append_right _ member, is⟩

theorem sent_sendToMember {d' : Uuid}
    (run : Runs Clean (sendToMember group envelope d').run s (.ok ()) s') :
    ∃ frames, s'.sent = s.sent ++ frames := by
  rcases runs_sendToMember run with ⟨-, rfl⟩ | ⟨-, rfl⟩
  · exact sent_afterSend
  · exact sent_afterSend

theorem online_sendToMember {d' : Uuid} (online : s.Online d)
    (run : Runs Clean (sendToMember group envelope d').run s (.ok ()) s') :
    s'.Online d ∧ (d' = d → Told s s' d) := by
  have after : (afterSend s d' (WsMessage.sendGroupMessage group envelope).text).Online d := by
    obtain ⟨socket, found, alive⟩ := online
    refine ⟨socket, ?_, by rw [closed_afterSend, alive]⟩
    by_cases same : d = d'
    · subst same
      simp [afterSend, found, alive]
    · rw [connections_afterSend_of_ne same, found]
  rcases runs_sendToMember run with ⟨-, rfl⟩ | ⟨away, rfl⟩
  · refine ⟨after, ?_⟩
    rintro rfl
    exact told_afterSend online
  · refine ⟨after, ?_⟩
    rintro rfl
    exact absurd online away

theorem online_sendToMembers {devices : List Db.Device} (online : s.Online d)
    (run : Runs Clean (forM devices fun device => sendToMember group envelope device.id).run s
      (.ok ()) s') :
    (∃ frames, s'.sent = s.sent ++ frames) ∧ (d ∈ devices.map Db.Device.id → Told s s' d) := by
  induction devices generalizing s with
  | nil =>
      obtain ⟨-, rfl⟩ := runs_run_pure.mp run
      exact ⟨⟨[], by simp⟩, fun member => (by cases member)⟩
  | cons device devices ih =>
      rw [List.forM_cons, runs_run_bind_ok] at run
      obtain ⟨⟨⟩, m, first, rest⟩ := run
      obtain ⟨online', told⟩ := online_sendToMember online first
      obtain ⟨frames, sent⟩ := sent_sendToMember first
      obtain ⟨⟨frames', sent'⟩, later⟩ := ih online' rest
      refine ⟨⟨frames ++ frames', by rw [sent', sent, List.append_assoc]⟩, fun member => ?_⟩
      apply Told.trans sent sent'
      rcases List.mem_cons.mp member with same | member
      · exact Or.inl (told same.symm)
      · exact Or.inr (later member)

/-- What a message may do to what waits for a device that is away: what is there stays, and the
envelope may come where nothing is. -/
structure Queues (envelope : EncryptedEnvelope) (d : Uuid) (s s' : Server) : Prop where
  now : s'.redis.now = s.redis.now
  closed : s'.closed = s.closed
  away : s'.connections d = none
  stays : ∀ e, s.redis.peek (msgKey d envelope.messageId) = some e →
    s'.redis.peek (msgKey d envelope.messageId) = some e
  comes : ∀ e, s'.redis.peek (msgKey d envelope.messageId) = some e →
    s.redis.peek (msgKey d envelope.messageId) = none →
      e.value = envelopeBlob envelope ∧
        e.expiresAt = some (s.redis.now + (messageTtl envelope).toNat)

/-- Something waits under the key of the message. -/
def Waits (envelope : EncryptedEnvelope) (d : Uuid) (s : Server) : Prop :=
  ∃ e, s.redis.peek (msgKey d envelope.messageId) = some e

theorem Queues.trans {m : Server} (first : Queues envelope d s m)
    (second : Queues envelope d m s') :
    Queues envelope d s s' where
  now := second.now.trans first.now
  closed := second.closed.trans first.closed
  away := second.away
  stays e found := second.stays e (first.stays e found)
  comes e found absent := by
    cases between : m.redis.peek (msgKey d envelope.messageId) with
    | none =>
        rw [← first.now]
        exact second.comes e found between
    | some e' =>
        have same := second.stays e' between
        rw [found] at same
        rw [Option.some.inj same]
        exact first.comes e' between absent

theorem Queues.waits (queues : Queues envelope d s s') (waits : Waits envelope d s) :
    Waits envelope d s' := by
  obtain ⟨e, found⟩ := waits
  exact ⟨e, queues.stays e found⟩

/-- Nothing but the channels, the push service and the registry of others changes. -/
theorem queues_of_redis (away : s'.connections d = none) (redis : s'.redis = s.redis)
    (closed : s'.closed = s.closed) : Queues envelope d s s' where
  now := by rw [redis]
  closed := closed
  away := away
  stays e found := by rw [redis, found]
  comes e found absent := by
    rw [redis, absent] at found
    cases found

theorem queues_enqueued {d' : Uuid} (lasts : messageTtl envelope ≠ 0)
    (away : s'.connections d = none) (closed : s'.closed = s.closed)
    (redis : s'.redis = (enqueuedFor s envelope d').2) :
    Queues envelope d s s' ∧ (d' = d → Waits envelope d s') := by
  have positive : ∀ n ∈ some (messageTtl envelope).toNat, 0 < n := by
    intro n given
    obtain rfl := Option.some.inj given
    rw [Nat.pos_iff_ne_zero]
    exact fun zero => lasts (UInt64.toNat_inj.mp zero)
  rw [enqueuedFor, enqueued, if_neg lasts] at redis
  by_cases there : (s.redis.get? (msgKey d' envelope.messageId)).isSome
  · rw [if_pos there] at redis
    have same : Queues envelope d s s' := queues_of_redis away redis closed
    refine ⟨same, ?_⟩
    rintro rfl
    obtain ⟨blob, found⟩ := Option.isSome_iff_exists.mp there
    obtain ⟨e, found, -⟩ := Store.get?_eq_some.mp found
    exact ⟨e, same.stays e found⟩
  · rw [if_neg there] at redis
    by_cases same : d' = d
    · subst same
      have none_ : s.redis.peek (msgKey d' envelope.messageId) = none := by
        rw [← Store.get?_eq_none, ← Option.not_isSome_iff_eq_none]
        exact there
      have written : s'.redis.peek (msgKey d' envelope.messageId) =
          some ⟨envelopeBlob envelope, some (s.redis.now + (messageTtl envelope).toNat),
            s.redis.now, s.redis.serial⟩ := by
        rw [redis, Store.peek_set positive, none_]
        rfl
      refine ⟨⟨by rw [redis, Store.now_set], closed, away, ?_, ?_⟩, fun _ => ⟨_, written⟩⟩
      · intro e found
        rw [none_] at found
        cases found
      · intro e found _
        rw [written] at found
        rw [← Option.some.inj found]
        exact ⟨rfl, rfl⟩
    · have other : s'.redis.peek (msgKey d envelope.messageId) =
          s.redis.peek (msgKey d envelope.messageId) := by
        rw [redis, Store.peek_set_of_ne]
        intro keys
        exact same (msgKey_inj.mp keys).1.symm
      refine ⟨⟨by rw [redis, Store.now_set], closed, away, ?_, ?_⟩, fun is => absurd is same⟩
      · intro e found
        rw [other, found]
      · intro e found absent
        rw [other, absent] at found
        cases found

theorem queues_sendMessage (lasts : messageTtl envelope ≠ 0)
    (away : s.connections envelope.recipientDeviceId = none)
    (run : Runs Clean (sendMessage config envelope).run s (.ok ()) s') :
    Queues envelope envelope.recipientDeviceId s s' ∧
      Waits envelope envelope.recipientDeviceId s' := by
  obtain ⟨-, pushed, rfl⟩ := runs_queueMessage ((runs_sendMessage_offline away).mp run)
  obtain ⟨queues, waits⟩ := @queues_enqueued s { s with
    redis := (enqueuedFor s envelope envelope.recipientDeviceId).2, pushed := pushed }
    envelope.recipientDeviceId envelope envelope.recipientDeviceId lasts away rfl rfl
  exact ⟨queues, waits rfl⟩

theorem queues_sendToMember {d' : Uuid} (lasts : messageTtl envelope ≠ 0)
    (away : s.connections d = none)
    (run : Runs Clean (sendToMember group envelope d').run s (.ok ()) s') :
    Queues envelope d s s' ∧ (d' = d → Waits envelope d s') := by
  have sent :
      Queues envelope d s (afterSend s d' (WsMessage.sendGroupMessage group envelope).text) :=
    queues_of_redis (afterSend_offline away) redis_afterSend closed_afterSend
  rcases runs_sendToMember run with ⟨online, rfl⟩ | ⟨-, rfl⟩
  · refine ⟨sent, ?_⟩
    rintro rfl
    obtain ⟨socket, found, -⟩ := online
    rw [away] at found
    cases found
  · exact queues_enqueued lasts sent.away sent.closed rfl

theorem queues_sendToMembers {devices : List Db.Device} (lasts : messageTtl envelope ≠ 0)
    (away : s.connections d = none)
    (run : Runs Clean (forM devices fun device => sendToMember group envelope device.id).run s
      (.ok ()) s') :
    Queues envelope d s s' ∧ (d ∈ devices.map Db.Device.id → Waits envelope d s') := by
  induction devices generalizing s with
  | nil =>
      obtain ⟨-, rfl⟩ := runs_run_pure.mp run
      exact ⟨queues_of_redis away rfl rfl, fun member => (by cases member)⟩
  | cons device devices ih =>
      rw [List.forM_cons, runs_run_bind_ok] at run
      obtain ⟨⟨⟩, m, first, rest⟩ := run
      obtain ⟨queues, here⟩ := queues_sendToMember lasts away first
      obtain ⟨queues', later⟩ := ih queues.away rest
      refine ⟨queues.trans queues', fun member => ?_⟩
      rcases List.mem_cons.mp member with same | member
      · exact queues'.waits (here same.symm)
      · exact later member

/-- The devices of the users of a group but one. -/
def memberDevices (tables : Db.Tables) (user group : Uuid) : List Db.Device :=
  tables.devices.filter fun row =>
    row.userId ∈ otherMembers user (tables.groupMembers.filter fun m => m.groupId = group)

/-- The device is one the message is for, and this is what it carries. -/
def Recipient (tables : Db.Tables) (user : Uuid) (message : WsMessage) (d : Uuid)
    (envelope : EncryptedEnvelope) : Prop :=
  (message = .sendMessage envelope ∧ d = envelope.recipientDeviceId) ∨
    ∃ group, message = .sendGroupMessage group envelope ∧
      d ∈ (memberDevices tables user group).map Db.Device.id

theorem runs_sendGroupMessage
    (run : Runs Clean (sendGroupMessage user group envelope).run s (.ok ()) s') :
    Runs Clean (forM (memberDevices s.db user group) fun device =>
      sendToMember group envelope device.id).run s (.ok ()) s' := by
  simp only [sendGroupMessage, devicesOrNone, runs_run_bind_ok, runs_adapt,
    runs_attempt, runs_query]
    at run
  obtain ⟨members, m, ⟨_, ⟨rfl, rfl⟩, listed⟩, devices, m', ⟨_, _, ⟨_, ⟨rfl, rfl⟩, found⟩, these⟩,
    rest⟩ := run
  obtain rfl := Except.ok.inj listed
  obtain rfl := Except.ok.inj found
  obtain ⟨same, rfl⟩ := runs_run_pure.mp these
  obtain rfl := Except.ok.inj same
  exact rest

theorem told_handleWsMessage (recipient : Recipient s.db user message d envelope)
    (online : s.Online d)
    (run : Runs Clean (handleWsMessage config chrono user sender message).run s (.ok ()) s') :
    Told s s' d := by
  rcases recipient with ⟨rfl, rfl⟩ | ⟨group, rfl, member⟩
  · simp only [handleWsMessage, sendMessage, runs_run_bind_ok, runs_run_lift,
      runs_sendToDevice] at run
    obtain ⟨sent, m, ⟨sent', ⟨there, rfl⟩, same⟩, rest⟩ := run
    rw [← Except.ok.inj same, if_pos (there.mpr online)] at rest
    obtain ⟨-, rfl⟩ := runs_run_pure.mp rest
    exact told_afterSend online
  · exact (online_sendToMembers online (runs_sendGroupMessage run)).2 member

theorem queues_handleWsMessage (recipient : Recipient s.db user message d envelope)
    (lasts : messageTtl envelope ≠ 0) (away : s.connections d = none)
    (run : Runs Clean (handleWsMessage config chrono user sender message).run s (.ok ()) s') :
    Queues envelope d s s' ∧ Waits envelope d s' := by
  rcases recipient with ⟨rfl, rfl⟩ | ⟨group, rfl, member⟩
  · exact queues_sendMessage lasts away run
  · obtain ⟨queues, waits⟩ := queues_sendToMembers lasts away (runs_sendGroupMessage run)
    exact ⟨queues, waits member⟩

theorem runs_deliverQueued {socket : SocketId} {q : QueuedMessage}
    (connected : s.connections d = some socket) (alive : s.closed socket = false)
    (run : Runs Clean (deliverQueued serde d q) s () s') :
    s' = { s with sent := s.sent ++ [⟨socket, d, queuedText serde q.encryptedBlob⟩] } := by
  rw [deliverQueued] at run
  rw [queuedText]
  split at run
  · simp only [runs_bind, runs_sendToDevice, runs_pure] at run
    obtain ⟨_, m, ⟨-, rfl⟩, -, rfl⟩ := run
    simp [afterSend, connected, alive]
  · simp only [runs_bind, runs_trySend, runs_pure, connected, alive] at run
    obtain ⟨_, m, answer, -, rfl⟩ := run
    exact (Prod.mk.inj answer).2.symm

theorem sent_deliverQueued {socket : SocketId} {queue : List QueuedMessage}
    (connected : s.connections d = some socket) (alive : s.closed socket = false)
    (run : Runs Clean (forM queue fun q => deliverQueued serde d q) s () s') :
    s'.sent = s.sent ++ queue.map fun q => ⟨socket, d, queuedText serde q.encryptedBlob⟩ := by
  induction queue generalizing s with
  | nil =>
      obtain ⟨-, rfl⟩ := runs_pure.mp run
      simp
  | cons q queue ih =>
      rw [List.forM_cons, runs_bind] at run
      obtain ⟨⟨⟩, m, first, rest⟩ := run
      obtain rfl := runs_deliverQueued connected alive first
      have later := ih (s := { s with
        sent := s.sent ++ [⟨socket, d, queuedText serde q.encryptedBlob⟩] }) connected alive rest
      rw [later, List.map_cons, List.append_assoc, List.singleton_append]

/-- The device was sent what waited for it, and among this the text for a message. -/
def SentFor (serde : SerdeJson) (s s' : Server) (d : Uuid) (messageId text : String) : Prop :=
  ∃ queue : List QueuedMessage,
    newTexts s s' d = queue.map (fun q => queuedText serde q.encryptedBlob) ∧
    (∀ q, q ∈ queue ↔ s.redis.get? (msgKey d q.messageId) = some q.encryptedBlob) ∧
    ∃ q ∈ queue, q.messageId = messageId ∧ queuedText serde q.encryptedBlob = text

theorem sentFor_deliverPendingMessages {socket : SocketId} {pages : Nat} {id text : String}
    (connected : s.connections d = some socket) (alive : s.closed socket = false)
    (run : Runs Clean (deliverPendingMessages serde pages d) s () s') :
    SentFor serde s s' d id text ↔
      ∃ blob, s.redis.get? (msgKey d id) = some blob ∧ queuedText serde blob = text := by
  constructor
  · rintro ⟨queue, -, all, q, member, rfl, is⟩
    exact ⟨q.encryptedBlob, (all q).mp member, is⟩
  · rintro ⟨blob, found, is⟩
    simp only [deliverPendingMessages, runs_bind, runs_onRedis] at run
    obtain ⟨outcome, m, ⟨r, drain, rfl⟩, rest⟩ := run
    obtain ⟨queue, rfl⟩ := succeeds_dequeueAll pages _ _ _ drain
    have sent := sent_deliverQueued (s := { s with redis := r }) connected alive rest
    refine ⟨queue, ?_, fun q => mem_of_runs_dequeueAll drain, ⟨id, blob⟩, ?_, rfl, is⟩
    · rw [newTexts, sent, List.drop_left]
      simp [List.filter_map, Function.comp_def]
    · exact (mem_of_runs_dequeueAll drain).mpr found

theorem queuedText_envelopeBlob (lawful : serde.Lawful) (envelope : EncryptedEnvelope) :
    queuedText serde (envelopeBlob envelope) = (WsMessage.sendMessage envelope).text := by
  have read : (serde.fromSlice (envelopeBlob envelope)).toOption.bind EncryptedEnvelope.ofJson =
      some envelope := by
    rw [envelopeBlob, lawful, EncryptedEnvelope.toJson]
    change Option.bind (some _) EncryptedEnvelope.ofJson = _
    rw [Option.bind_some, EncryptedEnvelope.ofJson_members]
  rw [queuedText, read]

/-- Nothing waits yet under the key of the message and it is no group message, or what waits
under its key is the same message and lives until the device connects. -/
def DeliversSame (serde : SerdeJson) (s : Server) (d : Uuid) (message : WsMessage)
    (envelope : EncryptedEnvelope) (seconds : Nat) : Prop :=
  (s.redis.peek (msgKey d envelope.messageId) = none ∧ message = .sendMessage envelope) ∨
    ∃ e, s.redis.peek (msgKey d envelope.messageId) = some e ∧
      e.Live (s.redis.now + seconds) ∧ queuedText serde e.value = message.text

theorem total_deliverPendingMessages (serde : SerdeJson) (d : Uuid) :
    Total Clean (deliverPendingMessages serde 1 d) := by
  refine Total.bind (total_onRedis (total_scanLoop total_dequeuePage .zero [])) fun outcome => ?_
  cases outcome with
  | error e => exact total_pure _
  | ok queue =>
      refine total_forM queue fun q => ?_
      unfold deliverQueued
      split
      · exact (total_sendToDevice d _).bind fun _ => total_pure _
      · exact Total.bind (total_act fun _ => ⟨{}, rfl⟩) fun _ => total_pure _

theorem succeeds_sendGroupMessage (user group : Uuid) (envelope : EncryptedEnvelope) :
    Succeeds Clean (sendGroupMessage user group envelope) := by
  refine Succeeds.bind ?_ fun members => ?_
  · intro s r s' run
    simp only [runs_adapt, runs_query] at run
    obtain ⟨_, ⟨rfl, -⟩, rfl⟩ := run
    exact ⟨_, rfl⟩
  · refine Succeeds.bind (Succeeds.bind (succeeds_lift _) fun found => ?_) fun devices => ?_
    · split
      · exact succeeds_pure _
      · exact succeeds_pure _
    · refine succeeds_forM devices fun device => Succeeds.bind (succeeds_lift _) fun sent => ?_
      split
      · exact succeeds_pure _
      · exact Succeeds.bind (succeeds_lift _) fun _ => succeeds_pure _

theorem sendGroupMessage_returns (s : Server) (user group : Uuid) (envelope : EncryptedEnvelope) :
    ∃ s', Runs Clean (sendGroupMessage user group envelope).run s (.ok ()) s' := by
  have total : Total Clean (sendGroupMessage user group envelope).run := by
    refine Total.run_bind (total_query _).adapt fun members => ?_
    refine Total.run_bind (Total.run_bind (total_query _).attempt fun found => ?_) fun devices => ?_
    · split
      · exact total_pure _
      · exact total_pure _
    · refine total_run_forM devices fun device => ?_
      refine Total.run_bind (total_sendToDevice _ _).lift fun sent => ?_
      split
      · exact total_pure _
      · refine Total.run_bind (Total.attempt (total_onRedis ?_)) fun _ => total_pure _
        intro r
        exact ⟨_, _, runs_enqueue.mpr rfl⟩
  obtain ⟨outcome, s', run⟩ := total s
  obtain ⟨⟨⟩, rfl⟩ := succeeds_sendGroupMessage user group envelope s outcome s' run
  exact ⟨s', run⟩

/-- What waits when a device connects before its message has expired. -/
theorem waits_same_iff {seconds : Nat} (lawful : serde.Lawful)
    (queues : Queues envelope d s s') (waits : Waits envelope d s')
    (before : seconds < (messageTtl envelope).toNat) :
    (∃ blob, (s'.wait seconds).redis.get? (msgKey d envelope.messageId) = some blob ∧
      queuedText serde blob = message.text) ↔ DeliversSame serde s d message envelope seconds := by
  obtain ⟨e, found⟩ := waits
  have later : (∃ blob, (s'.wait seconds).redis.get? (msgKey d envelope.messageId) = some blob ∧
      queuedText serde blob = message.text) ↔
        e.Live (s.redis.now + seconds) ∧ queuedText serde e.value = message.text := by
    rw [← queues.now]
    constructor
    · rintro ⟨blob, read, same⟩
      obtain ⟨e', found', rfl⟩ := Store.get?_eq_some.mp read
      obtain ⟨found', live⟩ := Store.peek_advance.mp found'
      rw [found] at found'
      rw [Option.some.inj found']
      exact ⟨live, same⟩
    · rintro ⟨live, same⟩
      refine ⟨e.value, ?_, same⟩
      exact Store.get?_eq_some.mpr ⟨e, Store.peek_advance.mpr ⟨found, live⟩, rfl⟩
  rw [later, DeliversSame]
  cases before_ : s.redis.peek (msgKey d envelope.messageId) with
  | some e' =>
      have same := queues.stays e' before_
      rw [found] at same
      rw [Option.some.inj same]
      simp
  | none =>
      obtain ⟨value, expires⟩ := queues.comes e found before_
      have live : e.Live (s.redis.now + seconds) := by
        intro t given
        rw [expires] at given
        rw [← Option.some.inj given]
        omega
      rw [value, queuedText_envelopeBlob lawful]
      have same : (WsMessage.sendMessage envelope).text = message.text ↔
          message = .sendMessage envelope := by
        rw [WsMessage.text_injective.eq_iff]
        exact eq_comm
      simp [same, live]

section

variable {socket : SocketId} {seconds pages : Nat} {s₁ s₂ s₃ : Server}
  (recipient : Recipient s.db user message d envelope) (away : s.connections d = none)
  (alive : s.closed socket = false)
  (accepted : Runs Clean (handleWsMessage config chrono user sender message).run s (.ok ()) s₁)
  (before : seconds < (messageTtl envelope).toNat)
  (drained : Runs Clean (deliverPendingMessages serde pages d)
    ((s₁.wait seconds).connect d socket) () s₂)
  (online : Runs Clean (handleWsMessage config chrono user sender message).run
    (s.connect d socket) (.ok ()) s₃)

include recipient alive online in
theorem only_online : Only (newTexts (s.connect d socket) s₃ d) message.text := by
  have there : (s.connect d socket).Online d := ⟨socket, Function.update_self _ _ _, alive⟩
  exact only_of_sent online (told_handleWsMessage (s := s.connect d socket) recipient there online)

include recipient away alive accepted before drained in
theorem sentFor_offline (text : String) :
    Queues envelope d s s₁ ∧ Waits envelope d s₁ ∧
      (SentFor serde ((s₁.wait seconds).connect d socket) s₂ d envelope.messageId text ↔
        ∃ blob, (s₁.wait seconds).redis.get? (msgKey d envelope.messageId) = some blob ∧
          queuedText serde blob = text) := by
  have lasts : messageTtl envelope ≠ 0 := by
    intro zero
    rw [zero] at before
    exact Nat.not_lt_zero _ before
  obtain ⟨queues, waits⟩ := queues_handleWsMessage recipient lasts away accepted
  have open_ : ((s₁.wait seconds).connect d socket).closed socket = false := by
    rw [← alive, ← queues.closed]
    rfl
  refine ⟨queues, waits, ?_⟩
  exact sentFor_deliverPendingMessages (Function.update_self _ _ _) open_ drained

/-- A message that was accepted while a recipient was away reaches it as it would have reached
it online, exactly when what waits under its name is the same message. -/
theorem offline_same_iff (lawful : serde.Lawful)
    (recipient : Recipient s.db user message d envelope) (away : s.connections d = none)
    (alive : s.closed socket = false)
    (accepted : Runs Clean (handleWsMessage config chrono user sender message).run s (.ok ()) s₁)
    (before : seconds < (messageTtl envelope).toNat)
    (drained : Runs Clean (deliverPendingMessages serde pages d)
      ((s₁.wait seconds).connect d socket) () s₂)
    (online : Runs Clean (handleWsMessage config chrono user sender message).run
      (s.connect d socket) (.ok ()) s₃) :
    (∃ text, Only (newTexts (s.connect d socket) s₃ d) text ∧
      SentFor serde ((s₁.wait seconds).connect d socket) s₂ d envelope.messageId text) ↔
        DeliversSame serde s d message envelope seconds := by
  have only := only_online recipient alive online
  obtain ⟨queues, waits, received⟩ := sentFor_offline recipient away alive accepted before
    drained message.text
  rw [← waits_same_iff lawful queues waits before, ← received]
  constructor
  · rintro ⟨text, same, sent⟩
    obtain ⟨t, listed⟩ := List.exists_mem_of_ne_nil _ only.1
    obtain rfl : text = message.text := (same.2 t listed).symm.trans (only.2 t listed)
    exact sent
  · intro sent
    exact ⟨message.text, only, sent⟩

end

end

section

/-- A message to the device 1 of user 2, whose group 9 has user 3 for another member. -/
def groupEnvelope : EncryptedEnvelope := ⟨.replicate 16 1, "1", "", none, none, none, false⟩

def groupMessage : WsMessage := .sendGroupMessage (.replicate 16 9) groupEnvelope

def groupServer : Server :=
  Server.start 0
    { devices := [.sample (.replicate 16 1) (.replicate 16 2)]
      groupMembers :=
        [.sample (.replicate 16 9) (.replicate 16 2), .sample (.replicate 16 9) (.replicate 16 3)] }

theorem recipient_groupMessage :
    Recipient groupServer.db (.replicate 16 3) groupMessage (.replicate 16 1) groupEnvelope :=
  Or.inr ⟨.replicate 16 9, rfl, by decide⟩

/-- User 3 writes to the group, and the device of user 2 connects a minute later, or is online. -/
theorem groupMessage_runs :
    ∃ s₁ s₂ s₃, Runs Clean (handleWsMessage ⟨none, ""⟩ Chrono.sample (.replicate 16 3)
        (.replicate 16 5) groupMessage).run groupServer (.ok ()) s₁ ∧
      Runs Clean (deliverPendingMessages SerdeJson.sample 1 (.replicate 16 1))
        ((s₁.wait 60).connect (.replicate 16 1) 0) () s₂ ∧
      Runs Clean (handleWsMessage ⟨none, ""⟩ Chrono.sample (.replicate 16 3) (.replicate 16 5)
        groupMessage).run (groupServer.connect (.replicate 16 1) 0) (.ok ()) s₃ := by
  obtain ⟨s₁, accepted⟩ := sendGroupMessage_returns groupServer (.replicate 16 3) (.replicate 16 9)
    groupEnvelope
  obtain ⟨⟨⟩, s₂, drained⟩ := total_deliverPendingMessages SerdeJson.sample (.replicate 16 1)
    ((s₁.wait 60).connect (.replicate 16 1) 0)
  obtain ⟨s₃, online⟩ := sendGroupMessage_returns (groupServer.connect (.replicate 16 1) 0)
    (.replicate 16 3) (.replicate 16 9) groupEnvelope
  exact ⟨s₁, s₂, s₃, accepted, drained, online⟩

theorem offline_same_iff_group :
    ∃ s₁ s₂ s₃ : Server,
      ((∃ text,
      Only (newTexts (groupServer.connect (.replicate 16 1) 0) s₃ (.replicate 16 1)) text ∧
        SentFor SerdeJson.sample ((s₁.wait 60).connect (.replicate 16 1) 0) s₂ (.replicate 16 1) "1"
          text) ↔
        DeliversSame SerdeJson.sample groupServer
        (.replicate 16 1) groupMessage groupEnvelope 60) := by
  obtain ⟨s₁, s₂, s₃, accepted, drained, online⟩ := groupMessage_runs
  refine ⟨s₁, s₂, s₃, ?_⟩
  exact offline_same_iff SerdeJson.sample_lawful recipient_groupMessage rfl rfl accepted (by decide)
    drained online

/-- The device gets a direct message, where it would have got a group message online. -/
theorem group_message_loses_group :
    ∃ s₁ s₂ s₃, Runs Clean (handleWsMessage ⟨none, ""⟩ Chrono.sample (.replicate 16 3)
        (.replicate 16 5) groupMessage).run groupServer (.ok ()) s₁ ∧
      Runs Clean (deliverPendingMessages SerdeJson.sample 1 (.replicate 16 1))
        ((s₁.wait 60).connect (.replicate 16 1) 0) () s₂ ∧
      Runs Clean (handleWsMessage ⟨none, ""⟩ Chrono.sample (.replicate 16 3) (.replicate 16 5)
        groupMessage).run (groupServer.connect (.replicate 16 1) 0) (.ok ()) s₃ ∧
      ∃ text text', Only (newTexts (groupServer.connect (.replicate 16 1) 0) s₃ (.replicate 16 1))
          text ∧
        SentFor SerdeJson.sample ((s₁.wait 60).connect (.replicate 16 1) 0) s₂ (.replicate 16 1) "1"
          text' ∧ text ≠ text' := by
  obtain ⟨s₁, s₂, s₃, accepted, drained, online⟩ := groupMessage_runs
  have only := only_online recipient_groupMessage rfl online
  obtain ⟨queues, ⟨e, found⟩, received⟩ := sentFor_offline recipient_groupMessage rfl rfl accepted
    (by decide) drained (WsMessage.sendMessage groupEnvelope).text
  obtain ⟨value, expires⟩ := queues.comes e found rfl
  have live : e.Live (s₁.redis.now + 60) := by
    intro t given
    rw [expires] at given
    rw [← Option.some.inj given, queues.now]
    decide
  have read : (s₁.wait 60).redis.get? (msgKey (.replicate 16 1) groupEnvelope.messageId) =
      some (envelopeBlob groupEnvelope) :=
    Store.get?_eq_some.mpr ⟨e, Store.peek_advance.mpr ⟨found, live⟩, value⟩
  refine ⟨s₁, s₂, s₃, accepted, drained, online, _, _, only, received.mpr ⟨_, read, ?_⟩, ?_⟩
  · exact queuedText_envelopeBlob SerdeJson.sample_lawful groupEnvelope
  · intro same
    cases WsMessage.text_injective same

end

end Hysj.Api
