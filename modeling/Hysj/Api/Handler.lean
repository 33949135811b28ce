import Hysj.Api.State

set_option autoImplicit false

/- The WebSocket handler: what the server does with a message of a client, and what it
delivers to a device that connects. -/
namespace Hysj.Api

open Crypto Shared Messaging Program

/-- How long an envelope waits in the queue. -/
def messageTtl (envelope : EncryptedEnvelope) : UInt64 :=
  (envelope.ttlSeconds.map UInt32.toUInt64).getD MESSAGE_TTL_SECONDS

/-- The envelope as it is queued. -/
def envelopeBlob (envelope : EncryptedEnvelope) : Bytes := Json.toVec envelope.toJson

section

variable (config : AppConfig) (chrono : Chrono)

/-- Queue a message for a device that could not be sent it. -/
def queueMessage (envelope : EncryptedEnvelope) : Task String Unit := do
  ExceptT.adapt MessagingError.display <| onRedis <|
    enqueue envelope.recipientDeviceId envelope.messageId (envelopeBlob envelope)
      (messageTtl envelope)
  match config.fcmServerKey with
  | some fcmKey => do
      let _ ← attempt (sendPushNotification fcmKey envelope.recipientDeviceId "Hysj" "New message")
  | none => return ()

def sendMessage (envelope : EncryptedEnvelope) : Task String Unit := do
  if ← liftM (sendToDevice envelope.recipientDeviceId (.sendMessage envelope)) then return ()
  else queueMessage config envelope

/-- One recipient of a group message. That it could not be queued is ignored. -/
def sendToMember (groupId : Uuid) (envelope : EncryptedEnvelope) (deviceId : Uuid) :
    Task String Unit := do
  if ← liftM (sendToDevice deviceId (.sendGroupMessage groupId envelope)) then return ()
  else
    let _ ← attempt (onRedis
      (enqueue deviceId envelope.messageId (envelopeBlob envelope) (messageTtl envelope)))

/-- The users of a group but one. -/
def otherMembers (userId : Uuid) (members : List Db.GroupMember) : List Uuid :=
  (members.filter fun m => m.userId ≠ userId).map Db.GroupMember.userId

/-- `.await.unwrap_or_default()` on a list of devices. -/
def devicesOrNone (statement : Db.Statement (List Db.Device)) : Task String (List Db.Device) := do
  match ← attempt (query fun _ => statement) with
  | .ok devices => return devices
  | .error _ => return []

def sendGroupMessage (userId groupId : Uuid) (envelope : EncryptedEnvelope) :
    Task String Unit := do
  let members ← ExceptT.adapt DbError.display (query fun _ => Db.getMembers groupId)
  let devices ← devicesOrNone (Db.listByUsers (otherMembers userId members))
  forM devices fun device => sendToMember groupId envelope device.id

/-- The devices of the partner, if the request names one. -/
def partnerDevices (request : WipeRequest) : Task String (List Db.Device) :=
  match request.conversationPartnerId with
  | some partnerId => devicesOrNone (Db.listByUser partnerId)
  | none => return []

/-- The devices a wipe is for, as the WebSocket finds them. -/
def wipeTargets (userId : Uuid) (request : WipeRequest) : Task String (List Uuid) :=
  match request.wipeType with
  | .all => do
      let devices ← devicesOrNone (Db.listByUser userId)
      return devices.map Db.Device.id
  | .device => return request.targetDeviceId.toList
  | .conversation => do
      let partners ← partnerDevices request
      let own ← devicesOrNone (Db.listByUser userId)
      return partners.map Db.Device.id ++ own.map Db.Device.id

def wipeCommand (userId senderDeviceId : Uuid) (request : WipeRequest) : Task String Unit := do
  let targets ← wipeTargets userId request
  let _ ← ExceptT.adapt MessagingError.display
    (onRedis (Messaging.issueWipe chrono targets request))
  liftM (sendToEach (targets.filter fun d => d ≠ senderDeviceId) (.wipeCommand request))

def pinMessage (userId : Uuid) (pin : PinMessage) : Task String Unit := do
  let isMember ← attempt (query fun _ => Db.isMember pin.groupId userId)
  if isMember.toOption = some true then
    ExceptT.adapt DbError.display <| query fun _ =>
      if pin.pin then Db.pin pin.groupId pin.messageId userId
      else Db.unpin pin.groupId pin.messageId
    let members ← attempt (query fun _ => Db.getMembers pin.groupId)
    let devices ← devicesOrNone
      (Db.listByUsers (otherMembers userId (members.toOption.getD [])))
    liftM (sendToEach (devices.map Db.Device.id) (.pinMessage pin))
  else throw "Not a member of this group"

def handleWsMessage (userId senderDeviceId : Uuid) (message : WsMessage) : Task String Unit :=
  match message with
  | .sendMessage envelope => sendMessage config envelope
  | .sendGroupMessage groupId envelope => sendGroupMessage userId groupId envelope
  | .delivered ack => do
      let _ ← ExceptT.adapt MessagingError.display
        (onRedis (deleteMessage ack.deviceId ack.messageId))
  | .typing indicator => liftM (sendToUserDevices indicator.recipientId (.typing indicator))
  | .read receipt => liftM (sendToUserDevices receipt.senderId (.read receipt))
  | .wipeCommand request => wipeCommand chrono userId senderDeviceId request
  | .wipeAck ack => do
      let _ ← ExceptT.adapt MessagingError.display (onRedis (confirmWipe ack.deviceId ack.wipeId))
  | .saveInChat save => liftM (sendToUserDevices save.recipientId (.saveInChat save))
  | .reaction change => liftM (sendToUserDevices change.recipientId (.reaction change))
  | .callSignal signal => liftM (sendToUserDevices signal.peerId (.callSignal signal))
  | .pinMessage pin => pinMessage userId pin
  | .error _ => return ()

end

section

variable {config : AppConfig} {s s' : Server} {envelope : EncryptedEnvelope}

/-- What `enqueue` comes to for an envelope and one of its recipients. -/
def enqueuedFor (s : Server) (envelope : EncryptedEnvelope) (deviceId : Uuid) :
    Except MessagingError Unit × Redis :=
  enqueued s.redis deviceId envelope.messageId (envelopeBlob envelope) (messageTtl envelope)

theorem runs_sendPushNotification {key title body : String} {d : Uuid}
    {result : Except String Unit}
    (run : Runs Clean (sendPushNotification key d title body).run s result s') :
    ∃ pushed, s' = { s with pushed := pushed } := by
  rw [sendPushNotification, runs_run_bind] at run
  rcases run with ⟨token, m, first, rest⟩ | ⟨e, -, failed⟩
  · simp only [runs_adapt, runs_onRedis, runs_get] at first
    obtain ⟨_, ⟨r, ⟨-, rfl⟩, rfl⟩, -⟩ := first
    split at rest
    · exact ⟨s.pushed, (runs_run_pure.mp rest).2.symm⟩
    · split at rest
      · exact ⟨s.pushed, (runs_run_throw.mp rest).2.symm⟩
      · obtain ⟨c, clean, answer⟩ := runs_act.mp rest
        rw [clean] at answer
        exact ⟨_, (Prod.mk.inj answer).2.symm⟩
  · simp only [runs_adapt, runs_onRedis, runs_get] at failed
    obtain ⟨_, ⟨r, ⟨rfl, -⟩, -⟩, same⟩ := failed
    cases same

theorem total_sendPushNotification (key title body : String) (d : Uuid) :
    Total Clean (sendPushNotification key d title body).run := by
  refine Total.run_bind (total_onRedis (total_command _)).adapt fun token => ?_
  cases token with
  | none => exact total_pure _
  | some bytes =>
      dsimp only
      split
      · exact total_pure _
      · exact total_act fun _ => ⟨{}, rfl⟩

theorem runs_queueMessage (run : Runs Clean (queueMessage config envelope).run s (.ok ()) s') :
    (enqueuedFor s envelope envelope.recipientDeviceId).1 = .ok () ∧
      ∃ pushed, s' = { s with
        redis := (enqueuedFor s envelope envelope.recipientDeviceId).2, pushed := pushed } := by
  simp only [queueMessage, runs_run_bind_ok, runs_adapt, runs_onRedis, runs_enqueue] at run
  obtain ⟨_, m, ⟨result, ⟨r, answer, rfl⟩, ok⟩, rest⟩ := run
  have stored : enqueuedFor s envelope envelope.recipientDeviceId = (.ok (), r) := by
    cases result with
    | ok _ => exact answer
    | error e => cases ok
  rw [stored]
  refine ⟨rfl, ?_⟩
  split at rest
  · simp only [runs_run_bind_ok, runs_attempt, runs_run_pure] at rest
    obtain ⟨_, m, ⟨_, push, -⟩, -, rfl⟩ := rest
    obtain ⟨pushed, rfl⟩ := runs_sendPushNotification push
    exact ⟨pushed, rfl⟩
  · exact ⟨s.pushed, (runs_run_pure.mp rest).2.symm⟩

theorem queueMessage_returns (config : AppConfig)
    (stored : (enqueuedFor s envelope envelope.recipientDeviceId).1 = .ok ()) :
    ∃ pushed, Runs Clean (queueMessage config envelope).run s (.ok ()) { s with
      redis := (enqueuedFor s envelope envelope.recipientDeviceId).2, pushed := pushed } := by
  have first : Runs Clean (ExceptT.adapt MessagingError.display (onRedis
      (enqueue envelope.recipientDeviceId envelope.messageId (envelopeBlob envelope)
        (messageTtl envelope)))).run s (.ok ())
      { s with redis := (enqueuedFor s envelope envelope.recipientDeviceId).2 } := by
    simp only [runs_adapt, runs_onRedis, runs_enqueue]
    exact ⟨.ok (), ⟨_, Prod.ext stored rfl, rfl⟩, rfl⟩
  cases pushes : config.fcmServerKey with
  | none =>
      refine ⟨s.pushed, runs_run_bind_ok.mpr ⟨(), _, first, ?_⟩⟩
      rw [pushes]
      exact runs_run_pure.mpr ⟨rfl, rfl⟩
  | some key =>
      obtain ⟨result, s', run⟩ := total_sendPushNotification key "Hysj" "New message"
        envelope.recipientDeviceId { s with redis := (enqueuedFor s envelope
          envelope.recipientDeviceId).2 }
      obtain ⟨pushed, rfl⟩ := runs_sendPushNotification run
      refine ⟨pushed, runs_run_bind_ok.mpr ⟨(), _, first, ?_⟩⟩
      rw [pushes]
      simp only [runs_run_bind_ok, runs_attempt, runs_run_pure]
      exact ⟨_, _, ⟨_, run, rfl⟩, trivial, rfl⟩

/-- A message to an offline device is queued, or refused with the error of the queue. -/
theorem runs_sendMessage_offline (offline : s.connections envelope.recipientDeviceId = none) :
    Runs Clean (sendMessage config envelope).run s (.ok ()) s' ↔
      Runs Clean (queueMessage config envelope).run s (.ok ()) s' := by
  have away : ¬ s.Online envelope.recipientDeviceId := by
    rintro ⟨socket, found, -⟩
    rw [offline] at found
    cases found
  simp only [sendMessage, runs_run_bind_ok, runs_run_lift, runs_sendToDevice]
  constructor
  · rintro ⟨sent, m, ⟨_, ⟨online, rfl⟩, same⟩, rest⟩
    obtain rfl := Except.ok.inj same
    rw [afterSend, offline] at rest
    rw [if_neg fun there => away (online.mp there)] at rest
    exact rest
  · intro run
    refine ⟨false, s, ⟨false, ⟨by simpa using away, ?_⟩, rfl⟩, run⟩
    rw [afterSend, offline]

end

section

variable (serde : SerdeJson) (chrono : Chrono)

/-- The text a queued blob is delivered as. One that is no envelope is delivered as it is. -/
def queuedText (blob : Bytes) : String :=
  match (serde.fromSlice blob).toOption.bind EncryptedEnvelope.ofJson with
  | some envelope => (WsMessage.sendMessage envelope).text
  | none => Utf8.fromUtf8Lossy blob

/-- One queued message. A closed channel is only noticed with an envelope. -/
def deliverQueued (deviceId : Uuid) (queued : QueuedMessage) : Program Chance Server Unit :=
  match (serde.fromSlice queued.encryptedBlob).toOption.bind EncryptedEnvelope.ofJson with
  | some envelope => do
      let _ ← sendToDevice deviceId (.sendMessage envelope)
  | none => do
      let _ ← trySend deviceId (Utf8.fromUtf8Lossy queued.encryptedBlob)

def deliverPendingMessages (pages : Nat) (deviceId : Uuid) : Program Chance Server Unit := do
  match ← (onRedis (dequeueAll pages deviceId)).run with
  | .ok messages => forM messages fun queued => deliverQueued serde deviceId queued
  | .error _ => return ()

/-- The pending wipes of a device, one frame each. -/
def sendWipes (deviceId : Uuid) (wipes : List PendingWipe) : Program Chance Server Unit :=
  forM wipes fun wipe => do
    let _ ← sendToDevice deviceId (.wipeCommand wipe.command)

def deliverPendingWipes (pages : Nat) (deviceId : Uuid) : Program Chance Server Unit := do
  match ← (onRedis (getPendingWipes serde chrono pages deviceId)).run with
  | .ok wipes => sendWipes deviceId wipes
  | .error _ => return ()

/-- One key of the expiry sweep: a key without an expiry gets one. -/
def fixExpiry (key : String) : Command Unit := do
  match ← attempt (ttl key) with
  | .ok left =>
      if left = -1 then
        let _ ← (attempt (expire key MESSAGE_TTL_SECONDS) : Command _)
      else return ()
  | .error _ => return ()

/-- One round of `message_expiry::run`. -/
def messageExpiry (pages : Nat) : Program Chance Server Unit := do
  let _ ← (onRedis (scanLoop "msg:" (fun keys _ => forM keys fixExpiry) pages .zero ())).run

/-- The device that a key names between its first two colons. -/
def keyDevice (key : String) : Option Uuid :=
  ((key.toList.splitOn ':')[1]?).bind fun part => Uuid.parseStr (String.ofList part)

/-- One key of the wipe sweep. -/
def sweepWipe (pages : Nat) (key : String) : Task MessagingError Unit :=
  match keyDevice key with
  | none => return ()
  | some deviceId => do
      if ← atomically fun s => ((s.connections deviceId).isSome, s) then
        match ← attempt (onRedis (getPendingWipes serde chrono pages deviceId)) with
        | .ok wipes => liftM (sendWipes deviceId wipes)
        | .error _ => return ()
      else return ()

/-- One round of `wipe_pending::run`. The first number bounds the answers to its own SCAN. -/
def wipePending : Nat → Nat → Cursor → Task MessagingError Unit
  | 0, _, _ => ExceptT.mk .never
  | rounds + 1, pages, cursor => do
      let (next, keys) ← onRedis (scan cursor "wipe:")
      forM keys fun key => sweepWipe serde chrono pages key
      if next = .zero then return ()
      else wipePending rounds pages next

end

end Hysj.Api
