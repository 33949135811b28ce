import Hysj.Base.Serde
import Hysj.Shared.Uuid

set_option autoImplicit false

/- The data transfer objects of the WebSocket, with their derived `Serialize` and
`Deserialize`. -/
namespace Hysj.Shared

open Json (Value)
open Serde

def uuidToJson (id : Uuid) : Value := .str id.display

def readUuid : Value → Option Uuid
  | .str text => Uuid.parseStr text
  | _ => none

inductive WipeType where
  | all
  | device
  | conversation
  deriving DecidableEq

structure WipeRequest where
  wipeType : WipeType
  targetDeviceId : Option Uuid
  conversationPartnerId : Option Uuid
  deriving DecidableEq

structure WipeAckDto where
  wipeId : String
  deviceId : Uuid
  deriving DecidableEq

structure WipeStatusResponse where
  wipeId : String
  pendingDevices : List Uuid
  confirmedDevices : List Uuid
  deriving DecidableEq

structure EncryptedEnvelope where
  recipientDeviceId : Uuid
  messageId : String
  /-- Base64-encoded sealed blob -/
  sealedBlob : String
  ttlSeconds : Option UInt32
  selfDestructSeconds : Option UInt32
  /-- Reply-to: references another message -/
  replyToMessageId : Option String
  /-- True if this message was forwarded from another conversation -/
  isForwarded : Bool
  deriving DecidableEq

structure DeliveryAck where
  deviceId : Uuid
  messageId : String
  deriving DecidableEq

structure TypingIndicator where
  recipientId : Uuid
  deriving DecidableEq

structure ReadReceipt where
  senderId : Uuid
  messageId : String
  deriving DecidableEq

structure Reaction where
  recipientId : Uuid
  messageId : String
  emoji : String
  /-- True to add reaction, false to remove -/
  add : Bool
  deriving DecidableEq

inductive CallSignalType where
  | offer
  | answer
  | iceCandidate
  | hangup
  | busy
  deriving DecidableEq

structure CallSignal where
  peerId : Uuid
  callId : String
  signalType : CallSignalType
  /-- SDP offer/answer or ICE candidate as JSON string -/
  payload : String
  deriving DecidableEq

structure SaveInChat where
  recipientId : Uuid
  messageId : String
  /-- true = saved, false = unsaved -/
  saved : Bool
  deriving DecidableEq

structure PinMessage where
  groupId : Uuid
  messageId : String
  /-- True to pin, false to unpin -/
  pin : Bool
  deriving DecidableEq

inductive WsMessage where
  | sendMessage (envelope : EncryptedEnvelope)
  | delivered (ack : DeliveryAck)
  | typing (indicator : TypingIndicator)
  | read (receipt : ReadReceipt)
  | reaction (reaction : Reaction)
  | saveInChat (save : SaveInChat)
  | callSignal (signal : CallSignal)
  | pinMessage (pin : PinMessage)
  | sendGroupMessage (groupId : Uuid) (envelope : EncryptedEnvelope)
  | wipeCommand (request : WipeRequest)
  | wipeAck (ack : WipeAckDto)
  | error (message : String)
  deriving DecidableEq

def WipeType.name : WipeType → String
  | .all => "All"
  | .device => "Device"
  | .conversation => "Conversation"

def CallSignalType.name : CallSignalType → String
  | .offer => "Offer"
  | .answer => "Answer"
  | .iceCandidate => "IceCandidate"
  | .hangup => "Hangup"
  | .busy => "Busy"

def WipeRequest.members (request : WipeRequest) : List (String × Value) :=
  [("wipe_type", .str request.wipeType.name),
    ("target_device_id", optional uuidToJson request.targetDeviceId),
    ("conversation_partner_id", optional uuidToJson request.conversationPartnerId)]

def WipeAckDto.members (ack : WipeAckDto) : List (String × Value) :=
  [("wipe_id", .str ack.wipeId), ("device_id", uuidToJson ack.deviceId)]

def EncryptedEnvelope.members (envelope : EncryptedEnvelope) : List (String × Value) :=
  [("recipient_device_id", uuidToJson envelope.recipientDeviceId),
    ("message_id", .str envelope.messageId), ("sealed_blob", .str envelope.sealedBlob),
    ("ttl_seconds", optional word envelope.ttlSeconds),
    ("self_destruct_seconds", optional word envelope.selfDestructSeconds),
    ("reply_to_message_id", optional .str envelope.replyToMessageId),
    ("is_forwarded", .bool envelope.isForwarded)]

def DeliveryAck.members (ack : DeliveryAck) : List (String × Value) :=
  [("device_id", uuidToJson ack.deviceId), ("message_id", .str ack.messageId)]

def TypingIndicator.members (indicator : TypingIndicator) : List (String × Value) :=
  [("recipient_id", uuidToJson indicator.recipientId)]

def ReadReceipt.members (receipt : ReadReceipt) : List (String × Value) :=
  [("sender_id", uuidToJson receipt.senderId), ("message_id", .str receipt.messageId)]

def Reaction.members (reaction : Reaction) : List (String × Value) :=
  [("recipient_id", uuidToJson reaction.recipientId), ("message_id", .str reaction.messageId),
    ("emoji", .str reaction.emoji), ("add", .bool reaction.add)]

def SaveInChat.members (save : SaveInChat) : List (String × Value) :=
  [("recipient_id", uuidToJson save.recipientId), ("message_id", .str save.messageId),
    ("saved", .bool save.saved)]

def CallSignal.members (signal : CallSignal) : List (String × Value) :=
  [("peer_id", uuidToJson signal.peerId), ("call_id", .str signal.callId),
    ("signal_type", .str signal.signalType.name), ("payload", .str signal.payload)]

def PinMessage.members (pin : PinMessage) : List (String × Value) :=
  [("group_id", uuidToJson pin.groupId), ("message_id", .str pin.messageId),
    ("pin", .bool pin.pin)]

def WsMessage.name : WsMessage → String
  | .sendMessage _ => "SendMessage"
  | .delivered _ => "Delivered"
  | .typing _ => "Typing"
  | .read _ => "Read"
  | .reaction _ => "Reaction"
  | .saveInChat _ => "SaveInChat"
  | .callSignal _ => "CallSignal"
  | .pinMessage _ => "PinMessage"
  | .sendGroupMessage _ _ => "SendGroupMessage"
  | .wipeCommand _ => "WipeCommand"
  | .wipeAck _ => "WipeAck"
  | .error _ => "Error"

def WsMessage.members : WsMessage → List (String × Value)
  | .sendMessage envelope => envelope.members
  | .delivered ack => ack.members
  | .typing indicator => indicator.members
  | .read receipt => receipt.members
  | .reaction change => change.members
  | .saveInChat save => save.members
  | .callSignal signal => signal.members
  | .pinMessage pin => pin.members
  | .sendGroupMessage groupId envelope =>
      [("group_id", uuidToJson groupId), ("envelope", .obj envelope.members)]
  | .wipeCommand request => request.members
  | .wipeAck ack => ack.members
  | .error message => [("message", .str message)]

def WipeRequest.toJson (request : WipeRequest) : Value := .obj request.members

def EncryptedEnvelope.toJson (envelope : EncryptedEnvelope) : Value := .obj envelope.members

/-- `#[serde(tag = "type")]` -/
def WsMessage.toJson (message : WsMessage) : Value :=
  .obj (("type", .str message.name) :: message.members)

def WipeType.variants : List (String × WipeType) :=
  [("All", .all), ("Device", .device), ("Conversation", .conversation)]

def CallSignalType.variants : List (String × CallSignalType) :=
  [("Offer", .offer), ("Answer", .answer), ("IceCandidate", .iceCandidate), ("Hangup", .hangup),
    ("Busy", .busy)]

def WipeRequest.ofJson (value : Value) : Option WipeRequest := do
  match ← fields ["wipe_type", "target_device_id", "conversation_partner_id"] value with
  | [wipeType, targetDeviceId, conversationPartnerId] =>
      some
        { wipeType := ← required (readVariant WipeType.variants) wipeType
          targetDeviceId := ← readOptional readUuid targetDeviceId
          conversationPartnerId := ← readOptional readUuid conversationPartnerId }
  | _ => none

def EncryptedEnvelope.ofJson (value : Value) : Option EncryptedEnvelope := do
  match ← fields ["recipient_device_id", "message_id", "sealed_blob", "ttl_seconds",
      "self_destruct_seconds", "reply_to_message_id", "is_forwarded"] value with
  | [recipientDeviceId, messageId, sealedBlob, ttlSeconds, selfDestructSeconds,
      replyToMessageId, isForwarded] =>
      some
        { recipientDeviceId := ← required readUuid recipientDeviceId
          messageId := ← required readStr messageId
          sealedBlob := ← required readStr sealedBlob
          ttlSeconds := ← readOptional readWord ttlSeconds
          selfDestructSeconds := ← readOptional readWord selfDestructSeconds
          replyToMessageId := ← readOptional readStr replyToMessageId
          isForwarded := ← required readBool isForwarded }
  | _ => none

def WipeAckDto.ofJson (value : Value) : Option WipeAckDto := do
  match ← fields ["wipe_id", "device_id"] value with
  | [wipeId, deviceId] =>
      some { wipeId := ← required readStr wipeId, deviceId := ← required readUuid deviceId }
  | _ => none

def DeliveryAck.ofJson (value : Value) : Option DeliveryAck := do
  match ← fields ["device_id", "message_id"] value with
  | [deviceId, messageId] =>
      some { deviceId := ← required readUuid deviceId, messageId := ← required readStr messageId }
  | _ => none

def TypingIndicator.ofJson (value : Value) : Option TypingIndicator := do
  match ← fields ["recipient_id"] value with
  | [recipientId] => some { recipientId := ← required readUuid recipientId }
  | _ => none

def ReadReceipt.ofJson (value : Value) : Option ReadReceipt := do
  match ← fields ["sender_id", "message_id"] value with
  | [senderId, messageId] =>
      some { senderId := ← required readUuid senderId, messageId := ← required readStr messageId }
  | _ => none

def Reaction.ofJson (value : Value) : Option Reaction := do
  match ← fields ["recipient_id", "message_id", "emoji", "add"] value with
  | [recipientId, messageId, emoji, add] =>
      some
        { recipientId := ← required readUuid recipientId
          messageId := ← required readStr messageId
          emoji := ← required readStr emoji
          add := ← required readBool add }
  | _ => none

def SaveInChat.ofJson (value : Value) : Option SaveInChat := do
  match ← fields ["recipient_id", "message_id", "saved"] value with
  | [recipientId, messageId, saved] =>
      some
        { recipientId := ← required readUuid recipientId
          messageId := ← required readStr messageId
          saved := ← required readBool saved }
  | _ => none

def CallSignal.ofJson (value : Value) : Option CallSignal := do
  match ← fields ["peer_id", "call_id", "signal_type", "payload"] value with
  | [peerId, callId, signalType, payload] =>
      some
        { peerId := ← required readUuid peerId
          callId := ← required readStr callId
          signalType := ← required (readVariant CallSignalType.variants) signalType
          payload := ← required readStr payload }
  | _ => none

def PinMessage.ofJson (value : Value) : Option PinMessage := do
  match ← fields ["group_id", "message_id", "pin"] value with
  | [groupId, messageId, pin] =>
      some
        { groupId := ← required readUuid groupId
          messageId := ← required readStr messageId
          pin := ← required readBool pin }
  | _ => none

def WsMessage.sendGroupMessageOfJson (value : Value) : Option WsMessage := do
  match ← fields ["group_id", "envelope"] value with
  | [groupId, envelope] =>
      some (.sendGroupMessage (← required readUuid groupId)
        (← required EncryptedEnvelope.ofJson envelope))
  | _ => none

def WsMessage.errorOfJson (value : Value) : Option WsMessage := do
  match ← fields ["message"] value with
  | [message] => some (.error (← required readStr message))
  | _ => none

/-- The variant that a tag names. -/
def WsMessage.ofFields (tag : String) (value : Value) : Option WsMessage :=
  if tag = "SendMessage" then (EncryptedEnvelope.ofJson value).map .sendMessage
  else if tag = "Delivered" then (DeliveryAck.ofJson value).map .delivered
  else if tag = "Typing" then (TypingIndicator.ofJson value).map .typing
  else if tag = "Read" then (ReadReceipt.ofJson value).map .read
  else if tag = "Reaction" then (Reaction.ofJson value).map .reaction
  else if tag = "SaveInChat" then (SaveInChat.ofJson value).map .saveInChat
  else if tag = "CallSignal" then (CallSignal.ofJson value).map .callSignal
  else if tag = "PinMessage" then (PinMessage.ofJson value).map .pinMessage
  else if tag = "SendGroupMessage" then sendGroupMessageOfJson value
  else if tag = "WipeCommand" then (WipeRequest.ofJson value).map .wipeCommand
  else if tag = "WipeAck" then (WipeAckDto.ofJson value).map .wipeAck
  else if tag = "Error" then errorOfJson value
  else none

def WsMessage.ofJson (value : Value) : Option WsMessage := do
  let (tag, rest) ← tagged "type" value
  WsMessage.ofFields tag rest

theorem readUuid_uuidToJson (id : Uuid) : readUuid (uuidToJson id) = some id := by
  rw [uuidToJson, readUuid, Uuid.parseStr_display]

@[simp] theorem required_uuid (id : Uuid) :
    required readUuid (some (uuidToJson id)) = some id := by
  rw [required, Option.bind_some, readUuid_uuidToJson]

@[simp] theorem readOptional_uuid (id : Option Uuid) :
    readOptional readUuid (some (optional uuidToJson id)) = some id := by
  apply readOptional_optional readUuid_uuidToJson
  intro a same
  cases same

@[simp] theorem required_wipeType (wipeType : WipeType) :
    required (readVariant WipeType.variants) (some (.str wipeType.name)) = some wipeType := by
  cases wipeType <;> rfl

@[simp] theorem required_signalType (signalType : CallSignalType) :
    required (readVariant CallSignalType.variants) (some (.str signalType.name)) =
      some signalType := by
  cases signalType <;> rfl

theorem WsMessage.members_names (message : WsMessage) :
    "type" ∉ message.members.map Prod.fst ∧ (message.members.map Prod.fst).Nodup := by
  cases message <;>
    simp [members, EncryptedEnvelope.members, WipeRequest.members, WipeAckDto.members,
      DeliveryAck.members, TypingIndicator.members, ReadReceipt.members, Reaction.members,
      SaveInChat.members, CallSignal.members, PinMessage.members]

@[simp] theorem WipeRequest.ofJson_members (request : WipeRequest) :
    ofJson (.obj request.members) = some request := by
  have found := fields_obj (WsMessage.wipeCommand request).members_names.2
  simp only [WsMessage.members, members, List.map_cons, List.map_nil] at found
  simp [ofJson, members, found]

@[simp] theorem EncryptedEnvelope.ofJson_members (envelope : EncryptedEnvelope) :
    ofJson (.obj envelope.members) = some envelope := by
  have found := fields_obj (WsMessage.sendMessage envelope).members_names.2
  simp only [WsMessage.members, members, List.map_cons, List.map_nil] at found
  simp [ofJson, members, found]

@[simp] theorem required_envelope (envelope : EncryptedEnvelope) :
    required EncryptedEnvelope.ofJson (some (.obj envelope.members)) = some envelope := by
  rw [required, Option.bind_some, EncryptedEnvelope.ofJson_members]

theorem WsMessage.ofFields_members (message : WsMessage) :
    ofFields message.name (.obj message.members) = some message := by
  have found := fields_obj message.members_names.2
  cases message with
  | sendMessage envelope => simp [ofFields, name, members]
  | wipeCommand request => simp [ofFields, name, members]
  | delivered ack =>
      simp only [members, DeliveryAck.members, List.map_cons, List.map_nil] at found
      simp [ofFields, name, members, DeliveryAck.members, DeliveryAck.ofJson, found]
  | typing indicator =>
      simp only [members, TypingIndicator.members, List.map_cons, List.map_nil] at found
      simp [ofFields, name, members, TypingIndicator.members, TypingIndicator.ofJson, found]
  | read receipt =>
      simp only [members, ReadReceipt.members, List.map_cons, List.map_nil] at found
      simp [ofFields, name, members, ReadReceipt.members, ReadReceipt.ofJson, found]
  | reaction change =>
      simp only [members, Reaction.members, List.map_cons, List.map_nil] at found
      simp [ofFields, name, members, Reaction.members, Reaction.ofJson, found]
  | saveInChat save =>
      simp only [members, SaveInChat.members, List.map_cons, List.map_nil] at found
      simp [ofFields, name, members, SaveInChat.members, SaveInChat.ofJson, found]
  | callSignal signal =>
      simp only [members, CallSignal.members, List.map_cons, List.map_nil] at found
      simp [ofFields, name, members, CallSignal.members, CallSignal.ofJson, found]
  | pinMessage pin =>
      simp only [members, PinMessage.members, List.map_cons, List.map_nil] at found
      simp [ofFields, name, members, PinMessage.members, PinMessage.ofJson, found]
  | sendGroupMessage groupId envelope =>
      simp only [members, List.map_cons, List.map_nil] at found
      simp [ofFields, name, members, sendGroupMessageOfJson, found]
  | wipeAck ack =>
      simp only [members, WipeAckDto.members, List.map_cons, List.map_nil] at found
      simp [ofFields, name, members, WipeAckDto.members, WipeAckDto.ofJson, found]
  | error message =>
      simp only [members, List.map_cons, List.map_nil] at found
      simp [ofFields, name, members, errorOfJson, found]

theorem WsMessage.ofJson_toJson (message : WsMessage) : ofJson message.toJson = some message := by
  rw [ofJson, toJson, tagged_obj message.members_names.1]
  exact message.ofFields_members

end Hysj.Shared
