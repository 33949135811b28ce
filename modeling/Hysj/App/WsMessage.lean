import Hysj.Api.Effects
import Hysj.App.Dart

set_option autoImplicit false

/- The WebSocket messages of the app, and what becomes of them on the way to another app. -/
namespace Hysj.App

open Crypto Shared Messaging Program
open Json (Value)
open Serde

/-- `DateTime`: the ISO 8601 text of its time in UTC, and the time of a text. -/
structure DateTimeText (DateTime : Type) where
  toIso8601String : DateTime → String
  parse : String → Option DateTime

/-- `Map<String, dynamic>`, its entries in their order. -/
abbrev JsonMap := List (String × Value)

/-- `json[name]` -/
def JsonMap.index (json : JsonMap) (name : String) : Value := (json.lookup name).getD .null

/-- `as int` -/
def asInt : Value → Option Int64
  | .num i => if -(2 ^ 63) ≤ i ∧ i < 2 ^ 63 then some (Int64.ofInt i) else none
  | _ => none

def jsonEncode (json : JsonMap) : String := String.ofList (Json.render (.obj json))

/-- `as String` -/
def asDartString (value : Value) : Option DartString := (readStr value).map Dart.ofString

/-- `jsonDecode`, without a value where it throws. -/
abbrev JsonDecoder := String → Option Value

/-- What the server writes is read. -/
def JsonDecoder.Lawful (jsonDecode : JsonDecoder) : Prop :=
  ∀ message : WsMessage, jsonDecode message.text = some message.toJson

/-- A reader of compact text in place of `jsonDecode`. -/
def JsonDecoder.sample : JsonDecoder := fun text => Json.ofSlice (Json.utf8 text.toList)

theorem JsonDecoder.sample_lawful : sample.Lawful := by
  intro message
  have bytes : Json.utf8 message.text.toList = Json.toVec message.toJson := by
    rw [WsMessage.text, String.toList_ofList, Json.toVec]
  rw [sample, bytes, Json.ofSlice_toVec]

section

variable (DateTime : Type)

structure EncryptedEnvelope where
  senderDeviceId : DartString
  recipientDeviceId : DartString
  ciphertext : DartString
  messageType : Int64
  messageId : DartString
  timestamp : DateTime
  ttlSeconds : Option Int64

structure ReadReceipt where
  senderId : DartString
  recipientId : DartString
  messageId : DartString
  readAt : DateTime

end

structure TypingIndicator where
  senderId : DartString
  recipientId : DartString
  isTyping : Bool

section

variable {DateTime : Type} (dates : DateTimeText DateTime)

def EncryptedEnvelope.fromJson (json : JsonMap) : Option (EncryptedEnvelope DateTime) := do
  some
    { senderDeviceId := ← asDartString (json.index "sender_device_id")
      recipientDeviceId := ← asDartString (json.index "recipient_device_id")
      ciphertext := ← asDartString (json.index "ciphertext")
      messageType := ← asInt (json.index "message_type")
      messageId := ← asDartString (json.index "message_id")
      timestamp := ← dates.parse (← readStr (json.index "timestamp"))
      ttlSeconds := ← readOptional asInt (some (json.index "ttl_seconds")) }

def TypingIndicator.fromJson (json : JsonMap) : Option TypingIndicator := do
  some
    { senderId := ← asDartString (json.index "sender_id")
      recipientId := ← asDartString (json.index "recipient_id")
      isTyping := ← readBool (json.index "is_typing") }

def ReadReceipt.fromJson (json : JsonMap) : Option (ReadReceipt DateTime) := do
  some
    { senderId := ← asDartString (json.index "sender_id")
      recipientId := ← asDartString (json.index "recipient_id")
      messageId := ← asDartString (json.index "message_id")
      readAt := ← dates.parse (← readStr (json.index "read_at")) }

/-- Parsed WebSocket message matching backend's tagged enum format. -/
structure WsIncoming where
  type : String
  raw : JsonMap

def WsIncoming.fromJsonString (jsonDecode : JsonDecoder) (s : String) : Option WsIncoming := do
  match ← jsonDecode s with
  | .obj json => some ⟨← readStr (JsonMap.index json "type"), json⟩
  | _ => none

def WsIncoming.envelope (incoming : WsIncoming) : Option (Option (EncryptedEnvelope DateTime)) :=
  if incoming.type = "SendMessage" then (EncryptedEnvelope.fromJson dates incoming.raw).map some
  else some none

def WsIncoming.typing (incoming : WsIncoming) : Option (Option TypingIndicator) :=
  if incoming.type = "Typing" then (TypingIndicator.fromJson incoming.raw).map some
  else some none

def WsIncoming.readReceipt (incoming : WsIncoming) : Option (Option (ReadReceipt DateTime)) :=
  if incoming.type = "Read" then (ReadReceipt.fromJson dates incoming.raw).map some
  else some none

def EncryptedEnvelope.toJson (envelope : EncryptedEnvelope DateTime) :
    List (String × Dart.Scalar) :=
  [("sender_device_id", .str envelope.senderDeviceId),
    ("recipient_device_id", .str envelope.recipientDeviceId),
    ("ciphertext", .str envelope.ciphertext),
    ("message_type", .int envelope.messageType),
    ("message_id", .str envelope.messageId),
    ("timestamp", .str (Dart.ofString (dates.toIso8601String envelope.timestamp)))] ++
  match envelope.ttlSeconds with
  | some ttlSeconds => [("ttl_seconds", .int ttlSeconds)]
  | none => []

def WsOutgoing.sendMessage (envelope : EncryptedEnvelope DateTime) : String :=
  Dart.jsonEncode (envelope.toJson dates ++ [("type", .str (Dart.ofString "SendMessage"))])

def WsOutgoing.typing (senderId recipientId : DartString) (isTyping : Bool) : String :=
  Dart.jsonEncode
    [("type", .str (Dart.ofString "Typing")), ("sender_id", .str senderId),
      ("recipient_id", .str recipientId), ("is_typing", .bool isTyping)]

/-- The time is that of `DateTime.now()`. -/
def WsOutgoing.readReceipt (senderId recipientId messageId : DartString) (now : DateTime) :
    String :=
  Dart.jsonEncode
    [("type", .str (Dart.ofString "Read")), ("sender_id", .str senderId),
      ("recipient_id", .str recipientId), ("message_id", .str messageId),
      ("read_at", .str (Dart.ofString (dates.toIso8601String now)))]

def WsOutgoing.deliveryAck (messageId deviceId : DartString) : String :=
  Dart.jsonEncode
    [("type", .str (Dart.ofString "Delivered")), ("message_id", .str messageId),
      ("device_id", .str deviceId)]

end

/-- What a sender puts into a frame. -/
inductive Frame (DateTime : Type) where
  | sendMessage (envelope : EncryptedEnvelope DateTime)
  | typing (senderId recipientId : DartString) (isTyping : Bool)
  | readReceipt (senderId recipientId messageId : DartString) (now : DateTime)
  | deliveryAck (messageId deviceId : DartString)

section

variable {DateTime : Type} (dates : DateTimeText DateTime)

def Frame.text : Frame DateTime → String
  | .sendMessage envelope => WsOutgoing.sendMessage dates envelope
  | .typing senderId recipientId isTyping => WsOutgoing.typing senderId recipientId isTyping
  | .readReceipt senderId recipientId messageId now =>
      WsOutgoing.readReceipt dates senderId recipientId messageId now
  | .deliveryAck messageId deviceId => WsOutgoing.deliveryAck messageId deviceId

/-- The variant of `WsMessage` that the frame is meant for. -/
def Frame.name : Frame DateTime → String
  | .sendMessage _ => "SendMessage"
  | .typing _ _ _ => "Typing"
  | .readReceipt _ _ _ _ => "Read"
  | .deliveryAck _ _ => "Delivered"

/-- The getter for such frames gives what the sender put in. There is none for a `deliveryAck`. -/
def Frame.ReadBy (incoming : WsIncoming) : Frame DateTime → Prop
  | .sendMessage envelope => incoming.envelope dates = some (some envelope)
  | .typing senderId recipientId isTyping =>
      incoming.typing = some (some ⟨senderId, recipientId, isTyping⟩)
  | .readReceipt senderId recipientId messageId now =>
      incoming.readReceipt dates = some (some ⟨senderId, recipientId, messageId, now⟩)
  | .deliveryAck _ _ => True

end

/-- The server sends the text to a device when it handles the message. -/
def Relayed (message : WsMessage) (text : String) : Prop :=
  ∃ (config : Api.AppConfig) (chrono : Chrono) (userId deviceId : Uuid) (s s' : Api.Server)
    (result : Except String Unit) (d : Uuid),
    Runs (fun _ _ => True)
      (Api.handleWsMessage config chrono userId deviceId message).run s result s' ∧
      text ∈ Api.newTexts s s' d

/-- The server parses the frame as the variant it is meant for, and whoever gets that from the
server reads what the sender put in. -/
def Frame.Understood {DateTime : Type} (serde : SerdeJson) (jsonDecode : JsonDecoder)
    (dates : DateTimeText DateTime) (frame : Frame DateTime) : Prop :=
  ∃ message, WsMessage.fromStr serde (frame.text dates) = .ok message ∧ message.name = frame.name ∧
    ∀ text, Relayed message text → ∃ incoming,
      WsIncoming.fromJsonString jsonDecode text = some incoming ∧ frame.ReadBy dates incoming

section

variable {serde : SerdeJson} {message : WsMessage}

/-- A string with the escape of an unpaired surrogate is an error. -/
def RefusesSurrogates (serde : SerdeJson) : Prop :=
  ∀ members : List (String × Dart.Scalar), (∃ member ∈ members, ¬ member.2.WellFormed) →
    ∃ e, serde.fromSlice (Json.utf8 (Dart.jsonEncode members).toList) = .error e

theorem sample_refusesSurrogates : RefusesSurrogates .sample := by
  intro members broken
  refine ⟨"expected value", ?_⟩
  simp only [SerdeJson.sample, Dart.ofSlice_jsonEncode broken]

theorem fromStr_jsonEncode (lawful : serde.Lawful) (refuses : RefusesSurrogates serde)
    {members : List (String × Dart.Scalar)} :
    WsMessage.fromStr serde (Dart.jsonEncode members) = .ok message ↔
      (∀ member ∈ members, member.2.WellFormed) ∧
        WsMessage.ofJson (.obj (Dart.values members)) = some message := by
  by_cases wellFormed : ∀ member ∈ members, member.2.WellFormed
  · have bytes : Json.utf8 (Dart.jsonEncode members).toList =
        Json.toVec (.obj (Dart.values members)) := by
      rw [Dart.jsonEncode_of_wellFormed wellFormed, String.toList_ofList, Json.toVec]
    have read : serde.fromSlice (Json.utf8 (Dart.jsonEncode members).toList) =
        .ok (.obj (Dart.values members)) := by
      rw [bytes, lawful]
    rw [WsMessage.fromStr_eq_ok read, and_iff_right wellFormed]
  · obtain ⟨e, refused⟩ := refuses members (by simpa using wellFormed)
    have failed : WsMessage.fromStr serde (Dart.jsonEncode members) = .error e := by
      rw [WsMessage.fromStr, refused]
      rfl
    rw [failed]
    exact iff_of_false (fun same => by cases same) fun both => wellFormed both.1

theorem fromStr_deliveryAck (lawful : serde.Lawful) (refuses : RefusesSurrogates serde)
    {messageId deviceId : DartString} :
    WsMessage.fromStr serde (WsOutgoing.deliveryAck messageId deviceId) = .ok message ↔
      ∃ text device id, messageId = Dart.ofString text ∧ deviceId = Dart.ofString device ∧
        Uuid.parseStr device = some id ∧ .delivered ⟨id, text⟩ = message := by
  have read : WsMessage.fromStr serde (WsOutgoing.deliveryAck messageId deviceId) = .ok message ↔
      (Utf16.WellFormed messageId ∧ Utf16.WellFormed deviceId) ∧
        ∃ id, Uuid.parseStr (String.ofList (Utf16.decode deviceId)) = some id ∧
          .delivered ⟨id, String.ofList (Utf16.decode messageId)⟩ = message := by
    rw [WsOutgoing.deliveryAck, fromStr_jsonEncode lawful refuses]
    simp [Dart.values, Dart.Scalar.value, Dart.Scalar.WellFormed, WsMessage.ofJson, tagged,
      WsMessage.ofFields, DeliveryAck.ofJson, fields, required, readUuid, readStr,
      Option.bind_eq_some_iff]
  rw [read]
  constructor
  · rintro ⟨⟨first, second⟩, id, is, delivered⟩
    obtain ⟨text, rfl⟩ := Dart.wellFormed_iff.mp first
    obtain ⟨device, rfl⟩ := Dart.wellFormed_iff.mp second
    rw [Dart.decode_ofString] at is delivered
    exact ⟨text, device, id, rfl, rfl, is, delivered⟩
  · rintro ⟨text, device, id, rfl, rfl, is, delivered⟩
    rw [Dart.decode_ofString, Dart.decode_ofString]
    exact ⟨⟨Dart.wellFormed_ofString text, Dart.wellFormed_ofString device⟩, id, is, delivered⟩

/-- Of the frame only `recipient_id` is read. -/
theorem fromStr_typing (lawful : serde.Lawful) (refuses : RefusesSurrogates serde)
    {senderId recipientId : DartString} {isTyping : Bool}
    (parsed : WsMessage.fromStr serde (WsOutgoing.typing senderId recipientId isTyping) =
      .ok message) : ∃ id, .typing ⟨id⟩ = message := by
  rw [WsOutgoing.typing, fromStr_jsonEncode lawful refuses] at parsed
  obtain ⟨id, -, is⟩ : ∃ id, Uuid.parseStr (String.ofList (Utf16.decode recipientId)) = some id ∧
      .typing ⟨id⟩ = message := by
    simpa [Dart.values, Dart.Scalar.value, WsMessage.ofJson, tagged, WsMessage.ofFields,
      TypingIndicator.ofJson, fields, required, readUuid, Option.bind_eq_some_iff] using parsed.2
  exact ⟨id, is⟩

/-- Of the frame only `sender_id` and `message_id` are read. -/
theorem fromStr_readReceipt (lawful : serde.Lawful) (refuses : RefusesSurrogates serde)
    {DateTime : Type} {dates : DateTimeText DateTime}
    {senderId recipientId messageId : DartString} {now : DateTime}
    (parsed : WsMessage.fromStr serde
      (WsOutgoing.readReceipt dates senderId recipientId messageId now) = .ok message) :
    ∃ id text, .read ⟨id, text⟩ = message := by
  rw [WsOutgoing.readReceipt, fromStr_jsonEncode lawful refuses] at parsed
  obtain ⟨id, -, is⟩ : ∃ id, Uuid.parseStr (String.ofList (Utf16.decode senderId)) = some id ∧
      .read ⟨id, String.ofList (Utf16.decode messageId)⟩ = message := by
    simpa [Dart.values, Dart.Scalar.value, WsMessage.ofJson, tagged, WsMessage.ofFields,
      ReadReceipt.ofJson, fields, required, readUuid, readStr,
      Option.bind_eq_some_iff] using parsed.2
  exact ⟨id, _, is⟩

/-- The field `sealed_blob` is missing. -/
theorem fromStr_sendMessage (lawful : serde.Lawful) (refuses : RefusesSurrogates serde)
    {DateTime : Type} {dates : DateTimeText DateTime}
    {envelope : EncryptedEnvelope DateTime} :
    WsMessage.fromStr serde (WsOutgoing.sendMessage dates envelope) ≠ .ok message := by
  rw [WsOutgoing.sendMessage, Ne, fromStr_jsonEncode lawful refuses]
  rintro ⟨-, read⟩
  revert read
  cases ttl : envelope.ttlSeconds with
  | none =>
      simp [EncryptedEnvelope.toJson, ttl, Dart.values, Dart.Scalar.value, Dart.decode_ofString,
        WsMessage.ofJson, tagged, WsMessage.ofFields,
        Shared.EncryptedEnvelope.ofJson, fields, required]
  | some seconds =>
      simp [EncryptedEnvelope.toJson, ttl, Dart.values, Dart.Scalar.value, Dart.decode_ofString,
        WsMessage.ofJson, tagged, WsMessage.ofFields,
        Shared.EncryptedEnvelope.ofJson, fields, required]

end

section

variable {message : WsMessage} {s s' : Api.Server} {text : String}

/-- Nothing but the text is sent. -/
def SendsOnly (text : String) (s s' : Api.Server) : Prop :=
  ∃ frames, s'.sent = s.sent ++ frames ∧ ∀ frame ∈ frames, frame.text = text

theorem sendsOnly_refl (s : Api.Server) : SendsOnly text s s := ⟨[], by simp⟩

theorem SendsOnly.trans {m : Api.Server} (first : SendsOnly text s m)
    (second : SendsOnly text m s') :
    SendsOnly text s s' := by
  obtain ⟨frames, sent, only⟩ := first
  obtain ⟨later, sent', only'⟩ := second
  refine ⟨frames ++ later, ?_, ?_⟩
  · rw [sent', sent, List.append_assoc]
  · intro frame member
    rcases List.mem_append.mp member with old | new
    · exact only frame old
    · exact only' frame new

theorem sendsOnly_handler (does : Does Api.Effect.apply (Api.handlerEffects message) s s') :
    SendsOnly message.text s s' := by
  rcases does with rfl | ⟨effect, allowed, rfl⟩
  · exact sendsOnly_refl _
  · cases effect with
    | send d text =>
        unfold Api.Effect.apply
        dsimp only
        split
        · exact sendsOnly_refl s
        · split
          · exact sendsOnly_refl s
          · refine ⟨[_], rfl, ?_⟩
            intro frame member
            rw [List.mem_singleton.mp member]
            exact allowed
    | disconnect d => exact ⟨[], by simp [Api.Effect.apply]⟩
    | push request => exact ⟨[], by simp [Api.Effect.apply]⟩
    | store change => exact ⟨[], by simp [Api.Effect.apply]⟩
    | pins rows => exact ⟨[], by simp [Api.Effect.apply]⟩
    | limit key times => exact ⟨[], by simp [Api.Effect.apply]⟩

theorem Relayed.text_eq (relayed : Relayed message text) : text = message.text := by
  obtain ⟨config, chrono, userId, deviceId, s, s', result, d, run, member⟩ := relayed
  have keeps := (Api.effects_handleWsMessage config chrono userId deviceId message).mono
    fun _ _ => sendsOnly_handler
  obtain ⟨frames, sent, only⟩ := run.keeps keeps sendsOnly_refl fun _ _ _ => SendsOnly.trans
  rw [Api.newTexts, sent, List.drop_left] at member
  obtain ⟨frame, new, rfl⟩ := List.mem_map.mp member
  exact only frame (List.mem_filter.mp new).1

/-- A message for the devices of a user, one of which is online. -/
theorem relayed_to_user {user : Uuid} (handles : ∀ config chrono userId deviceId,
    Api.handleWsMessage config chrono userId deviceId message =
      liftM (Api.sendToUserDevices user message)) : Relayed message message.text := by
  let s := (Api.Server.start 0 { devices := [.sample user user] }).connect user 0
  have listed : Db.listByUser user s.db = (.ok [.sample user user], s.db) := by
    simp [Db.listByUser, s, Api.Server.connect, Api.Server.start, Db.Device.sample]
  have online : s.connections user = some 0 := Function.update_self _ _ _
  have opened : s.closed 0 = false := rfl
  have sent :
      Runs Clean (Api.sendToEach [user] message) s () (Api.afterSend s user message.text) := by
    rw [Api.sendToEach, List.forM_cons, List.forM_nil]
    simp only [runs_bind, runs_pure, Api.runs_sendToDevice]
    exact ⟨(), _,
      ⟨true, _, ⟨⟨fun _ => ⟨0, online, opened⟩, fun _ => rfl⟩, rfl⟩, trivial, rfl⟩, trivial, rfl⟩
  have told : Runs Clean (Api.sendToUserDevices user message) s ()
      (Api.afterSend s user message.text) := by
    refine runs_bind.mpr ⟨.ok [.sample user user], s, Api.runs_query.mpr ?_, sent⟩
    rw [listed]
    exact ⟨rfl, rfl⟩
  have run : Runs Clean (Api.handleWsMessage ⟨none, ""⟩ .sample user user message).run s (.ok ())
      (Api.afterSend s user message.text) := by
    rw [handles]
    exact runs_run_lift.mpr ⟨(), told, rfl⟩
  refine ⟨_, _, _, _, _, _, _, user, run.mono fun _ _ _ => trivial, ?_⟩
  have after : (Api.afterSend s user message.text).sent = s.sent ++ [⟨0, user, message.text⟩] := by
    rw [Api.afterSend, online]
    dsimp only
    rw [opened]
    rfl
  simp [Api.newTexts, after]

end

section

variable {jsonDecode : JsonDecoder} {message : WsMessage} {incoming : WsIncoming}

theorem fromJsonString_text (lawful : jsonDecode.Lawful) (message : WsMessage) :
    WsIncoming.fromJsonString jsonDecode message.text =
      some ⟨message.name, ("type", .str message.name) :: message.members⟩ := by
  rw [WsIncoming.fromJsonString, lawful, WsMessage.toJson]
  simp [JsonMap.index, readStr]

theorem typing_typing (indicator : Shared.TypingIndicator) :
    WsIncoming.typing ⟨"Typing", ("type", .str "Typing") :: (WsMessage.typing indicator).members⟩ =
      none := by
  simp [WsIncoming.typing, TypingIndicator.fromJson, JsonMap.index, WsMessage.members,
    Shared.TypingIndicator.members, List.lookup_cons, asDartString, readStr]

theorem readReceipt_read {DateTime : Type} (dates : DateTimeText DateTime)
    (receipt : Shared.ReadReceipt) : WsIncoming.readReceipt dates
      ⟨"Read", ("type", .str "Read") :: (WsMessage.read receipt).members⟩ = none := by
  simp [WsIncoming.readReceipt, ReadReceipt.fromJson, JsonMap.index, WsMessage.members,
    Shared.ReadReceipt.members, List.lookup_cons, asDartString, readStr, uuidToJson]

end

section

variable {DateTime : Type} {serde : SerdeJson} {jsonDecode : JsonDecoder}
variable {dates : DateTimeText DateTime}

theorem not_understood_sendMessage (lawful : serde.Lawful) (refuses : RefusesSurrogates serde)
    (envelope : EncryptedEnvelope DateTime) :
    ¬ (Frame.sendMessage envelope).Understood serde jsonDecode dates := by
  rintro ⟨message, parsed, -⟩
  exact fromStr_sendMessage lawful refuses parsed

theorem not_understood_typing (lawful : serde.Lawful) (refuses : RefusesSurrogates serde)
    (reads : jsonDecode.Lawful) (senderId recipientId : DartString) (isTyping : Bool) :
    ¬ (Frame.typing senderId recipientId isTyping).Understood serde jsonDecode dates := by
  rintro ⟨message, parsed, -, relayed⟩
  obtain ⟨id, rfl⟩ := fromStr_typing lawful refuses parsed
  obtain ⟨incoming, decoded, read⟩ := relayed _ (relayed_to_user fun _ _ _ _ => rfl)
  rw [fromJsonString_text reads, Option.some.injEq] at decoded
  subst decoded
  have typed : WsIncoming.typing _ = some (some ⟨senderId, recipientId, isTyping⟩) := read
  have thrown := (typing_typing ⟨id⟩).symm.trans typed
  cases thrown

theorem not_understood_readReceipt (lawful : serde.Lawful) (refuses : RefusesSurrogates serde)
    (reads : jsonDecode.Lawful) (senderId recipientId messageId : DartString) (now : DateTime) :
    ¬ (Frame.readReceipt senderId recipientId messageId now).Understood serde jsonDecode dates := by
  rintro ⟨message, parsed, -, relayed⟩
  obtain ⟨id, text, rfl⟩ := fromStr_readReceipt lawful refuses parsed
  obtain ⟨incoming, decoded, read⟩ := relayed _ (relayed_to_user fun _ _ _ _ => rfl)
  rw [fromJsonString_text reads, Option.some.injEq] at decoded
  subst decoded
  have receipt : WsIncoming.readReceipt dates _ =
    some (some ⟨senderId, recipientId, messageId, now⟩) := read
  have thrown := (readReceipt_read dates ⟨id, text⟩).symm.trans receipt
  cases thrown

theorem understood_deliveryAck (lawful : serde.Lawful) (refuses : RefusesSurrogates serde)
    (reads : jsonDecode.Lawful) {messageId deviceId : DartString} :
    (Frame.deliveryAck messageId deviceId).Understood serde jsonDecode dates ↔
      ∃ text device id, messageId = Dart.ofString text ∧ deviceId = Dart.ofString device ∧
        Uuid.parseStr device = some id := by
  constructor
  · rintro ⟨message, parsed, -⟩
    obtain ⟨text, device, id, first, second, is, -⟩ :=
      (fromStr_deliveryAck lawful refuses).mp parsed
    exact ⟨text, device, id, first, second, is⟩
  · rintro ⟨text, device, id, first, second, is⟩
    refine ⟨.delivered ⟨id, text⟩,
      (fromStr_deliveryAck lawful refuses).mpr ⟨text, device, id, first, second, is, rfl⟩, rfl, ?_⟩
    intro text relayed
    rw [relayed.text_eq]
    exact ⟨_, fromJsonString_text reads _, trivial⟩

end

/-- The server and the app at its other end understand a frame exactly if it is a delivery
acknowledgement of well formed strings with a device identifier. -/
theorem understood_iff (serde : SerdeJson) (lawful : serde.Lawful)
    (refuses : RefusesSurrogates serde) (jsonDecode : JsonDecoder) (reads : jsonDecode.Lawful)
    {DateTime : Type} (dates : DateTimeText DateTime) (frame : Frame DateTime) :
    frame.Understood serde jsonDecode dates ↔
      ∃ messageId deviceId id,
        frame = .deliveryAck (Dart.ofString messageId) (Dart.ofString deviceId) ∧
          Uuid.parseStr deviceId = some id := by
  cases frame with
  | sendMessage envelope => simp [not_understood_sendMessage lawful refuses]
  | typing senderId recipientId isTyping => simp [not_understood_typing lawful refuses reads]
  | readReceipt senderId recipientId messageId now =>
      simp [not_understood_readReceipt lawful refuses reads]
  | deliveryAck messageId deviceId => simp [understood_deliveryAck lawful refuses reads, and_assoc]

/-- Times that are their own texts. -/
def DateTimeText.sample : DateTimeText String := ⟨fun text => text, some⟩

def aliceId : Uuid := .replicate 16 1

def bobId : Uuid := .replicate 16 2

/-- Bob's device acknowledges a message. -/
theorem understood_iff_acknowledged :
    (Frame.deliveryAck (Dart.ofString "m1") (Dart.ofString bobId.display)).Understood
      .sample .sample .sample :=
  (understood_iff .sample SerdeJson.sample_lawful sample_refusesSurrogates .sample
    JsonDecoder.sample_lawful .sample _).mpr ⟨_, _, _, rfl, Uuid.parseStr_display bobId⟩

/-- Alice sends Bob a message, is typing, and has read a message of his. Nothing of this gets
through. -/
theorem frames_not_understood :
    ¬ (Frame.sendMessage
        ⟨Dart.ofString aliceId.display, Dart.ofString bobId.display, Dart.ofString "AAAA", 1,
          Dart.ofString "m1", "2024-01-01T00:00:00.000Z", none⟩).Understood
        .sample .sample .sample ∧
    ¬ (Frame.typing (Dart.ofString aliceId.display) (Dart.ofString bobId.display) true).Understood
        .sample .sample .sample ∧
    ¬ (Frame.readReceipt (Dart.ofString bobId.display) (Dart.ofString aliceId.display)
        (Dart.ofString "m2") "2024-01-01T00:00:00.000Z").Understood .sample .sample .sample :=
  ⟨not_understood_sendMessage SerdeJson.sample_lawful sample_refusesSurrogates _,
    not_understood_typing SerdeJson.sample_lawful sample_refusesSurrogates
      JsonDecoder.sample_lawful _ _ _,
    not_understood_readReceipt SerdeJson.sample_lawful sample_refusesSurrogates
      JsonDecoder.sample_lawful _ _ _ _⟩

end Hysj.App
