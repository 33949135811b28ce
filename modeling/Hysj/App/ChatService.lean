import Hysj.App.ApiClient
import Hysj.App.CryptoService

set_option autoImplicit false

/- What becomes of a frame that arrives: it is presented as a message, whatever its ciphertext. -/
namespace Hysj.App

open Crypto Dart

/-- A chat message (local representation). -/
structure ChatMessage (DateTime : Type) where
  id : DartString
  text : DartString
  isMe : Bool
  timestamp : DateTime
  senderDeviceId : DartString

/-- The state of the service, with the messages that were stored, the notifications that were shown
and the messages that were announced to the screens. -/
structure ChatService (Key DateTime : Type) where
  crypto : CryptoService Key
  contacts : List Contact
  conversations : DartString → List (ChatMessage DateTime)
  lastMessages : DartString → Option DartString
  deviceToUser : DartString → Option DartString
  myDeviceId : Option DartString
  saved : List (DartString × ChatMessage DateTime)
  notifications : List (String × DartString)
  incomingMessages : List (ChatMessage DateTime)

section

variable {Key DateTime : Type} (c : Cryptography Key) (dates : DateTimeText DateTime)

/-- The text of a notification. -/
def preview (text : DartString) : DartString :=
  if 50 < text.length then text.take 50 ++ ofString "..." else text

/-- The message of an envelope. -/
def incomingMessage (envelope : EncryptedEnvelope DateTime) (text : DartString) :
    ChatMessage DateTime :=
  { id := envelope.messageId
    text := text
    isMe := false
    timestamp := envelope.timestamp
    senderDeviceId := envelope.senderDeviceId }

/-- What `_onWsMessage` does with an envelope. -/
def onEnvelope (envelope : EncryptedEnvelope DateTime) (s : ChatService Key DateTime) :
    ChatService Key DateTime :=
  let (text, crypto) := decrypt c envelope.ciphertext (s.myDeviceId.getD [])
    envelope.senderDeviceId s.crypto
  let contactUserId := (s.deviceToUser envelope.senderDeviceId).getD envelope.senderDeviceId
  let chatMsg := incomingMessage envelope text
  let sender := s.contacts.find? fun contact => ofString contact.userId = contactUserId
  { s with
    crypto := crypto
    conversations := Function.update s.conversations contactUserId
      (s.conversations contactUserId ++ [chatMsg])
    lastMessages := Function.update s.lastMessages contactUserId (some text)
    saved := s.saved ++ [(contactUserId, chatMsg)]
    notifications := s.notifications ++
      [((sender.map Contact.username).getD "someone", preview text)]
    incomingMessages := s.incomingMessages ++ [chatMsg] }

/-- `_onWsMessage`: where reading the envelope throws, nothing has been done. -/
def onWsMessage (msg : WsIncoming) (s : ChatService Key DateTime) : ChatService Key DateTime :=
  if msg.type = "SendMessage" then
    match msg.envelope dates with
    | some (some envelope) => onEnvelope c envelope s
    | _ => s
  else s

variable {c dates} {msg : WsIncoming} {envelope : EncryptedEnvelope DateTime}
variable {s : ChatService Key DateTime}

/-- Every envelope that is read makes one message, whose text is what `decrypt` returns. -/
theorem presents (envelopes : msg.envelope dates = some (some envelope)) :
    (onWsMessage c dates msg s).incomingMessages = s.incomingMessages ++
      [incomingMessage envelope (decrypt c envelope.ciphertext (s.myDeviceId.getD [])
        envelope.senderDeviceId s.crypto).1] := by
  unfold onWsMessage
  by_cases sent : msg.type = "SendMessage"
  · rw [if_pos sent, envelopes]
    rfl
  · rw [WsIncoming.envelope, if_neg sent] at envelopes
    cases envelopes

/-- So a string that holds nothing that AES-GCM accepts makes one too. -/
theorem presents_rejected (envelopes : msg.envelope dates = some (some envelope))
    (rejected : ∀ packed, base64Decode envelope.ciphertext = some packed →
      ∀ box, unpack packed = some box → c.decrypt box (getKey c (s.myDeviceId.getD [])
        envelope.senderDeviceId s.crypto).1 = none) :
    (onWsMessage c dates msg s).incomingMessages =
      s.incomingMessages ++ [incomingMessage envelope (legacy envelope.ciphertext)] := by
  rw [presents envelopes]
  exact congrArg (fun text => _ ++ [incomingMessage envelope text]) (opened_rejected rejected)

end

end Hysj.App
