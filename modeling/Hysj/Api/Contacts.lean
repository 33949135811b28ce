import Hysj.Api.Groups
import Hysj.Db.Contacts
import Hysj.Db.Pagination

set_option autoImplicit false

/- The endpoints over profiles, contacts, contact requests, settings, muted chats and the contents
of emoji packs. -/
namespace Hysj.Shared

structure SetNicknameRequest where
  nickname : Option String

structure ContactDto where
  userId : Uuid
  username : String
  displayName : Option String
  nickname : Option String
  isBlocked : Bool

structure SetDisplayNameRequest where
  displayName : String

structure SetAvatarRequest where
  avatarUrl : Option String

structure SetStatusRequest where
  status : String

structure UpdateSettingsRequest where
  readReceiptsEnabled : Option Bool
  typingIndicatorsEnabled : Option Bool
  lastActiveVisible : Option Bool

structure UserSettingsDto where
  readReceiptsEnabled : Bool
  typingIndicatorsEnabled : Bool
  lastActiveVisible : Bool

structure MuteChatRequest where
  targetId : Uuid
  muted : Bool

structure AddEmojiRequest where
  shortcode : String
  imageUrl : String
  isAnimated : Bool

structure EmojiDto where
  id : Uuid
  shortcode : String
  imageUrl : String
  isAnimated : Bool

end Hysj.Shared

namespace Hysj.Api

open Crypto Shared Auth Messaging Program

/-- The answer of the endpoints that have nothing to tell. -/
def status (text : String) : Json.Value := .obj [("status", .str text)]

/-- `POST /api/auth/set-display-name` -/
def setDisplayName (auth : AuthUser) (request : SetDisplayNameRequest) :
    Task HysjError Json.Value := do
  if request.displayName = "" ∨ 64 < request.displayName.utf8ByteSize then
    throw (.validationError "Display name must be 1-64 characters")
  else
    ExceptT.adapt .ofDb (query fun _ => Db.setDisplayName auth.userId request.displayName)
    return status "display_name_set"

/-- `POST /api/auth/set-avatar` -/
def setAvatar (auth : AuthUser) (request : SetAvatarRequest) : Task HysjError Json.Value := do
  if request.avatarUrl.any fun url => 2048 < url.utf8ByteSize then
    throw (.validationError "Avatar URL must be at most 2048 characters")
  else
    ExceptT.adapt .ofDb (query fun _ => Db.setAvatar auth.userId request.avatarUrl)
    return status "avatar_set"

def validStatuses : List String := ["online", "away", "dnd", "offline"]

/-- `PUT /api/users/status` -/
def setUserStatus (auth : AuthUser) (request : SetStatusRequest) : Task HysjError Json.Value := do
  if request.status ∈ validStatuses then
    ExceptT.adapt .ofDb (query fun _ => Db.setStatus auth.userId request.status)
    return status request.status
  else throw (.validationError "Status must be one of: online, away, dnd, offline")

namespace Contacts

/-- Verify the target user exists. -/
def verifyUser (userId : Uuid) : Task HysjError Unit := do
  match ← ExceptT.adapt .ofDb (query fun _ => Db.findById userId) with
  | some _ => return ()
  | none => throw (.userNotFound userId)

/-- One contact, enriched with what its user is called. -/
def contactDto (contact : Db.Contact) : Task HysjError ContactDto := do
  match ← ExceptT.adapt .ofDb (query fun _ => Db.findById contact.contactUserId) with
  | some user =>
      return ⟨contact.contactUserId, user.username, user.displayName, contact.nickname,
        contact.isBlocked⟩
  | none => throw (.userNotFound contact.contactUserId)

/-- `GET /api/contacts`. The database picks the rows of a page. -/
def listContacts (page : Db.Statement (List Db.Contact)) : Task HysjError (List ContactDto) := do
  let contacts ← ExceptT.adapt .ofDb (query fun _ => page)
  contacts.mapM contactDto

/-- `POST /api/contacts/:user_id` -/
def addContact (auth : AuthUser) (contactUserId : Uuid) : Task HysjError Json.Value := do
  if auth.userId = contactUserId then throw (.validationError "Cannot add yourself as a contact")
  else
    verifyUser contactUserId
    let _ ← ExceptT.adapt .ofDb
      (query fun now => Db.Contacts.addContact auth.userId contactUserId now)
    return status "contact_added"

/-- `DELETE /api/contacts/:user_id` -/
def removeContact (auth : AuthUser) (contactUserId : Uuid) : Task HysjError Json.Value := do
  ExceptT.adapt .ofDb (query fun _ => Db.Contacts.removeContact auth.userId contactUserId)
  return status "contact_removed"

/-- `PUT /api/contacts/:user_id/nickname` -/
def setNickname (auth : AuthUser) (contactUserId : Uuid) (request : SetNicknameRequest) :
    Task HysjError Json.Value := do
  if request.nickname.any fun nickname => 64 < nickname.utf8ByteSize then
    throw (.validationError "Nickname must be at most 64 characters")
  else
    ExceptT.adapt .ofDb
      (query fun _ => Db.Contacts.setNickname auth.userId contactUserId request.nickname)
    return status "nickname_set"

/-- `POST /api/contacts/:user_id/block` -/
def blockContact (auth : AuthUser) (contactUserId : Uuid) : Task HysjError Json.Value := do
  verifyUser contactUserId
  ExceptT.adapt .ofDb (query fun now => Db.Contacts.blockContact auth.userId contactUserId now)
  return status "contact_blocked"

/-- `POST /api/contacts/:user_id/unblock` -/
def unblockContact (auth : AuthUser) (contactUserId : Uuid) : Task HysjError Json.Value := do
  ExceptT.adapt .ofDb (query fun _ => Db.Contacts.unblockContact auth.userId contactUserId)
  return status "contact_unblocked"

end Contacts

namespace ContactRequests

/-- `POST /api/contact-requests/:user_id` -/
def sendRequest (auth : AuthUser) (toUserId : Uuid) : Task HysjError Json.Value := do
  if auth.userId = toUserId then throw (.validationError "Cannot send request to yourself")
  else
    Contacts.verifyUser toUserId
    let id ← random
    let _ ← ExceptT.adapt .ofDb
      (query fun now => Db.ContactRequests.sendRequest id auth.userId toUserId now)
    return status "request_sent"

/-- What follows on a request that was taken: the mutual contact relationship, whatever comes of
it. -/
def createContacts (userId fromUserId : Uuid) : Task HysjError Json.Value := do
  let _ ← attempt (query fun now => Db.Contacts.addContact userId fromUserId now)
  let _ ← attempt (query fun now => Db.Contacts.addContact fromUserId userId now)
  return status "request_accepted"

/-- `POST /api/contact-requests/:request_id/accept` -/
def acceptRequest (auth : AuthUser) (requestId : Uuid) : Task HysjError Json.Value := do
  let request ← ExceptT.adapt .ofDb (query fun _ => Db.ContactRequests.accept requestId auth.userId)
  createContacts auth.userId request.fromUserId

/-- `POST /api/contact-requests/:request_id/reject` -/
def rejectRequest (auth : AuthUser) (requestId : Uuid) : Task HysjError Json.Value := do
  ExceptT.adapt .ofDb (query fun _ => Db.ContactRequests.reject requestId auth.userId)
  return status "request_rejected"

end ContactRequests

/-- A column of the settings is written if there is a value for it. -/
def Settings.setIf (statement : Bool → Db.Statement Unit) : Option Bool → Task HysjError Unit
  | some value => ExceptT.adapt .ofDb (query fun _ => statement value)
  | none => return ()

/-- `PUT /api/settings`. Of `GET /api/settings` there is nothing to tell: it prepares two statements
at once, which the database refuses. -/
def Settings.updateSettings (auth : AuthUser) (request : UpdateSettingsRequest) :
    Task HysjError UserSettingsDto := do
  ExceptT.adapt .ofDb (query fun _ => Db.Settings.ensure auth.userId)
  setIf (Db.Settings.setReadReceipts auth.userId) request.readReceiptsEnabled
  setIf (Db.Settings.setTypingIndicators auth.userId) request.typingIndicatorsEnabled
  setIf (Db.Settings.setLastActiveVisible auth.userId) request.lastActiveVisible
  let settings ← ExceptT.adapt .ofDb (query fun _ => Db.Settings.find auth.userId)
  return ⟨settings.readReceiptsEnabled, settings.typingIndicatorsEnabled,
    settings.lastActiveVisible⟩

/-- `POST /api/settings/mute` -/
def Settings.muteChat (auth : AuthUser) (request : MuteChatRequest) :
    Task HysjError Json.Value := do
  if request.muted then
    ExceptT.adapt .ofDb (query fun now => Db.Settings.muteChat auth.userId request.targetId now)
  else ExceptT.adapt .ofDb (query fun _ => Db.Settings.unmuteChat auth.userId request.targetId)
  return status "ok"

namespace Emojis

/-- Verify pack exists. -/
def verifyPack (packId : Uuid) : Task HysjError Db.EmojiPack := do
  match ← ExceptT.adapt .ofDb (query fun _ => Db.Emojis.getPack packId) with
  | some pack => return pack
  | none => throw (.validationError "Pack not found")

/-- `POST /api/emojis/packs/:pack_id/emojis` -/
def addEmoji (auth : AuthUser) (packId : Uuid) (request : AddEmojiRequest) :
    Task HysjError EmojiDto := do
  let pack ← verifyPack packId
  if pack.creatorId = some auth.userId then
    let id ← random
    ExceptT.adapt .ofDb (query fun _ => Db.Emojis.addEmoji id packId request.shortcode)
    return ⟨id, request.shortcode, request.imageUrl, request.isAnimated⟩
  else throw (.authFailed "Only the pack creator can add emojis")

/-- `POST /api/emojis/packs/:pack_id/purchase` -/
def purchasePack (auth : AuthUser) (packId : Uuid) : Task HysjError Json.Value := do
  let _ ← verifyPack packId
  ExceptT.adapt .ofDb (query fun _ => Db.Emojis.purchasePack auth.userId packId)
  return .obj [("purchased", .bool true)]

end Emojis

/-- The requests that may touch contacts and contact requests. -/
inductive ContactCall where
  | add (contactUserId : Uuid)
  | remove (contactUserId : Uuid)
  | nickname (contactUserId : Uuid) (request : SetNicknameRequest)
  | block (contactUserId : Uuid)
  | unblock (contactUserId : Uuid)
  | send (toUserId : Uuid)
  | accept (requestId : Uuid)
  | reject (requestId : Uuid)

def ContactCall.handle (auth : AuthUser) : ContactCall → Task HysjError Json.Value
  | .add contactUserId => Contacts.addContact auth contactUserId
  | .remove contactUserId => Contacts.removeContact auth contactUserId
  | .nickname contactUserId request => Contacts.setNickname auth contactUserId request
  | .block contactUserId => Contacts.blockContact auth contactUserId
  | .unblock contactUserId => Contacts.unblockContact auth contactUserId
  | .send toUserId => ContactRequests.sendRequest auth toUserId
  | .accept requestId => ContactRequests.acceptRequest auth requestId
  | .reject requestId => ContactRequests.rejectRequest auth requestId

end Hysj.Api
