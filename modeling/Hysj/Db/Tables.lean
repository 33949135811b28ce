import Hysj.Shared.Types

set_option autoImplicit false

/- The tables that the modelled endpoints use, and one function a statement. Rows stand in the
order of their insertion. -/
namespace Hysj.Db

open Crypto Shared

structure User where
  id : Uuid
  username : String
  phoneNumber : String
  displayName : Option String
  passwordHash : String
  salt : Bytes
  identityPublicKey : Bytes
  identityDhPublicKey : Bytes
  totpSecret : Option Bytes
  has2faEnabled : Bool
  createdAt : Nat
  lastSeenAt : Nat
  avatarUrl : Option String
  status : String

/-- A user as it is registered at time 0. -/
def User.sample (id : Uuid) : User :=
  ⟨id, "alice", "+4711111111", none, "hash", [], [], [], none, false, 0, 0, none, "online"⟩

structure Device where
  id : Uuid
  userId : Uuid
  deviceName : String
  signedPreKey : Bytes
  signedPreKeySig : Bytes
  kyberPublicKey : Bytes
  isOnline : Bool
  lastActiveAt : Nat
  registeredAt : Nat

/-- A device as it is registered at time 0. -/
def Device.sample (id userId : Uuid) : Device :=
  ⟨id, userId, "phone", [], [], [], false, 0, 0⟩

structure PreKey where
  id : Nat
  deviceId : Uuid
  publicKey : Bytes
  isUsed : Bool

structure LoginAttempt where
  id : Nat
  ipAddress : String
  userId : Option Uuid
  success : Bool
  attemptedAt : Nat

structure Group where
  id : Uuid
  name : String
  creatorId : Uuid
  isAnonymous : Bool
  maxMembers : Int
  createdAt : Nat

structure GroupMember where
  groupId : Uuid
  userId : Uuid
  aliasName : Option String
  aliasColor : Option String
  role : String
  joinedAt : Nat

/-- A member who joined at time 0. -/
def GroupMember.sample (groupId userId : Uuid) : GroupMember :=
  ⟨groupId, userId, none, none, "member", 0⟩

structure Contact where
  userId : Uuid
  contactUserId : Uuid
  nickname : Option String
  isBlocked : Bool
  createdAt : Nat

structure ContactRequest where
  id : Uuid
  fromUserId : Uuid
  toUserId : Uuid
  createdAt : Nat

structure UserSettings where
  userId : Uuid
  readReceiptsEnabled : Bool
  typingIndicatorsEnabled : Bool
  lastActiveVisible : Bool

structure MutedChat where
  userId : Uuid
  targetId : Uuid
  createdAt : Nat

structure PinnedMessage where
  groupId : Uuid
  messageId : String
  pinnedBy : Uuid

structure VpnServer where
  id : Uuid
  country : String
  city : Option String
  endpoint : String
  publicKey : String
  isActive : Bool
  maxConnections : Int
  currentConnections : Int

structure UserVpnKey where
  userId : Uuid
  publicKey : String
  privateKeyEncrypted : Bytes
  createdAt : Nat

structure VpnSession where
  id : Uuid
  userId : Uuid
  serverId : Uuid
  clientPublicKey : String
  assignedIp : String
  startedAt : Nat
  endedAt : Option Nat
  bytesUp : Nat
  bytesDown : Nat

structure EmojiPack where
  id : Uuid
  name : String
  description : Option String
  creatorId : Option Uuid
  coverImageUrl : Option String
  isPremium : Bool
  priceCents : Option Int
  isActive : Bool
  createdAt : Nat

structure Emoji where
  id : Uuid
  packId : Uuid
  shortcode : String

structure UserEmojiPack where
  userId : Uuid
  packId : Uuid

/-- Of a table that no statement below reads, the columns that refer to other tables and those
of its keys. -/
structure Tables where
  users : List User := []
  devices : List Device := []
  preKeys : List PreKey := []
  /-- the last value of the sequence behind `pre_keys.id` -/
  preKeySerial : Nat := 0
  /-- the rows of pre-keys that a statement in progress has locked -/
  preKeyLocks : List Nat := []
  loginAttempts : List LoginAttempt := []
  /-- the last value of the sequence behind `login_attempts.id` -/
  loginAttemptSerial : Nat := 0
  groups : List Group := []
  groupMembers : List GroupMember := []
  contacts : List Contact := []
  contactRequests : List ContactRequest := []
  userSettings : List UserSettings := []
  mutedChats : List MutedChat := []
  pinnedMessages : List PinnedMessage := []
  vpnServers : List VpnServer := []
  userVpnKeys : List UserVpnKey := []
  vpnSessions : List VpnSession := []
  emojiPacks : List EmojiPack := []
  emojis : List Emoji := []
  userEmojiPacks : List UserEmojiPack := []

/-- One statement: its answer, and the tables after it. -/
abbrev Statement (α : Type) := Tables → Except DbError α × Tables

/-- The text of a unique violation. -/
def duplicateKey (constraint : String) : DbError :=
  .conflict ("duplicate key value violates unique constraint " ++ constraint)

/-- A text that is too long for its column, or has a NUL, is refused by the database, too: that is
among the statements that fail. -/
def createUser (user : User) : Statement User := fun t =>
  if t.users.any fun row => row.id = user.id then (.error (duplicateKey "users_pkey"), t)
  else if t.users.any fun row => row.username = user.username then
    (.error (duplicateKey "users_username_key"), t)
  else if t.users.any fun row => row.phoneNumber = user.phoneNumber then
    (.error (duplicateKey "users_phone_number_key"), t)
  else (.ok user, { t with users := t.users ++ [user] })

def findByPhoneNumber (phoneNumber : String) : Statement (Option User) := fun t =>
  (.ok (t.users.find? fun row => row.phoneNumber = phoneNumber), t)

def findById (id : Uuid) : Statement (Option User) := fun t =>
  (.ok (t.users.find? fun row => row.id = id), t)

/-- `UPDATE users SET .. WHERE id = ..`, which has to affect a row. -/
def updateUser (userId : Uuid) (set : User → User) : Statement Unit := fun t =>
  if t.users.any fun row => row.id = userId then
    (.ok (), { t with users := t.users.map fun row => if row.id = userId then set row else row })
  else (.error .notFound, t)

def updateLastSeen (userId : Uuid) (now : Nat) : Statement Unit :=
  updateUser userId fun row => { row with lastSeenAt := now }

/-- Set (or update) the unique username for a user. -/
def setUsername (userId : Uuid) (username : String) : Statement Unit := fun t =>
  if (t.users.any fun row => row.id = userId) &&
      t.users.any fun row => row.id ≠ userId ∧ row.username = username then
    (.error (duplicateKey "users_username_key"), t)
  else updateUser userId (fun row => { row with username := username }) t

/-- Enable 2FA for a user by storing the encrypted TOTP secret. -/
def enable2fa (userId : Uuid) (totpSecret : Bytes) : Statement Unit :=
  updateUser userId fun row => { row with totpSecret := some totpSecret, has2faEnabled := true }

/-- Disable 2FA for a user, clearing their TOTP secret. -/
def disable2fa (userId : Uuid) : Statement Unit :=
  updateUser userId fun row => { row with totpSecret := none, has2faEnabled := false }

/-- Set the display name for a user. -/
def setDisplayName (userId : Uuid) (displayName : String) : Statement Unit :=
  updateUser userId fun row => { row with displayName := some displayName }

/-- Set (or clear) the avatar URL for a user. -/
def setAvatar (userId : Uuid) (avatarUrl : Option String) : Statement Unit :=
  updateUser userId fun row => { row with avatarUrl := avatarUrl }

/-- Set the user's presence status (online, away, dnd). -/
def setStatus (userId : Uuid) (status : String) : Statement Unit :=
  updateUser userId fun row => { row with status := status }

/-- The tables without a user: rows that refer to the user go, or lose the reference, as the
foreign keys say, and so do the rows that refer to those that go. -/
def Tables.withoutUser (t : Tables) (userId : Uuid) : Tables :=
  let ofDevice (deviceId : Uuid) := t.devices.any fun row => row.id = deviceId ∧ row.userId = userId
  let ofGroup (groupId : Uuid) := t.groups.any fun row => row.id = groupId ∧ row.creatorId = userId
  { t with
    users := t.users.filter fun row => row.id ≠ userId
    devices := t.devices.filter fun row => row.userId ≠ userId
    preKeys := t.preKeys.filter fun key => !ofDevice key.deviceId
    loginAttempts := t.loginAttempts.map fun row =>
      if row.userId = some userId then { row with userId := none } else row
    groups := t.groups.filter fun row => row.creatorId ≠ userId
    groupMembers := t.groupMembers.filter fun row => !ofGroup row.groupId && row.userId ≠ userId
    contacts := t.contacts.filter fun row => row.userId ≠ userId ∧ row.contactUserId ≠ userId
    contactRequests := t.contactRequests.filter fun row =>
      row.fromUserId ≠ userId ∧ row.toUserId ≠ userId
    userSettings := t.userSettings.filter fun row => row.userId ≠ userId
    mutedChats := t.mutedChats.filter fun row => row.userId ≠ userId
    pinnedMessages := t.pinnedMessages.filter fun row =>
      !ofGroup row.groupId && row.pinnedBy ≠ userId
    userVpnKeys := t.userVpnKeys.filter fun row => row.userId ≠ userId
    vpnSessions := t.vpnSessions.filter fun row => row.userId ≠ userId
    userEmojiPacks := t.userEmojiPacks.filter fun row => row.userId ≠ userId }

/-- CASCADE constraints handle related data. The one reference to users that has no action is
that of an emoji pack to its creator. -/
def deleteUser (userId : Uuid) : Statement Unit := fun t =>
  if t.users.any fun row => row.id = userId then
    if t.emojiPacks.any fun row => row.creatorId = some userId then
      (.error (.queryFailed "emoji_packs_creator_id_fkey"), t)
    else (.ok (), t.withoutUser userId)
  else (.error .notFound, t)

def registerDevice (device : Device) : Statement Device := fun t =>
  if t.devices.any fun row => row.id = device.id then (.error (duplicateKey "devices_pkey"), t)
  else if t.users.any fun row => row.id = device.userId then
    (.ok device, { t with devices := t.devices ++ [device] })
  else (.error (.queryFailed "devices_user_id_fkey"), t)

def findDeviceById (deviceId : Uuid) : Statement Device := fun t =>
  match t.devices.find? fun row => row.id = deviceId with
  | some row => (.ok row, t)
  | none => (.error .notFound, t)

def listByUser (userId : Uuid) : Statement (List Device) := fun t =>
  (.ok (t.devices.filter fun row => row.userId = userId), t)

def listByUsers (userIds : List Uuid) : Statement (List Device) := fun t =>
  (.ok (t.devices.filter fun row => row.userId ∈ userIds), t)

/-- `ORDER BY last_active_at DESC LIMIT 1` -/
def mostRecent : List Device → Option Device
  | [] => none
  | row :: rows =>
      match mostRecent rows with
      | none => some row
      | some other => if row.lastActiveAt < other.lastActiveAt then some other else some row

def findOneDeviceForUser (userId : Uuid) : Statement Device := fun t =>
  match mostRecent (t.devices.filter fun row => row.userId = userId) with
  | some row => (.ok row, t)
  | none => (.error .notFound, t)

def setOnline (deviceId : Uuid) (online : Bool) (now : Nat) : Statement Unit := fun t =>
  (.ok (), { t with
    devices := t.devices.map fun row =>
      if row.id = deviceId then { row with isOnline := online, lastActiveAt := now } else row })

def deleteDevice (deviceId userId : Uuid) : Statement Bool := fun t =>
  if t.devices.any fun row => row.id = deviceId ∧ row.userId = userId then
    (.ok true, { t with
      devices := t.devices.filter fun row => ¬ (row.id = deviceId ∧ row.userId = userId)
      preKeys := t.preKeys.filter fun key => key.deviceId ≠ deviceId })
  else (.ok false, t)

/-- A number of the sequence is used up by an insertion that fails, too. -/
def storePreKey (deviceId : Uuid) (publicKey : Bytes) : Statement Unit := fun t =>
  let id := t.preKeySerial + 1
  if t.devices.any fun row => row.id = deviceId then
    (.ok (), { t with
      preKeys := t.preKeys ++ [⟨id, deviceId, publicKey, false⟩], preKeySerial := id })
  else (.error (.queryFailed "pre_keys_device_id_fkey"), { t with preKeySerial := id })

theorem storePreKey_snd (deviceId : Uuid) (publicKey : Bytes) (t : Tables) : ∃ keys serial,
    (storePreKey deviceId publicKey t).2 = { t with preKeys := keys, preKeySerial := serial } := by
  unfold storePreKey
  dsimp only
  split
  · exact ⟨_, _, rfl⟩
  · exact ⟨t.preKeys, _, rfl⟩

theorem devices_storePreKey {deviceId : Uuid} {publicKey : Bytes} {t : Tables} :
    (storePreKey deviceId publicKey t).2.devices = t.devices := by
  obtain ⟨keys, serial, same⟩ := storePreKey_snd deviceId publicKey t
  rw [same]

/-- A number of the sequence is used up by an insertion that fails, too. -/
def recordAttempt (ipAddress : String) (userId : Option Uuid) (success : Bool) (now : Nat) :
    Statement Unit := fun t =>
  let id := t.loginAttemptSerial + 1
  if userId.all fun userId => t.users.any fun row => row.id = userId then
    (.ok (), { t with
      loginAttempts := t.loginAttempts ++ [⟨id, ipAddress, userId, success, now⟩]
      loginAttemptSerial := id })
  else (.error (.queryFailed "login_attempts_user_id_fkey"), { t with loginAttemptSerial := id })

theorem recordAttempt_snd (ipAddress : String) (userId : Option Uuid) (success : Bool) (now : Nat)
    (t : Tables) : ∃ rows serial, (recordAttempt ipAddress userId success now t).2 =
      { t with loginAttempts := rows, loginAttemptSerial := serial } := by
  unfold recordAttempt
  dsimp only
  split
  · exact ⟨_, _, rfl⟩
  · exact ⟨t.loginAttempts, _, rfl⟩

def countRecentFailures (ipAddress : String) (windowSeconds now : Nat) : Statement Nat := fun t =>
  (.ok (t.loginAttempts.countP fun row =>
    row.ipAddress = ipAddress ∧ row.success = false ∧ now < row.attemptedAt + windowSeconds), t)

def getMembers (groupId : Uuid) : Statement (List GroupMember) := fun t =>
  (.ok (t.groupMembers.filter fun row => row.groupId = groupId), t)

def isMember (groupId userId : Uuid) : Statement Bool := fun t =>
  (.ok (t.groupMembers.any fun row => row.groupId = groupId ∧ row.userId = userId), t)

/-- `ON CONFLICT DO NOTHING RETURNING *` returns no row for a message that is pinned. -/
def pin (groupId : Uuid) (messageId : String) (pinnedBy : Uuid) : Statement Unit := fun t =>
  if t.pinnedMessages.any fun row => row.groupId = groupId ∧ row.messageId = messageId then
    (.error .notFound, t)
  else if t.groups.any fun row => row.id = groupId then
    if t.users.any fun row => row.id = pinnedBy then
      (.ok (), { t with pinnedMessages := t.pinnedMessages ++ [⟨groupId, messageId, pinnedBy⟩] })
    else (.error (.queryFailed "pinned_messages_pinned_by_fkey"), t)
  else (.error (.queryFailed "pinned_messages_group_id_fkey"), t)

def unpin (groupId : Uuid) (messageId : String) : Statement Unit := fun t =>
  (.ok (), { t with
    pinnedMessages := t.pinnedMessages.filter fun row =>
      ¬ (row.groupId = groupId ∧ row.messageId = messageId) })

def createPack (pack : EmojiPack) : Statement EmojiPack := fun t =>
  if t.emojiPacks.any fun row => row.id = pack.id then (.error (duplicateKey "emoji_packs_pkey"), t)
  else if pack.creatorId.all fun userId => t.users.any fun row => row.id = userId then
    (.ok pack, { t with emojiPacks := t.emojiPacks ++ [pack] })
  else (.error (.queryFailed "emoji_packs_creator_id_fkey"), t)

end Hysj.Db
