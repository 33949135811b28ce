import Hysj.Db.Integrity

set_option autoImplicit false

/- The statements that change tables, as data. -/
namespace Hysj.Db

open Crypto Shared

/-- A change of contacts or contact requests. -/
inductive ContactWrite where
  | add (userId contactUserId : Uuid) (now : Nat)
  | rename (userId contactUserId : Uuid) (nickname : Option String)
  | block (userId contactUserId : Uuid) (now : Nat)
  | unblock (userId contactUserId : Uuid)
  | remove (userId contactUserId : Uuid)
  | send (id fromUserId toUserId : Uuid) (now : Nat)
  | take (requestId userId : Uuid)

def ContactWrite.apply : ContactWrite → Tables → Tables
  | .add userId contactUserId now, t => (Contacts.addContact userId contactUserId now t).2
  | .rename userId contactUserId nickname, t =>
      (Contacts.setNickname userId contactUserId nickname t).2
  | .block userId contactUserId now, t => (Contacts.blockContact userId contactUserId now t).2
  | .unblock userId contactUserId, t => (Contacts.unblockContact userId contactUserId t).2
  | .remove userId contactUserId, t => (Contacts.removeContact userId contactUserId t).2
  | .send id fromUserId toUserId now, t =>
      (ContactRequests.sendRequest id fromUserId toUserId now t).2
  | .take requestId userId, t => ContactRequests.dropped t requestId userId

/-- A change of any table. -/
inductive Write where
  | contact (write : ContactWrite)
  | createUser (user : User)
  | updateLastSeen (userId : Uuid) (now : Nat)
  | enable2fa (userId : Uuid) (secret : Bytes)
  | disable2fa (userId : Uuid)
  | setUsername (userId : Uuid) (username : String)
  | setDisplayName (userId : Uuid) (displayName : String)
  | setAvatar (userId : Uuid) (avatarUrl : Option String)
  | setStatus (userId : Uuid) (status : String)
  | deleteUser (userId : Uuid)
  | registerDevice (device : Device)
  | setOnline (deviceId : Uuid) (online : Bool) (now : Nat)
  | deleteDevice (deviceId userId : Uuid)
  | storePreKey (deviceId : Uuid) (publicKey : Bytes)
  | locks (ids : List Nat)
  | usePreKey (id : Nat)
  | recordAttempt (ipAddress : String) (userId : Option Uuid) (success : Bool) (now : Nat)
  | createGroup (id : Uuid) (name : String) (creatorId : Uuid) (isAnonymous : Bool) (now : Nat)
  | addMember (groupId userId : Uuid) (role : String) (now : Nat)
  | removeMember (groupId userId : Uuid)
  | deleteMembers (groupId : Uuid)
  | deleteRow (groupId : Uuid)
  | updateGroupName (groupId : Uuid) (name : String)
  | pin (groupId : Uuid) (messageId : String) (userId : Uuid)
  | unpin (groupId : Uuid) (messageId : String)
  | createPack (pack : EmojiPack)
  | addEmoji (id packId : Uuid) (shortcode : String)
  | purchasePack (userId packId : Uuid)
  | insertSession (session : VpnSession)
  | incrementConnections (serverId : Uuid)
  | markEnded (sessionId : Uuid) (now : Nat)
  | decrementConnections (sessionId : Uuid)
  | storeVpnKeys (key : UserVpnKey)
  | ensureSettings (userId : Uuid)
  | setReadReceipts (userId : Uuid) (enabled : Bool)
  | setTypingIndicators (userId : Uuid) (enabled : Bool)
  | setLastActiveVisible (userId : Uuid) (visible : Bool)
  | muteChat (userId targetId : Uuid) (now : Nat)
  | unmuteChat (userId targetId : Uuid)

def Write.apply : Write → Tables → Tables
  | .contact write, t => write.apply t
  | .createUser user, t => (Db.createUser user t).2
  | .updateLastSeen userId now, t => (Db.updateLastSeen userId now t).2
  | .enable2fa userId secret, t => (Db.enable2fa userId secret t).2
  | .disable2fa userId, t => (Db.disable2fa userId t).2
  | .setUsername userId username, t => (Db.setUsername userId username t).2
  | .setDisplayName userId displayName, t => (Db.setDisplayName userId displayName t).2
  | .setAvatar userId avatarUrl, t => (Db.setAvatar userId avatarUrl t).2
  | .setStatus userId status, t => (Db.setStatus userId status t).2
  | .deleteUser userId, t => (Db.deleteUser userId t).2
  | .registerDevice device, t => (Db.registerDevice device t).2
  | .setOnline deviceId online now, t => (Db.setOnline deviceId online now t).2
  | .deleteDevice deviceId userId, t => (Db.deleteDevice deviceId userId t).2
  | .storePreKey deviceId publicKey, t => (Db.storePreKey deviceId publicKey t).2
  | .locks ids, t => { t with preKeyLocks := ids }
  | .usePreKey id, t => (Db.usePreKey id t).2
  | .recordAttempt ipAddress userId success now, t =>
      (Db.recordAttempt ipAddress userId success now t).2
  | .createGroup id name creatorId isAnonymous now, t =>
      (Groups.createGroup id name creatorId isAnonymous now t).2
  | .addMember groupId userId role now, t => (Groups.addMember groupId userId role now t).2
  | .removeMember groupId userId, t => (Groups.removeMember groupId userId t).2
  | .deleteMembers groupId, t => (Groups.deleteMembers groupId t).2
  | .deleteRow groupId, t => (Groups.deleteRow groupId t).2
  | .updateGroupName groupId name, t => (Groups.updateGroupName groupId name t).2
  | .pin groupId messageId userId, t => (Db.pin groupId messageId userId t).2
  | .unpin groupId messageId, t => (Db.unpin groupId messageId t).2
  | .createPack pack, t => (Db.createPack pack t).2
  | .addEmoji id packId shortcode, t => (Emojis.addEmoji id packId shortcode t).2
  | .purchasePack userId packId, t => (Emojis.purchasePack userId packId t).2
  | .insertSession session, t => (Db.insertSession session t).2
  | .incrementConnections serverId, t => (Db.incrementConnections serverId t).2
  | .markEnded sessionId now, t => (Db.markEnded sessionId now t).2
  | .decrementConnections sessionId, t => (Db.decrementConnections sessionId t).2
  | .storeVpnKeys key, t => (Db.storeVpnKeys key t).2
  | .ensureSettings userId, t => (Settings.ensure userId t).2
  | .setReadReceipts userId enabled, t => (Settings.setReadReceipts userId enabled t).2
  | .setTypingIndicators userId enabled, t => (Settings.setTypingIndicators userId enabled t).2
  | .setLastActiveVisible userId visible, t => (Settings.setLastActiveVisible userId visible t).2
  | .muteChat userId targetId now, t => (Settings.muteChat userId targetId now t).2
  | .unmuteChat userId targetId, t => (Settings.unmuteChat userId targetId t).2

/-- A change that is not about contacts, the deletion of an account, or the keys of the VPN. -/
def Write.Plain : Write → Prop
  | .contact _ => False
  | .deleteUser _ => False
  | .storeVpnKeys _ => False
  | _ => True

section

variable {t : Tables}

theorem ContactWrite.integrity (write : ContactWrite) (holds : Integrity t) :
    Integrity (write.apply t) := by
  cases write with
  | add userId contactUserId now => exact preserves_addContact t holds
  | rename userId contactUserId nickname => exact preserves_setNickname nickname t holds
  | block userId contactUserId now => exact preserves_blockContact t holds
  | unblock userId contactUserId => exact preserves_unblockContact t holds
  | remove userId contactUserId => exact preserves_removeContact t holds
  | send id fromUserId toUserId now => exact preserves_sendRequest t holds
  | take requestId userId => exact integrity_dropped holds

theorem Write.integrity (write : Write) (holds : Integrity t) : Integrity (write.apply t) := by
  cases write with
  | contact write => exact write.integrity holds
  | createUser user => exact preserves_createUser user t holds
  | updateLastSeen userId now => exact preserves_updateLastSeen t holds
  | enable2fa userId secret => exact preserves_enable2fa secret t holds
  | disable2fa userId => exact preserves_disable2fa t holds
  | setUsername userId username => exact preserves_setUsername username t holds
  | setDisplayName userId displayName => exact preserves_setDisplayName displayName t holds
  | setAvatar userId avatarUrl => exact preserves_setAvatar avatarUrl t holds
  | setStatus userId status => exact preserves_setStatus status t holds
  | deleteUser userId => exact preserves_deleteUser t holds
  | registerDevice device => exact preserves_registerDevice device t holds
  | setOnline deviceId online now => exact preserves_setOnline online t holds
  | deleteDevice deviceId userId => exact preserves_deleteDevice t holds
  | storePreKey deviceId publicKey => exact preserves_storePreKey publicKey t holds
  | locks ids => exact ⟨{ holds.keys with }, { holds.references with }⟩
  | usePreKey id => exact preserves_usePreKey id t holds
  | recordAttempt ipAddress userId success now =>
      exact preserves_recordAttempt ipAddress userId success t holds
  | createGroup id name creatorId isAnonymous now =>
      exact preserves_createGroup name creatorId isAnonymous t holds
  | addMember groupId userId role now => exact preserves_addMember role t holds
  | removeMember groupId userId => exact preserves_removeMember t holds
  | deleteMembers groupId => exact preserves_deleteMembers t holds
  | deleteRow groupId => exact preserves_deleteRow t holds
  | updateGroupName groupId name => exact preserves_updateGroupName name t holds
  | pin groupId messageId userId => exact preserves_pin messageId t holds
  | unpin groupId messageId => exact preserves_unpin messageId t holds
  | createPack pack => exact preserves_createPack pack t holds
  | addEmoji id packId shortcode => exact preserves_addEmoji shortcode t holds
  | purchasePack userId packId => exact preserves_purchasePack t holds
  | insertSession session => exact preserves_insertSession session t holds
  | incrementConnections serverId => exact preserves_incrementConnections t holds
  | markEnded sessionId now => exact preserves_markEnded t holds
  | decrementConnections sessionId => exact preserves_decrementConnections t holds
  | storeVpnKeys key => exact preserves_storeVpnKeys key t holds
  | ensureSettings userId => exact preserves_ensure t holds
  | setReadReceipts userId enabled => exact preserves_setReadReceipts enabled t holds
  | setTypingIndicators userId enabled => exact preserves_setTypingIndicators enabled t holds
  | setLastActiveVisible userId visible => exact preserves_setLastActiveVisible visible t holds
  | muteChat userId targetId now => exact preserves_muteChat t holds
  | unmuteChat userId targetId => exact preserves_unmuteChat t holds

/-- What stays of a VPN server: everything but the count of its connections. -/
def VpnServer.settled (server : VpnServer) : VpnServer := { server with currentConnections := 0 }

theorem settled_map {servers : List VpnServer} {set : VpnServer → VpnServer}
    (same : ∀ server, (set server).settled = server.settled) :
    (servers.map set).map VpnServer.settled = servers.map VpnServer.settled := by
  rw [List.map_map]
  exact List.map_congr_left fun server _ => same server

/-- Contacts, contact requests and the keys of the VPN are left alone, and its servers but for the
counts of their connections. -/
abbrev SameAside (t t' : Tables) : Prop :=
  t'.contacts = t.contacts ∧ t'.contactRequests = t.contactRequests ∧
    t'.userVpnKeys = t.userVpnKeys ∧
      t'.vpnServers.map VpnServer.settled = t.vpnServers.map VpnServer.settled

theorem sameAside_updateUser {userId : Uuid} {set : User → User} :
    SameAside t (updateUser userId set t).2 := by
  unfold updateUser
  split
  · exact ⟨rfl, rfl, rfl, rfl⟩
  · exact ⟨rfl, rfl, rfl, rfl⟩

theorem sameAside_ifUser {α : Type} {userId : Uuid} {constraint : String}
    {inserted : Except DbError α × Tables} (same : SameAside t inserted.2) :
    SameAside t (ifUser t userId constraint inserted).2 := by
  obtain ⟨-, inserts⟩ | ⟨-, fails⟩ := ifUser_cases t userId constraint inserted
  · rw [inserts]
    exact same
  · rw [fails]
    exact ⟨rfl, rfl, rfl, rfl⟩

theorem sameAside_createUser (user : User) : SameAside t (createUser user t).2 := by
  unfold createUser
  repeat' split
  all_goals exact ⟨rfl, rfl, rfl, rfl⟩

theorem sameAside_setUsername {userId : Uuid} (username : String) :
    SameAside t (setUsername userId username t).2 := by
  unfold setUsername
  split
  · exact ⟨rfl, rfl, rfl, rfl⟩
  · exact sameAside_updateUser

theorem sameAside_registerDevice (device : Device) : SameAside t (registerDevice device t).2 := by
  unfold registerDevice
  repeat' split
  all_goals exact ⟨rfl, rfl, rfl, rfl⟩

theorem sameAside_deleteDevice (deviceId userId : Uuid) :
    SameAside t (deleteDevice deviceId userId t).2 := by
  unfold deleteDevice
  repeat' split
  all_goals exact ⟨rfl, rfl, rfl, rfl⟩

theorem sameAside_storePreKey (deviceId : Uuid) (publicKey : Bytes) :
    SameAside t (storePreKey deviceId publicKey t).2 := by
  obtain ⟨keys, serial, after⟩ := storePreKey_snd deviceId publicKey t
  rw [after]
  exact ⟨rfl, rfl, rfl, rfl⟩

theorem sameAside_recordAttempt (ipAddress : String) (userId : Option Uuid) (success : Bool)
    (now : Nat) : SameAside t (recordAttempt ipAddress userId success now t).2 := by
  obtain ⟨rows, serial, after⟩ := recordAttempt_snd ipAddress userId success now t
  rw [after]
  exact ⟨rfl, rfl, rfl, rfl⟩

theorem sameAside_createGroup (id : Uuid) (name : String) (creatorId : Uuid) (isAnonymous : Bool)
    (now : Nat) :
    SameAside t (Groups.createGroup id name creatorId isAnonymous now t).2 := by
  unfold Groups.createGroup
  dsimp only
  repeat' split
  all_goals exact ⟨rfl, rfl, rfl, rfl⟩

theorem sameAside_addMember (groupId userId : Uuid) (role : String) (now : Nat) :
    SameAside t (Groups.addMember groupId userId role now t).2 := by
  unfold Groups.addMember
  dsimp only
  repeat' split
  all_goals exact ⟨rfl, rfl, rfl, rfl⟩

theorem sameAside_updateGroupName (groupId : Uuid) (name : String) :
    SameAside t (Groups.updateGroupName groupId name t).2 := by
  unfold Groups.updateGroupName
  repeat' split
  all_goals exact ⟨rfl, rfl, rfl, rfl⟩

theorem sameAside_pin (groupId : Uuid) (messageId : String) (userId : Uuid) :
    SameAside t (pin groupId messageId userId t).2 := by
  unfold pin
  repeat' split
  all_goals exact ⟨rfl, rfl, rfl, rfl⟩

theorem sameAside_createPack (pack : EmojiPack) : SameAside t (createPack pack t).2 := by
  unfold createPack
  repeat' split
  all_goals exact ⟨rfl, rfl, rfl, rfl⟩

theorem sameAside_addEmoji (id packId : Uuid) (shortcode : String) :
    SameAside t (Emojis.addEmoji id packId shortcode t).2 := by
  unfold Emojis.addEmoji
  repeat' split
  all_goals exact ⟨rfl, rfl, rfl, rfl⟩

theorem sameAside_purchasePack (userId packId : Uuid) :
    SameAside t (Emojis.purchasePack userId packId t).2 := by
  unfold Emojis.purchasePack
  split
  · exact ⟨rfl, rfl, rfl, rfl⟩
  · refine sameAside_ifUser ?_
    repeat' split
    all_goals exact ⟨rfl, rfl, rfl, rfl⟩

theorem sameAside_insertSession (session : VpnSession) :
    SameAside t (insertSession session t).2 := by
  unfold insertSession
  repeat' split
  all_goals exact ⟨rfl, rfl, rfl, rfl⟩

theorem sameAside_incrementConnections (serverId : Uuid) :
    SameAside t (incrementConnections serverId t).2 := by
  refine ⟨rfl, rfl, rfl, settled_map fun server => ?_⟩
  split <;> rfl

theorem sameAside_decrementConnections (sessionId : Uuid) :
    SameAside t (decrementConnections sessionId t).2 := by
  refine ⟨rfl, rfl, rfl, settled_map fun server => ?_⟩
  split <;> rfl

theorem sameAside_markEnded (sessionId : Uuid) (now : Nat) :
    SameAside t (markEnded sessionId now t).2 := by
  unfold markEnded
  repeat' split
  all_goals exact ⟨rfl, rfl, rfl, rfl⟩

theorem sameAside_ensure (userId : Uuid) : SameAside t (Settings.ensure userId t).2 := by
  unfold Settings.ensure
  split
  · exact ⟨rfl, rfl, rfl, rfl⟩
  · exact sameAside_ifUser ⟨rfl, rfl, rfl, rfl⟩

theorem sameAside_muteChat (userId targetId : Uuid) (now : Nat) :
    SameAside t (Settings.muteChat userId targetId now t).2 := by
  unfold Settings.muteChat
  split
  · exact ⟨rfl, rfl, rfl, rfl⟩
  · exact sameAside_ifUser ⟨rfl, rfl, rfl, rfl⟩

theorem Write.Plain.aside {write : Write} (plain : write.Plain) : SameAside t (write.apply t) := by
  cases write with
  | contact | deleteUser | storeVpnKeys => exact plain.elim
  | createUser user => exact sameAside_createUser user
  | updateLastSeen | enable2fa | disable2fa | setDisplayName | setAvatar | setStatus =>
      exact sameAside_updateUser
  | setUsername userId username => exact sameAside_setUsername username
  | registerDevice device => exact sameAside_registerDevice device
  | deleteDevice deviceId userId => exact sameAside_deleteDevice deviceId userId
  | storePreKey deviceId publicKey => exact sameAside_storePreKey deviceId publicKey
  | recordAttempt ipAddress userId success now =>
      exact sameAside_recordAttempt ipAddress userId success now
  | createGroup id name creatorId isAnonymous now =>
      exact sameAside_createGroup id name creatorId isAnonymous now
  | addMember groupId userId role now => exact sameAside_addMember groupId userId role now
  | updateGroupName groupId name => exact sameAside_updateGroupName groupId name
  | pin groupId messageId userId => exact sameAside_pin groupId messageId userId
  | createPack pack => exact sameAside_createPack pack
  | addEmoji id packId shortcode => exact sameAside_addEmoji id packId shortcode
  | purchasePack userId packId => exact sameAside_purchasePack userId packId
  | insertSession session => exact sameAside_insertSession session
  | incrementConnections serverId => exact sameAside_incrementConnections serverId
  | markEnded sessionId now => exact sameAside_markEnded sessionId now
  | decrementConnections sessionId => exact sameAside_decrementConnections sessionId
  | ensureSettings userId => exact sameAside_ensure userId
  | muteChat userId targetId now => exact sameAside_muteChat userId targetId now
  | setOnline | locks | usePreKey | removeMember | deleteMembers | deleteRow | unpin
  | setReadReceipts | setTypingIndicators | setLastActiveVisible | unmuteChat =>
      exact ⟨rfl, rfl, rfl, rfl⟩

variable {row : Contact} {userId contactUserId : Uuid}

theorem ifUser_snd {α : Type} (t : Tables) (userId : Uuid) (constraint : String)
    (inserted : Except DbError α × Tables) : (ifUser t userId constraint inserted).2 = inserted.2 ∨
      (ifUser t userId constraint inserted).2 = t := by
  obtain ⟨-, inserts⟩ | ⟨-, fails⟩ := ifUser_cases t userId constraint inserted
  · exact Or.inl (congrArg Prod.snd inserts)
  · exact Or.inr (congrArg Prod.snd fails)

theorem insert_snd (t : Tables) (contact : Contact) : (Contacts.insert contact t).2 = t ∨
    (Contacts.insert contact t).2 = { t with contacts := t.contacts ++ [contact] } := by
  unfold Contacts.insert
  obtain outer | outer := ifUser_snd t contact.userId "contacts_user_id_fkey"
    (ifUser t contact.contactUserId "contacts_contact_user_id_fkey"
      (.ok contact, { t with contacts := t.contacts ++ [contact] }))
  · rw [outer]
    exact (ifUser_snd t _ _ _).symm
  · exact Or.inl outer

theorem addContact_snd (t : Tables) (userId contactUserId : Uuid) (now : Nat) :
     (Contacts.addContact userId contactUserId now t).2 = t ∨
    (Contacts.addContact userId contactUserId now t).2 =
      { t with contacts := t.contacts ++ [⟨userId, contactUserId, none, false, now⟩] } := by
  unfold Contacts.addContact
  split
  · exact Or.inl rfl
  · exact insert_snd t _

theorem sendRequest_snd (t : Tables) (id fromUserId toUserId : Uuid) (now : Nat) :
    (ContactRequests.sendRequest id fromUserId toUserId now t).2 = t ∨
      (ContactRequests.sendRequest id fromUserId toUserId now t).2 =
        { t with contactRequests := t.contactRequests ++ [⟨id, fromUserId, toUserId, now⟩] } := by
  unfold ContactRequests.sendRequest
  dsimp only
  split
  · exact Or.inl rfl
  · split
    · exact Or.inl rfl
    · let request : ContactRequest := ⟨id, fromUserId, toUserId, now⟩
      obtain outer | outer := ifUser_snd t fromUserId "contact_requests_from_user_id_fkey"
        (ifUser t toUserId "contact_requests_to_user_id_fkey"
          (.ok request, { t with contactRequests := t.contactRequests ++ [request] }))
      · rw [outer]
        exact (ifUser_snd t _ _ _).symm
      · exact Or.inl outer

theorem updateContact_snd (t : Tables) (userId contactUserId : Uuid) (set : Contact → Contact) :
    (Contacts.updateContact userId contactUserId set t).2 = t ∨
      (Contacts.updateContact userId contactUserId set t).2 =
        Contacts.changed t userId contactUserId set := by
  unfold Contacts.updateContact
  split
  · exact Or.inr rfl
  · exact Or.inl rfl

theorem removeContact_snd (t : Tables) (userId contactUserId : Uuid) :
     (Contacts.removeContact userId contactUserId t).2 = t ∨
    (Contacts.removeContact userId contactUserId t).2 =
      { t with contacts := t.contacts.filter fun row =>
      ¬ Contacts.Is userId contactUserId row } := by
  unfold Contacts.removeContact
  split
  · exact Or.inr rfl
  · exact Or.inl rfl

theorem blockContact_snd (t : Tables) (userId contactUserId : Uuid) (now : Nat) :
     (Contacts.blockContact userId contactUserId now t).2 = t ∨
    (Contacts.blockContact userId contactUserId now t).2 =
      Contacts.changed t userId contactUserId (fun row => { row with isBlocked := true }) ∨
    (Contacts.blockContact userId contactUserId now t).2 =
      { t with contacts := t.contacts ++ [⟨userId, contactUserId, none, true, now⟩] } := by
  unfold Contacts.blockContact
  split
  · exact Or.inr (Or.inl rfl)
  · obtain same | inserted := insert_snd t ⟨userId, contactUserId, none, true, now⟩
    · exact Or.inl same
    · exact Or.inr (Or.inr inserted)

theorem mem_changed {set : Contact → Contact}
    (member : row ∈ (Contacts.changed t userId contactUserId set).contacts)
    (kept : ∀ row, ((set row).userId, (set row).contactUserId) = (row.userId, row.contactUserId)) :
    ∃ old ∈ t.contacts, (old.userId, old.contactUserId) = (row.userId, row.contactUserId) := by
  obtain ⟨old, there, rfl⟩ := List.mem_map.mp member
  refine ⟨old, there, ?_⟩
  split
  · exact (kept old).symm
  · rfl

theorem ContactWrite.mem_contacts {write : ContactWrite} (member : row ∈ (write.apply t).contacts) :
    (∃ old ∈ t.contacts, (old.userId, old.contactUserId) = (row.userId, row.contactUserId)) ∨
      (∃ now, write = .add row.userId row.contactUserId now) ∨
        ∃ now, write = .block row.userId row.contactUserId now := by
  have stays (there : row ∈ t.contacts) :
      ∃ old ∈ t.contacts, (old.userId, old.contactUserId) = (row.userId, row.contactUserId) :=
    ⟨row, there, rfl⟩
  cases write with
  | add u v now =>
      have after := addContact_snd t u v now
      rw [apply] at member
      obtain same | inserted := after
      · rw [same] at member
        exact Or.inl (stays member)
      · rw [inserted] at member
        rcases List.mem_append.mp member with there | new
        · exact Or.inl (stays there)
        · obtain rfl := List.mem_singleton.mp new
          exact Or.inr (Or.inl ⟨now, rfl⟩)
  | block u v now =>
      have after := blockContact_snd t u v now
      rw [apply] at member
      obtain same | changed | inserted := after
      · rw [same] at member
        exact Or.inl (stays member)
      · rw [changed] at member
        exact Or.inl (mem_changed member fun _ => rfl)
      · rw [inserted] at member
        rcases List.mem_append.mp member with there | new
        · exact Or.inl (stays there)
        · obtain rfl := List.mem_singleton.mp new
          exact Or.inr (Or.inr ⟨now, rfl⟩)
  | rename u v nickname =>
      have after := updateContact_snd t u v fun row =>
        { row with nickname := nickname }
      change row ∈ (Contacts.updateContact u v _ t).2.contacts at member
      obtain same | changed := after
      · rw [same] at member
        exact Or.inl (stays member)
      · rw [changed] at member
        exact Or.inl (mem_changed member fun _ => rfl)
  | unblock u v =>
      have after := updateContact_snd t u v fun row =>
        { row with isBlocked := false }
      change row ∈ (Contacts.updateContact u v _ t).2.contacts at member
      obtain same | changed := after
      · rw [same] at member
        exact Or.inl (stays member)
      · rw [changed] at member
        exact Or.inl (mem_changed member fun _ => rfl)
  | remove u v =>
      have after := removeContact_snd t u v
      rw [apply] at member
      obtain same | removed := after
      · rw [same] at member
        exact Or.inl (stays member)
      · rw [removed] at member
        exact Or.inl (stays (List.mem_of_mem_filter member))
  | send id u v now =>
      have after := sendRequest_snd t id u v now
      rw [apply] at member
      obtain same | inserted := after
      · rw [same] at member
        exact Or.inl (stays member)
      · rw [inserted] at member
        exact Or.inl (stays member)
  | take id u => exact Or.inl (stays member)

theorem contactRequests_changed {set : Contact → Contact} :
    (Contacts.changed t userId contactUserId set).contactRequests = t.contactRequests := rfl

theorem contactRequests_updateContact (t : Tables) (userId contactUserId : Uuid)
    (set : Contact → Contact) :
    (Contacts.updateContact userId contactUserId set t).2.contactRequests = t.contactRequests := by
  obtain same | changed := updateContact_snd t userId contactUserId set
  · rw [same]
  · rw [changed, contactRequests_changed]

theorem ContactWrite.mem_contactRequests {write : ContactWrite} {request : ContactRequest}
    (member : request ∈ (write.apply t).contactRequests) : request ∈ t.contactRequests ∨
      write = .send request.id request.fromUserId request.toUserId request.createdAt := by
  cases write with
  | add u v now =>
      refine Or.inl ?_
      rw [apply] at member
      obtain same | inserted := addContact_snd t u v now
      · rw [same] at member
        exact member
      · rw [inserted] at member
        exact member
  | block u v now =>
      refine Or.inl ?_
      rw [apply] at member
      obtain same | changed | inserted := blockContact_snd t u v now
      · rw [same] at member
        exact member
      · rw [changed] at member
        exact member
      · rw [inserted] at member
        exact member
  | rename u v nickname =>
      change request ∈ (Contacts.updateContact u v _ t).2.contactRequests at member
      rw [contactRequests_updateContact] at member
      exact Or.inl member
  | unblock u v =>
      change request ∈ (Contacts.updateContact u v _ t).2.contactRequests at member
      rw [contactRequests_updateContact] at member
      exact Or.inl member
  | remove u v =>
      refine Or.inl ?_
      rw [apply] at member
      obtain same | removed := removeContact_snd t u v
      · rw [same] at member
        exact member
      · rw [removed] at member
        exact member
  | send id u v now =>
      rw [apply] at member
      obtain same | inserted := sendRequest_snd t id u v now
      · rw [same] at member
        exact Or.inl member
      · rw [inserted] at member
        rcases List.mem_append.mp member with there | new
        · exact Or.inl there
        · obtain rfl := List.mem_singleton.mp new
          exact Or.inr rfl
  | take id u => exact Or.inl (List.mem_of_mem_filter member)

theorem deleteUser_snd (t : Tables) (userId : Uuid) : (deleteUser userId t).2 = t ∨
    (deleteUser userId t).2 = t.withoutUser userId := by
  unfold deleteUser
  split
  · split
    · exact Or.inl rfl
    · exact Or.inr rfl
  · exact Or.inl rfl

theorem contacts_storeVpnKeys (key : UserVpnKey) : (storeVpnKeys key t).2.contacts = t.contacts ∧
    (storeVpnKeys key t).2.contactRequests = t.contactRequests := by
  unfold storeVpnKeys
  repeat' split
  all_goals exact ⟨rfl, rfl⟩

theorem ContactWrite.vpn (write : ContactWrite) :
    (write.apply t).userVpnKeys = t.userVpnKeys ∧ (write.apply t).vpnServers = t.vpnServers := by
  have same {t' : Tables} (is : t' = t) :
      t'.userVpnKeys = t.userVpnKeys ∧ t'.vpnServers = t.vpnServers := by
    rw [is]
    exact ⟨rfl, rfl⟩
  cases write with
  | add u v now =>
      rw [apply]
      obtain is | inserted := addContact_snd t u v now
      · exact same is
      · rw [inserted]
        exact ⟨rfl, rfl⟩
  | block u v now =>
      rw [apply]
      obtain is | changed | inserted := blockContact_snd t u v now
      · exact same is
      · rw [changed]
        exact ⟨rfl, rfl⟩
      · rw [inserted]
        exact ⟨rfl, rfl⟩
  | rename u v nickname =>
      obtain is | changed := updateContact_snd t u v fun row => { row with nickname := nickname }
      · exact same is
      · exact ⟨(congrArg Tables.userVpnKeys changed).trans rfl,
          (congrArg Tables.vpnServers changed).trans rfl⟩
  | unblock u v =>
      obtain is | changed := updateContact_snd t u v fun row => { row with isBlocked := false }
      · exact same is
      · exact ⟨(congrArg Tables.userVpnKeys changed).trans rfl,
          (congrArg Tables.vpnServers changed).trans rfl⟩
  | remove u v =>
      rw [apply]
      obtain is | removed := removeContact_snd t u v
      · exact same is
      · rw [removed]
        exact ⟨rfl, rfl⟩
  | send id u v now =>
      rw [apply]
      obtain is | inserted := sendRequest_snd t id u v now
      · exact same is
      · rw [inserted]
        exact ⟨rfl, rfl⟩
  | take id u => exact ⟨rfl, rfl⟩

/-- No change touches more of a VPN server than the count of its connections. -/
theorem Write.settled (write : Write) :
    (write.apply t).vpnServers.map VpnServer.settled = t.vpnServers.map VpnServer.settled := by
  by_cases plain : write.Plain
  · exact plain.aside.2.2.2
  · cases write with
    | contact write => exact congrArg (List.map VpnServer.settled) write.vpn.2
    | deleteUser userId =>
        rw [apply]
        obtain same | deleted := deleteUser_snd t userId
        · rw [same]
        · rw [deleted]
          rfl
    | storeVpnKeys key =>
        show (Db.storeVpnKeys key t).2.vpnServers.map _ = _
        unfold Db.storeVpnKeys
        repeat' split
        all_goals rfl
    | _ => exact absurd trivial plain

/-- Keys of the VPN were there before, or they have been stored. -/
theorem Write.mem_userVpnKeys {write : Write} {key : UserVpnKey}
    (member : key ∈ (write.apply t).userVpnKeys) :
    key ∈ t.userVpnKeys ∨ write = .storeVpnKeys key := by
  by_cases plain : write.Plain
  · rw [plain.aside.2.2.1] at member
    exact Or.inl member
  · cases write with
    | contact write =>
        change key ∈ (write.apply t).userVpnKeys at member
        rw [write.vpn.1] at member
        exact Or.inl member
    | deleteUser userId =>
        rw [apply] at member
        obtain same | deleted := deleteUser_snd t userId
        · rw [same] at member
          exact Or.inl member
        · rw [deleted] at member
          exact Or.inl (List.mem_of_mem_filter member)
    | storeVpnKeys stored =>
        change key ∈ (Db.storeVpnKeys stored t).2.userVpnKeys at member
        unfold Db.storeVpnKeys at member
        split at member
        · exact Or.inl member
        · split at member
          · obtain ⟨old, there, is⟩ := List.mem_map.mp member
            split at is
            · rw [is]
              exact Or.inr rfl
            · rw [← is]
              exact Or.inl there
          · obtain there | new := List.mem_append.mp member
            · exact Or.inl there
            · rw [List.mem_singleton.mp new]
              exact Or.inr rfl
    | _ => exact absurd trivial plain

/-- Contacts and requests that there are after a change of another kind were there before. -/
theorem Write.mem_of_other {write : Write} (other : ∀ w, write ≠ .contact w) :
    (∀ row ∈ (write.apply t).contacts, row ∈ t.contacts) ∧
      ∀ request ∈ (write.apply t).contactRequests, request ∈ t.contactRequests := by
  by_cases plain : write.Plain
  · obtain ⟨contacts, requests, -⟩ := plain.aside (t := t)
    rw [contacts, requests]
    exact ⟨fun _ there => there, fun _ there => there⟩
  · cases write with
    | contact w => exact (other w rfl).elim
    | deleteUser userId =>
        show (∀ row ∈ (Db.deleteUser userId t).2.contacts, row ∈ t.contacts) ∧
          ∀ request ∈ (Db.deleteUser userId t).2.contactRequests, request ∈ t.contactRequests
        obtain same | gone := deleteUser_snd t userId
        · rw [same]
          exact ⟨fun _ there => there, fun _ there => there⟩
        · rw [gone]
          exact ⟨fun _ there => List.mem_of_mem_filter there, fun _ there =>
            List.mem_of_mem_filter there⟩
    | storeVpnKeys key =>
        show (∀ row ∈ (Db.storeVpnKeys key t).2.contacts, row ∈ t.contacts) ∧
          ∀ request ∈ (Db.storeVpnKeys key t).2.contactRequests, request ∈ t.contactRequests
        obtain ⟨contacts, requests⟩ := contacts_storeVpnKeys (t := t) key
        rw [contacts, requests]
        exact ⟨fun _ there => there, fun _ there => there⟩
    | _ => exact (plain trivial).elim

/-- The contacts of a user. -/
def Tables.contactsOf (t : Tables) (userId : Uuid) : List Contact :=
  t.contacts.filter fun row => row.userId = userId

/-- Whose contacts a change is about. -/
def ContactWrite.owner : ContactWrite → Option Uuid
  | .add userId _ _ | .rename userId _ _ | .block userId _ _ | .unblock userId
    _ | .remove userId _ =>
      some userId
  | .send _ _ _ _ | .take _ _ => none

theorem contactsOf_congr {t' : Tables} (same : t'.contacts = t.contacts) :
    t'.contactsOf userId = t.contactsOf userId := by
  rw [Tables.contactsOf, same, Tables.contactsOf]

theorem contactsOf_append {t' : Tables} (added : t'.contacts = t.contacts ++ [row]) :
    t'.contactsOf userId = t.contactsOf userId ++ if row.userId = userId then [row] else [] := by
  rw [Tables.contactsOf, added, List.filter_append, Tables.contactsOf]
  by_cases own : row.userId = userId
  · simp [own]
  · simp [own]

theorem contactsOf_append_own {t' : Tables} (added : t'.contacts = t.contacts ++ [row])
    (own : row.userId = userId) : t'.contactsOf userId = t.contactsOf userId ++ [row] := by
  rw [contactsOf_append added, if_pos own]

theorem contactsOf_append_of_ne {t' : Tables} (added : t'.contacts = t.contacts ++ [row])
    (other : row.userId ≠ userId) : t'.contactsOf userId = t.contactsOf userId := by
  rw [contactsOf_append added, if_neg other, List.append_nil]

theorem contactsOf_changed {u : Uuid} {set : Contact → Contact}
    (kept : ∀ row, (set row).userId = row.userId) (other : u ≠ userId) :
    (Contacts.changed t u contactUserId set).contactsOf userId = t.contactsOf userId := by
  show (t.contacts.map _).filter _ = t.contacts.filter _
  rw [List.filter_map]
  have same : (fun row : Contact => decide (row.userId = userId)) ∘ (fun row =>
      if Contacts.Is u contactUserId row then set row else row) =
        fun row : Contact => decide (row.userId = userId) := by
    funext row
    rw [Function.comp_apply, column_ite kept]
  rw [same]
  refine (List.map_congr_left fun row member => ?_).trans (List.map_id _)
  have own : row.userId = userId := of_decide_eq_true (List.mem_filter.mp member).2
  exact if_neg fun is => other (is.1.symm.trans own)

theorem contactsOf_updateContact {u : Uuid} {set : Contact → Contact}
    (kept : ∀ row, (set row).userId = row.userId) (other : u ≠ userId) :
    (Contacts.updateContact u contactUserId set t).2.contactsOf userId = t.contactsOf userId := by
  obtain same | changed := updateContact_snd t u contactUserId set
  · rw [same]
  · rw [changed, contactsOf_changed kept other]

/-- A change about the contacts of one user leaves those of the others alone. -/
theorem ContactWrite.contactsOf {write : ContactWrite} (other : write.owner ≠ some userId) :
    (write.apply t).contactsOf userId = t.contactsOf userId := by
  cases write with
  | add u v now =>
      have differs : u ≠ userId := fun same => other (congrArg some same)
      rw [apply]
      obtain same | inserted := addContact_snd t u v now
      · rw [same]
      · rw [inserted]
        exact contactsOf_append_of_ne rfl differs
  | block u v now =>
      have differs : u ≠ userId := fun same => other (congrArg some same)
      rw [apply]
      obtain same | changed | inserted := blockContact_snd t u v now
      · rw [same]
      · rw [changed]
        exact contactsOf_changed (fun _ => rfl) differs
      · rw [inserted]
        exact contactsOf_append_of_ne rfl differs
  | rename u v nickname =>
      exact contactsOf_updateContact (fun _ => rfl) fun same => other (congrArg some same)
  | unblock u v =>
      exact contactsOf_updateContact (fun _ => rfl) fun same => other (congrArg some same)
  | remove u v =>
      have differs : u ≠ userId := fun same => other (congrArg some same)
      rw [apply]
      obtain same | removed := removeContact_snd t u v
      · rw [same]
      · rw [removed]
        show (t.contacts.filter _).filter _ = t.contacts.filter _
        rw [List.filter_filter]
        apply List.filter_congr
        intro row _
        by_cases own : row.userId = userId
        · have stays : ¬ Contacts.Is u v row := fun is => differs (is.1.symm.trans own)
          simp [own, stays]
        · simp [own]
  | send id u v now =>
      rw [apply]
      obtain same | inserted := sendRequest_snd t id u v now
      · rw [same]
      · rw [inserted]
        exact contactsOf_congr rfl
  | take id u => rfl

/-- Of the contacts of its user an update changes the one it is about. -/
theorem contactsOf_changed_own {set : Contact → Contact}
    (kept : ∀ row, (set row).userId = row.userId) :
    (Contacts.changed t userId contactUserId set).contactsOf userId =
      (t.contactsOf userId).map fun row =>
      if row.contactUserId = contactUserId then set row else row := by
  show (t.contacts.map _).filter _ = (t.contacts.filter _).map _
  rw [List.filter_map]
  have same : (fun row : Contact => decide (row.userId = userId)) ∘ (fun row =>
      if Contacts.Is userId contactUserId row then set row else row) =
        fun row : Contact => decide (row.userId = userId) := by
    funext row
    rw [Function.comp_apply, column_ite kept]
  rw [same]
  refine List.map_congr_left fun row member => ?_
  have own : row.userId = userId := of_decide_eq_true (List.mem_filter.mp member).2
  simp only [Contacts.Is, own, true_and]

theorem contactsOf_removed {t' : Tables}
    (removed : t'.contacts = t.contacts.filter fun row => ¬ Contacts.Is userId contactUserId row) :
    t'.contactsOf userId =
      (t.contactsOf userId).filter fun row => row.contactUserId ≠ contactUserId := by
  rw [Tables.contactsOf, Tables.contactsOf, removed, List.filter_filter, List.filter_filter]
  apply List.filter_congr
  intro row _
  by_cases own : row.userId = userId
  · simp [Contacts.Is, own]
  · simp [own]

/-- The contacts of a user without those that go with an account. -/
theorem contactsOf_withoutUser {u : Uuid} : (t.withoutUser u).contactsOf userId =
    (t.contactsOf userId).filter fun row => row.userId ≠ u ∧ row.contactUserId ≠ u := by
  show (t.contacts.filter _).filter _ = (t.contacts.filter _).filter _
  rw [List.filter_filter, List.filter_filter]
  apply List.filter_congr
  intro row _
  exact Bool.and_comm _ _

end

end Hysj.Db
