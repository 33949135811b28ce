import Hysj.Base.Constraints
import Hysj.Db.Contacts
import Hysj.Db.Groups
import Hysj.Db.PreKeys
import Hysj.Db.References
import Hysj.Db.Vpn

set_option autoImplicit false

/- The constraints of the four migrations, and that every statement keeps them. -/
namespace Hysj.Db

open Shared

abbrev Tables.HasDevice (t : Tables) (deviceId : Uuid) : Prop :=
  ∃ row ∈ t.devices, row.id = deviceId

abbrev Tables.HasGroup (t : Tables) (groupId : Uuid) : Prop := ∃ row ∈ t.groups, row.id = groupId

abbrev Tables.HasServer (t : Tables) (serverId : Uuid) : Prop :=
  ∃ row ∈ t.vpnServers, row.id = serverId

abbrev Tables.HasPack (t : Tables) (packId : Uuid) : Prop := ∃ row ∈ t.emojiPacks, row.id = packId

/-- The primary keys and the unique constraints. -/
structure Keys (t : Tables) : Prop where
  users : Unique User.id t.users
  usernames : Unique User.username t.users
  phoneNumbers : Unique User.phoneNumber t.users
  devices : Unique Device.id t.devices
  preKeys : Unique PreKey.id t.preKeys
  /-- the sequence is ahead of the keys it has numbered -/
  preKeySerial : ∀ row ∈ t.preKeys, row.id ≤ t.preKeySerial
  loginAttempts : Unique LoginAttempt.id t.loginAttempts
  loginAttemptSerial : ∀ row ∈ t.loginAttempts, row.id ≤ t.loginAttemptSerial
  groups : Unique Group.id t.groups
  groupMembers : Unique (fun row : GroupMember => (row.groupId, row.userId)) t.groupMembers
  contacts : Unique (fun row : Contact => (row.userId, row.contactUserId)) t.contacts
  contactRequests : Unique ContactRequest.id t.contactRequests
  requestPairs :
    Unique (fun row : ContactRequest => (row.fromUserId, row.toUserId)) t.contactRequests
  userSettings : Unique UserSettings.userId t.userSettings
  mutedChats : Unique (fun row : MutedChat => (row.userId, row.targetId)) t.mutedChats
  pinnedMessages : Unique (fun row : PinnedMessage => (row.groupId, row.messageId)) t.pinnedMessages
  vpnServers : Unique VpnServer.id t.vpnServers
  userVpnKeys : Unique UserVpnKey.userId t.userVpnKeys
  vpnSessions : Unique VpnSession.id t.vpnSessions
  emojiPacks : Unique EmojiPack.id t.emojiPacks
  emojis : Unique Emoji.id t.emojis
  shortcodes : Unique (fun row : Emoji => (row.packId, row.shortcode)) t.emojis
  userEmojiPacks : Unique (fun row : UserEmojiPack => (row.userId, row.packId)) t.userEmojiPacks

/-- The foreign keys. -/
structure References (t : Tables) : Prop where
  devices : ∀ row ∈ t.devices, t.HasUser row.userId
  preKeys : ∀ row ∈ t.preKeys, t.HasDevice row.deviceId
  loginAttempts : ∀ row ∈ t.loginAttempts, ∀ userId ∈ row.userId, t.HasUser userId
  groups : ∀ row ∈ t.groups, t.HasUser row.creatorId
  groupMembers : ∀ row ∈ t.groupMembers, t.HasGroup row.groupId ∧ t.HasUser row.userId
  contacts : ∀ row ∈ t.contacts, t.HasUser row.userId ∧ t.HasUser row.contactUserId
  contactRequests : ∀ row ∈ t.contactRequests, t.HasUser row.fromUserId ∧ t.HasUser row.toUserId
  userSettings : ∀ row ∈ t.userSettings, t.HasUser row.userId
  mutedChats : ∀ row ∈ t.mutedChats, t.HasUser row.userId
  pinnedMessages : ∀ row ∈ t.pinnedMessages, t.HasGroup row.groupId ∧ t.HasUser row.pinnedBy
  userVpnKeys : ∀ row ∈ t.userVpnKeys, t.HasUser row.userId
  vpnSessions : ∀ row ∈ t.vpnSessions, t.HasUser row.userId ∧ t.HasServer row.serverId
  emojiPacks : ∀ row ∈ t.emojiPacks, ∀ userId ∈ row.creatorId, t.HasUser userId
  emojis : ∀ row ∈ t.emojis, t.HasPack row.packId
  userEmojiPacks : ∀ row ∈ t.userEmojiPacks, t.HasUser row.userId ∧ t.HasPack row.packId

/-- The constraints of the migrations. -/
structure Integrity (t : Tables) : Prop where
  keys : Keys t
  references : References t

section

variable {t : Tables} {id : Uuid}

theorem parent_user : (∃ parent ∈ t.rows, schema.key parent = some (.user id)) ↔ t.HasUser id := by
  constructor
  · rintro ⟨parent, member, has⟩
    cases parent with
    | user row => exact ⟨row, member, Key.user.inj (Option.some.inj has)⟩
    | _ => cases has
  · rintro ⟨row, member, rfl⟩
    exact ⟨.user row, member, rfl⟩

theorem parent_device :
    (∃ parent ∈ t.rows, schema.key parent = some (.device id)) ↔ t.HasDevice id := by
  constructor
  · rintro ⟨parent, member, has⟩
    cases parent with
    | device row => exact ⟨row, member, Key.device.inj (Option.some.inj has)⟩
    | _ => cases has
  · rintro ⟨row, member, rfl⟩
    exact ⟨.device row, member, rfl⟩

theorem parent_group :
    (∃ parent ∈ t.rows, schema.key parent = some (.group id)) ↔ t.HasGroup id := by
  constructor
  · rintro ⟨parent, member, has⟩
    cases parent with
    | group row => exact ⟨row, member, Key.group.inj (Option.some.inj has)⟩
    | _ => cases has
  · rintro ⟨row, member, rfl⟩
    exact ⟨.group row, member, rfl⟩

theorem parent_vpnServer :
    (∃ parent ∈ t.rows, schema.key parent = some (.vpnServer id)) ↔ t.HasServer id := by
  constructor
  · rintro ⟨parent, member, has⟩
    cases parent with
    | vpnServer row => exact ⟨row, member, Key.vpnServer.inj (Option.some.inj has)⟩
    | _ => cases has
  · rintro ⟨row, member, rfl⟩
    exact ⟨.vpnServer row, member, rfl⟩

theorem parent_emojiPack :
    (∃ parent ∈ t.rows, schema.key parent = some (.emojiPack id)) ↔ t.HasPack id := by
  constructor
  · rintro ⟨parent, member, has⟩
    cases parent with
    | emojiPack row => exact ⟨row, member, Key.emojiPack.inj (Option.some.inj has)⟩
    | _ => cases has
  · rintro ⟨row, member, rfl⟩
    exact ⟨.emojiPack row, member, rfl⟩

/-- The row refers to rows that are there. -/
def Row.Intact (t : Tables) : Row → Prop
  | .user _ => True
  | .device row => t.HasUser row.userId
  | .preKey row => t.HasDevice row.deviceId
  | .loginAttempt row => ∀ userId ∈ row.userId, t.HasUser userId
  | .group row => t.HasUser row.creatorId
  | .groupMember row => t.HasGroup row.groupId ∧ t.HasUser row.userId
  | .contact row => t.HasUser row.userId ∧ t.HasUser row.contactUserId
  | .contactRequest row => t.HasUser row.fromUserId ∧ t.HasUser row.toUserId
  | .userSettings row => t.HasUser row.userId
  | .mutedChat row => t.HasUser row.userId
  | .pinnedMessage row => t.HasGroup row.groupId ∧ t.HasUser row.pinnedBy
  | .vpnServer _ => True
  | .userVpnKey row => t.HasUser row.userId
  | .vpnSession row => t.HasUser row.userId ∧ t.HasServer row.serverId
  | .emojiPack row => ∀ userId ∈ row.creatorId, t.HasUser userId
  | .emoji row => t.HasPack row.packId
  | .userEmojiPack row => t.HasUser row.userId ∧ t.HasPack row.packId

theorem intact_iff {row : Row} :
    (∀ ref ∈ row.refs, ∃ parent ∈ t.rows, schema.key parent = some ref.target) ↔ row.Intact t := by
  cases row <;>
    simp only [Row.refs, Row.Intact, List.forall_mem_cons, List.not_mem_nil, IsEmpty.forall_iff,
      implies_true, and_true, List.forall_mem_map, Option.mem_toList, Option.mem_def, parent_user,
      parent_device, parent_group, parent_vpnServer, parent_emojiPack]

theorem references_iff : References t ↔ schema.Consistent t.rows := by
  have each : schema.Consistent t.rows ↔ ∀ row ∈ t.rows, row.Intact t :=
    forall_congr' fun row => forall_congr' fun _ => intact_iff
  rw [each]
  constructor
  · intro holds row member
    cases row with
    | user row => trivial
    | device row => exact holds.devices row member
    | preKey row => exact holds.preKeys row member
    | loginAttempt row => exact holds.loginAttempts row member
    | group row => exact holds.groups row member
    | groupMember row => exact holds.groupMembers row member
    | contact row => exact holds.contacts row member
    | contactRequest row => exact holds.contactRequests row member
    | userSettings row => exact holds.userSettings row member
    | mutedChat row => exact holds.mutedChats row member
    | pinnedMessage row => exact holds.pinnedMessages row member
    | vpnServer row => trivial
    | userVpnKey row => exact holds.userVpnKeys row member
    | vpnSession row => exact holds.vpnSessions row member
    | emojiPack row => exact holds.emojiPacks row member
    | emoji row => exact holds.emojis row member
    | userEmojiPack row => exact holds.userEmojiPacks row member
  · intro holds
    exact
      { devices := fun row => holds (.device row)
        preKeys := fun row => holds (.preKey row)
        loginAttempts := fun row => holds (.loginAttempt row)
        groups := fun row => holds (.group row)
        groupMembers := fun row => holds (.groupMember row)
        contacts := fun row => holds (.contact row)
        contactRequests := fun row => holds (.contactRequest row)
        userSettings := fun row => holds (.userSettings row)
        mutedChats := fun row => holds (.mutedChat row)
        pinnedMessages := fun row => holds (.pinnedMessage row)
        userVpnKeys := fun row => holds (.userVpnKey row)
        vpnSessions := fun row => holds (.vpnSession row)
        emojiPacks := fun row => holds (.emojiPack row)
        emojis := fun row => holds (.emoji row)
        userEmojiPacks := fun row => holds (.userEmojiPack row) }

end

section

variable {t : Tables}

theorem References.withUsers {users : List User} (holds : References t)
    (still : ∀ id, t.HasUser id → ∃ row ∈ users, row.id = id) :
    References { t with users := users } where
  devices row member := still _ (holds.devices row member)
  preKeys := holds.preKeys
  loginAttempts row member userId held := still _ (holds.loginAttempts row member userId held)
  groups row member := still _ (holds.groups row member)
  groupMembers row member := (holds.groupMembers row member).imp_right (still _)
  contacts row member := (holds.contacts row member).imp (still _) (still _)
  contactRequests row member := (holds.contactRequests row member).imp (still _) (still _)
  userSettings row member := still _ (holds.userSettings row member)
  mutedChats row member := still _ (holds.mutedChats row member)
  pinnedMessages row member := (holds.pinnedMessages row member).imp_right (still _)
  userVpnKeys row member := still _ (holds.userVpnKeys row member)
  vpnSessions row member := (holds.vpnSessions row member).imp_left (still _)
  emojiPacks row member userId held := still _ (holds.emojiPacks row member userId held)
  emojis := holds.emojis
  userEmojiPacks row member := (holds.userEmojiPacks row member).imp_left (still _)

theorem References.withServers {servers : List VpnServer} (holds : References t)
    (still : ∀ id, t.HasServer id → ∃ row ∈ servers, row.id = id) :
    References { t with vpnServers := servers } :=
  { holds with
    vpnSessions := fun row member => (holds.vpnSessions row member).imp_right (still _) }

/-- An update of a user that leaves the constrained columns alone. -/
theorem Integrity.updateUser {userId : Uuid} {set : User → User} (holds : Integrity t)
    (id : ∀ row, (set row).id = row.id) (username : ∀ row, (set row).username = row.username)
    (phoneNumber : ∀ row, (set row).phoneNumber = row.phoneNumber) :
    Integrity (updateUser userId set t).2 := by
  unfold Db.updateUser
  split
  · exact
      { keys := { holds.keys with
          users := holds.keys.users.update id
          usernames := holds.keys.usernames.update username
          phoneNumbers := holds.keys.phoneNumbers.update phoneNumber }
        references := holds.references.withUsers fun _ => exists_mem_update id }
  · exact holds

end

/-- Whether it succeeds or not, the statement keeps all constraints. -/
def Preserves {α : Type} (statement : Statement α) : Prop :=
  ∀ t, Integrity t → Integrity (statement t).2

section

variable {α : Type} {userId deviceId groupId packId serverId id : Uuid} {now : Nat}

theorem preserves_createUser (user : User) : Preserves (createUser user) := by
  intro t holds
  unfold createUser
  split
  · exact holds
  · rename_i id
    split
    · exact holds
    · rename_i username
      split
      · exact holds
      · rename_i phoneNumber
        simp only [List.any_eq_true, decide_eq_true_eq, not_exists,
          not_and] at id username phoneNumber
        exact
          { keys := { holds.keys with
              users := holds.keys.users.append id
              usernames := holds.keys.usernames.append username
              phoneNumbers := holds.keys.phoneNumbers.append phoneNumber }
            references := holds.references.withUsers fun _ => exists_mem_concat }

theorem preserves_updateLastSeen : Preserves (updateLastSeen userId now) :=
  fun _ holds => holds.updateUser (fun _ => rfl) (fun _ => rfl) fun _ => rfl

theorem preserves_setDisplayName (displayName : String) :
    Preserves (setDisplayName userId displayName) :=
  fun _ holds => holds.updateUser (fun _ => rfl) (fun _ => rfl) fun _ => rfl

theorem preserves_setAvatar (avatarUrl : Option String) : Preserves (setAvatar userId avatarUrl) :=
  fun _ holds => holds.updateUser (fun _ => rfl) (fun _ => rfl) fun _ => rfl

theorem preserves_setStatus (status : String) : Preserves (setStatus userId status) :=
  fun _ holds => holds.updateUser (fun _ => rfl) (fun _ => rfl) fun _ => rfl

theorem preserves_enable2fa (secret : Crypto.Bytes) : Preserves (enable2fa userId secret) :=
  fun _ holds => holds.updateUser (fun _ => rfl) (fun _ => rfl) fun _ => rfl

theorem preserves_disable2fa : Preserves (disable2fa userId) :=
  fun _ holds => holds.updateUser (fun _ => rfl) (fun _ => rfl) fun _ => rfl

/-- A name that no other user has keeps the names apart, because no two users have one id. -/
theorem preserves_setUsername (username : String) : Preserves (setUsername userId username) := by
  intro t holds
  unfold setUsername updateUser
  split
  · exact holds
  · rename_i free
    split
    · rename_i there
      rw [there, Bool.true_and] at free
      have others :
          ∀ row ∈ t.users, row.id ≠ userId → row.username ≠ username := by simpa using free
      exact
        { keys := { holds.keys with
            users := holds.keys.users.update fun _ => rfl
            usernames := holds.keys.usernames.set holds.keys.users (fun _ => rfl) others
            phoneNumbers := holds.keys.phoneNumbers.update fun _ => rfl }
          references := holds.references.withUsers fun _ => exists_mem_update fun _ => rfl }
    · exact holds

/-- What goes with a user are filtered rows, and login attempts lose their user. -/
theorem preserves_deleteUser : Preserves (deleteUser userId) := by
  intro t holds
  unfold deleteUser
  split
  · rename_i there
    split
    · exact holds
    · rename_i free
      have there' : t.HasUser userId := by simpa using there
      have after : (deleteUser userId t).2 = t.withoutUser userId := by
        unfold deleteUser
        exact congrArg Prod.snd ((if_pos there).trans (if_neg free))
      have consistent := consistent_deleteUser there' (references_iff.mp holds.references)
      rw [after, ← references_iff] at consistent
      refine ⟨?_, consistent⟩
      have keys := holds.keys
      have serial : ∀ row ∈ t.loginAttempts, (if row.userId = some userId then
          { row with userId := none } else row).id ≤ t.loginAttemptSerial := by
        intro row member
        rw [apply_ite LoginAttempt.id, ite_self]
        exact keys.loginAttemptSerial row member
      exact
        { users := keys.users.filter _
          usernames := keys.usernames.filter _
          phoneNumbers := keys.phoneNumbers.filter _
          devices := keys.devices.filter _
          preKeys := keys.preKeys.filter _
          preKeySerial := forall_mem_filter keys.preKeySerial _
          loginAttempts := keys.loginAttempts.update fun _ => rfl
          loginAttemptSerial := forall_mem_map serial
          groups := keys.groups.filter _
          groupMembers := keys.groupMembers.filter _
          contacts := keys.contacts.filter _
          contactRequests := keys.contactRequests.filter _
          requestPairs := keys.requestPairs.filter _
          userSettings := keys.userSettings.filter _
          mutedChats := keys.mutedChats.filter _
          pinnedMessages := keys.pinnedMessages.filter _
          vpnServers := keys.vpnServers
          userVpnKeys := keys.userVpnKeys.filter _
          vpnSessions := keys.vpnSessions.filter _
          emojiPacks := keys.emojiPacks
          emojis := keys.emojis
          shortcodes := keys.shortcodes
          userEmojiPacks := keys.userEmojiPacks.filter _ }
  · exact holds

theorem preserves_registerDevice (device : Device) : Preserves (registerDevice device) := by
  intro t holds
  unfold registerDevice
  split
  · exact holds
  · rename_i fresh
    split
    · rename_i owner
      simp only [List.any_eq_true, decide_eq_true_eq, not_exists, not_and] at fresh owner
      exact
        { keys := { holds.keys with devices := holds.keys.devices.append fresh }
          references := { holds.references with
            devices := forall_mem_concat holds.references.devices owner
            preKeys := fun row member => exists_mem_concat (holds.references.preKeys row member) } }
    · exact holds

theorem preserves_setOnline (online : Bool) : Preserves (setOnline deviceId online now) := by
  intro t holds
  exact
    { keys := { holds.keys with devices := holds.keys.devices.update fun _ => rfl }
      references := { holds.references with
        devices := forall_mem_update holds.references.devices fun _ has => has
        preKeys := fun row member =>
          exists_mem_update (fun _ => rfl) (holds.references.preKeys row member) } }

theorem preserves_deleteDevice : Preserves (deleteDevice deviceId userId) := by
  intro t holds
  unfold deleteDevice
  split
  · have parents : ∀ row ∈ t.preKeys.filter (fun key => key.deviceId ≠ deviceId),
        ∃ device ∈ t.devices.filter (fun row => ¬ (row.id = deviceId ∧ row.userId = userId)),
          device.id = row.deviceId := by
      intro row member
      obtain ⟨there, other⟩ := List.mem_filter.mp member
      refine exists_mem_filter (holds.references.preKeys row there) fun device is => ?_
      rw [decide_eq_true_eq] at other ⊢
      exact fun deleted => other (is.symm.trans deleted.1)
    exact
      { keys := { holds.keys with
          devices := holds.keys.devices.filter _
          preKeys := holds.keys.preKeys.filter _
          preKeySerial := forall_mem_filter holds.keys.preKeySerial _ }
        references := { holds.references with
          devices := forall_mem_filter holds.references.devices _
          preKeys := parents } }
  · exact holds

theorem preserves_storePreKey (publicKey : Crypto.Bytes) :
    Preserves (storePreKey deviceId publicKey) := by
  intro t holds
  have serial : ∀ row ∈ t.preKeys, row.id ≤ t.preKeySerial + 1 :=
    fun row member => Nat.le_succ_of_le (holds.keys.preKeySerial row member)
  unfold storePreKey
  dsimp only
  split
  · rename_i device
    have fresh : ∀ row ∈ t.preKeys, row.id ≠ t.preKeySerial + 1 := by
      intro row member
      have below := holds.keys.preKeySerial row member
      omega
    exact
      { keys := { holds.keys with
          preKeys := holds.keys.preKeys.append fresh
          preKeySerial := forall_mem_concat serial (Nat.le_refl _) }
        references := { holds.references with
          preKeys := forall_mem_concat holds.references.preKeys (by simpa using device) } }
  · exact ⟨{ holds.keys with preKeySerial := serial }, { holds.references with }⟩

theorem preserves_usePreKey (key : Nat) : Preserves (usePreKey key) := by
  intro t holds
  have serial : ∀ row ∈ t.preKeys, (row.used key).id ≤ t.preKeySerial := by
    intro row member
    rw [PreKey.id_used]
    exact holds.keys.preKeySerial row member
  have parents : ∀ row ∈ t.preKeys, t.HasDevice (row.used key).deviceId := by
    intro row member
    rw [PreKey.deviceId_used]
    exact holds.references.preKeys row member
  exact
    { keys := { holds.keys with
        preKeys := holds.keys.preKeys.map fun _ => PreKey.id_used
        preKeySerial := forall_mem_map serial }
      references := { holds.references with preKeys := forall_mem_map parents } }

theorem preserves_recordAttempt (ipAddress : String) (user : Option Uuid) (success : Bool) :
    Preserves (recordAttempt ipAddress user success now) := by
  intro t holds
  have serial : ∀ row ∈ t.loginAttempts, row.id ≤ t.loginAttemptSerial + 1 :=
    fun row member => Nat.le_succ_of_le (holds.keys.loginAttemptSerial row member)
  unfold recordAttempt
  dsimp only
  split
  · rename_i there
    have fresh : ∀ row ∈ t.loginAttempts, row.id ≠ t.loginAttemptSerial + 1 := by
      intro row member
      have below := holds.keys.loginAttemptSerial row member
      omega
    have known : ∀ userId ∈ user, t.HasUser userId := by
      intro userId held
      rw [Option.mem_def.mp held] at there
      simpa using there
    exact
      { keys := { holds.keys with
          loginAttempts := holds.keys.loginAttempts.append fresh
          loginAttemptSerial := forall_mem_concat serial (Nat.le_refl _) }
        references := { holds.references with
          loginAttempts := forall_mem_concat holds.references.loginAttempts known } }
  · exact ⟨{ holds.keys with loginAttemptSerial := serial }, { holds.references with }⟩

theorem preserves_createGroup (name : String) (creatorId : Uuid) (isAnonymous : Bool) :
    Preserves (Groups.createGroup id name creatorId isAnonymous now) := by
  intro t holds
  unfold Groups.createGroup
  dsimp only
  split
  · exact holds
  · rename_i fresh
    split
    · rename_i creator
      simp only [List.any_eq_true, decide_eq_true_eq, not_exists, not_and] at fresh creator
      exact
        { keys := { holds.keys with groups := holds.keys.groups.append fresh }
          references := { holds.references with
            groups := forall_mem_concat holds.references.groups creator
            groupMembers := fun row member =>
              (holds.references.groupMembers row member).imp_left exists_mem_concat
            pinnedMessages := fun row member =>
              (holds.references.pinnedMessages row member).imp_left exists_mem_concat } }
    · exact holds

theorem preserves_addMember (role : String) :
    Preserves (Groups.addMember groupId userId role now) := by
  intro t holds
  unfold Groups.addMember
  dsimp only
  split
  · exact holds
  · rename_i fresh
    split
    · exact holds
    · rename_i group
      split
      · rename_i user
        exact
          { keys := { holds.keys
            with groupMembers := holds.keys.groupMembers.append (pair_ne_of_any fresh) }
            references := { holds.references with
              groupMembers := forall_mem_concat holds.references.groupMembers
                ⟨by simpa using group, by simpa using user⟩ } }
      · exact holds

theorem preserves_removeMember : Preserves (Groups.removeMember groupId userId) := by
  intro t holds
  exact
    { keys := { holds.keys with groupMembers := holds.keys.groupMembers.filter _ }
      references := { holds.references with
        groupMembers := forall_mem_filter holds.references.groupMembers _ } }

theorem preserves_deleteMembers : Preserves (Groups.deleteMembers groupId) := by
  intro t holds
  exact
    { keys := { holds.keys with groupMembers := holds.keys.groupMembers.filter _ }
      references := { holds.references with
        groupMembers := forall_mem_filter holds.references.groupMembers _ } }

theorem preserves_deleteRow : Preserves (Groups.deleteRow groupId) := by
  intro t holds
  have stays (id : Uuid) (other : id ≠ groupId) (has : t.HasGroup id) :
      ∃ group ∈ t.groups.filter (fun row => row.id ≠ groupId), group.id = id := by
    refine exists_mem_filter has fun old is => ?_
    rw [decide_eq_true_eq, is]
    exact other
  have members : ∀ row ∈ t.groupMembers.filter (fun row => row.groupId ≠ groupId),
      (∃ group ∈ t.groups.filter (fun row => row.id ≠ groupId), group.id = row.groupId) ∧
        t.HasUser row.userId := by
    intro row member
    obtain ⟨there, other⟩ := List.mem_filter.mp member
    exact (holds.references.groupMembers row there).imp_left (stays _ (of_decide_eq_true other))
  have pins : ∀ row ∈ t.pinnedMessages.filter (fun row => row.groupId ≠ groupId),
      (∃ group ∈ t.groups.filter (fun row => row.id ≠ groupId), group.id = row.groupId) ∧
        t.HasUser row.pinnedBy := by
    intro row member
    obtain ⟨there, other⟩ := List.mem_filter.mp member
    exact (holds.references.pinnedMessages row there).imp_left (stays _ (of_decide_eq_true other))
  exact
    { keys := { holds.keys with
        groups := holds.keys.groups.filter _
        groupMembers := holds.keys.groupMembers.filter _
        pinnedMessages := holds.keys.pinnedMessages.filter _ }
      references := { holds.references with
        groups := forall_mem_filter holds.references.groups _
        groupMembers := members
        pinnedMessages := pins } }

theorem preserves_updateGroupName (name : String) :
    Preserves (Groups.updateGroupName groupId name) := by
  intro t holds
  unfold Groups.updateGroupName
  split
  · exact
      { keys := { holds.keys with groups := holds.keys.groups.update fun _ => rfl }
        references := { holds.references with
          groups := forall_mem_update holds.references.groups fun _ has => has
          groupMembers := fun row member => (holds.references.groupMembers row member).imp_left
            (exists_mem_update fun _ => rfl)
          pinnedMessages := fun row member => (holds.references.pinnedMessages row member).imp_left
            (exists_mem_update fun _ => rfl) } }
  · exact holds

theorem preserves_pin (messageId : String) : Preserves (pin groupId messageId userId) := by
  intro t holds
  unfold pin
  split
  · exact holds
  · rename_i fresh
    split
    · rename_i group
      split
      · rename_i user
        exact
          { keys := { holds.keys with
              pinnedMessages := holds.keys.pinnedMessages.append (pair_ne_of_any fresh) }
            references := { holds.references with
              pinnedMessages := forall_mem_concat holds.references.pinnedMessages
                ⟨by simpa using group, by simpa using user⟩ } }
      · exact holds
    · exact holds

theorem preserves_unpin (messageId : String) : Preserves (unpin groupId messageId) := by
  intro t holds
  exact
    { keys := { holds.keys with pinnedMessages := holds.keys.pinnedMessages.filter _ }
      references := { holds.references with
        pinnedMessages := forall_mem_filter holds.references.pinnedMessages _ } }

theorem preserves_createPack (pack : EmojiPack) : Preserves (createPack pack) := by
  intro t holds
  unfold createPack
  split
  · exact holds
  · rename_i fresh
    split
    · rename_i creator
      simp only [List.any_eq_true, decide_eq_true_eq, not_exists, not_and] at fresh
      have known : ∀ userId ∈ pack.creatorId, t.HasUser userId := by
        intro userId held
        rw [Option.mem_def.mp held] at creator
        simpa using creator
      exact
        { keys := { holds.keys with emojiPacks := holds.keys.emojiPacks.append fresh }
          references := { holds.references with
            emojiPacks := forall_mem_concat holds.references.emojiPacks known
            emojis := fun row member => exists_mem_concat (holds.references.emojis row member)
            userEmojiPacks := fun row member =>
              (holds.references.userEmojiPacks row member).imp_right exists_mem_concat } }
    · exact holds

theorem preserves_addEmoji (shortcode : String) :
    Preserves (Emojis.addEmoji id packId shortcode) := by
  intro t holds
  unfold Emojis.addEmoji
  split
  · exact holds
  · rename_i freshId
    split
    · exact holds
    · rename_i fresh
      split
      · rename_i pack
        simp only [List.any_eq_true, decide_eq_true_eq, not_exists, not_and] at freshId
        exact
          { keys := { holds.keys with
              emojis := holds.keys.emojis.append freshId
              shortcodes := holds.keys.shortcodes.append (pair_ne_of_any fresh) }
            references := { holds.references with
              emojis := forall_mem_concat holds.references.emojis (by simpa using pack) } }
      · exact holds

theorem preserves_purchasePack : Preserves (Emojis.purchasePack userId packId) := by
  intro t holds
  unfold Emojis.purchasePack
  split
  · exact holds
  · rename_i fresh
    obtain ⟨user, inserts⟩ | ⟨-, fails⟩ := ifUser_cases t userId "user_emoji_packs_user_id_fkey" (if
        t.emojiPacks.any fun row => row.id = packId then
          (.ok (), { t with userEmojiPacks := t.userEmojiPacks ++ [⟨userId, packId⟩] })
        else (.error (.queryFailed "user_emoji_packs_pack_id_fkey"), t))
    · rw [inserts]
      split
      · rename_i pack
        exact
          { keys := { holds.keys
            with userEmojiPacks := holds.keys.userEmojiPacks.append (pair_ne_of_any fresh) }
            references := { holds.references with
              userEmojiPacks := forall_mem_concat holds.references.userEmojiPacks
                ⟨user, by simpa using pack⟩ } }
      · exact holds
    · rw [fails]
      exact holds

theorem preserves_insertSession (session : VpnSession) : Preserves (insertSession session) := by
  intro t holds
  unfold insertSession
  split
  · exact holds
  · rename_i fresh
    split
    · exact holds
    · rename_i user
      split
      · exact holds
      · rename_i server
        simp only [List.any_eq_true, decide_eq_true_eq, not_exists, not_and] at fresh
        exact
          { keys := { holds.keys with vpnSessions := holds.keys.vpnSessions.append fresh }
            references := { holds.references with
              vpnSessions := forall_mem_concat holds.references.vpnSessions
                ⟨by simpa using user, by simpa using server⟩ } }

theorem preserves_incrementConnections : Preserves (incrementConnections serverId) := by
  intro t holds
  exact
    { keys := { holds.keys with vpnServers := holds.keys.vpnServers.update fun _ => rfl }
      references := holds.references.withServers fun _ => exists_mem_update fun _ => rfl }

theorem preserves_markEnded : Preserves (markEnded id now) := by
  intro t holds
  unfold markEnded
  split
  · exact
      { keys := { holds.keys with vpnSessions := holds.keys.vpnSessions.update fun _ => rfl }
        references := { holds.references with
          vpnSessions := forall_mem_update holds.references.vpnSessions fun _ has => has } }
  · exact holds

theorem preserves_decrementConnections : Preserves (decrementConnections id) := by
  intro t holds
  exact
    { keys := { holds.keys with vpnServers := holds.keys.vpnServers.update fun _ => rfl }
      references := holds.references.withServers fun _ => exists_mem_update fun _ => rfl }

theorem preserves_storeVpnKeys (key : UserVpnKey) : Preserves (storeVpnKeys key) := by
  intro t holds
  unfold storeVpnKeys
  split
  · exact holds
  · rename_i user
    have user' : t.HasUser key.userId := by simpa using user
    split
    · have same : ∀ row : UserVpnKey,
          (if row.userId = key.userId then key else row).userId = row.userId := by
        intro row
        split
        · rename_i is
          exact is.symm
        · rfl
      have owners : ∀ row ∈ t.userVpnKeys,
          t.HasUser (if row.userId = key.userId then key else row).userId := by
        intro row member
        rw [same]
        exact holds.references.userVpnKeys row member
      exact
        { keys := { holds.keys with userVpnKeys := holds.keys.userVpnKeys.map same }
          references := { holds.references with userVpnKeys := forall_mem_map owners } }
    · rename_i fresh
      simp only [List.any_eq_true, decide_eq_true_eq, not_exists, not_and] at fresh
      exact
        { keys := { holds.keys with userVpnKeys := holds.keys.userVpnKeys.append fresh }
          references := { holds.references with
            userVpnKeys := forall_mem_concat holds.references.userVpnKeys user' } }

theorem preserves_insert {t : Tables} {contact : Contact} (holds : Integrity t)
    (fresh : ¬ (t.contacts.any fun row =>
    Contacts.Is contact.userId contact.contactUserId row) = true) :
    Integrity (Contacts.insert contact t).2 := by
  unfold Contacts.insert
  obtain ⟨user, inserts⟩ | ⟨-, fails⟩ := ifUser_cases t contact.userId "contacts_user_id_fkey"
    (ifUser t contact.contactUserId "contacts_contact_user_id_fkey"
      (.ok contact, { t with contacts := t.contacts ++ [contact] }))
  · rw [inserts]
    obtain ⟨other, inserts⟩ | ⟨-, fails⟩ := ifUser_cases t contact.contactUserId
      "contacts_contact_user_id_fkey" (.ok contact, { t with contacts := t.contacts ++ [contact] })
    · rw [inserts]
      exact
        { keys := { holds.keys with contacts := holds.keys.contacts.append (pair_ne_of_any fresh) }
          references := { holds.references with
            contacts := forall_mem_concat holds.references.contacts ⟨user, other⟩ } }
    · rw [fails]
      exact holds
  · rw [fails]
    exact holds

theorem preserves_addContact {contactUserId : Uuid} :
    Preserves (Contacts.addContact userId contactUserId now) := by
  intro t holds
  unfold Contacts.addContact
  split
  · exact holds
  · rename_i fresh
    exact preserves_insert holds fresh

theorem integrity_changed {t : Tables} {contactUserId : Uuid} {set : Contact → Contact}
    (holds : Integrity t)
    (kept : ∀ row, ((set row).userId, (set row).contactUserId) = (row.userId, row.contactUserId)) :
    Integrity (Contacts.changed t userId contactUserId set) := by
  have parents (row : Contact) (has : t.HasUser row.userId ∧ t.HasUser row.contactUserId) :
      t.HasUser (set row).userId ∧ t.HasUser (set row).contactUserId := by
    obtain ⟨user, contact⟩ := Prod.mk.inj (kept row)
    rw [user, contact]
    exact has
  exact
    { keys := { holds.keys with contacts := holds.keys.contacts.update kept }
      references := { holds.references with
        contacts := forall_mem_update holds.references.contacts parents } }

theorem preserves_updateContact {contactUserId : Uuid} {set : Contact → Contact}
    (kept : ∀ row, ((set row).userId, (set row).contactUserId) = (row.userId, row.contactUserId)) :
    Preserves (Contacts.updateContact userId contactUserId set) := by
  intro t holds
  unfold Contacts.updateContact
  split
  · exact integrity_changed holds kept
  · exact holds

theorem preserves_setNickname {contactUserId : Uuid} (nickname : Option String) :
    Preserves (Contacts.setNickname userId contactUserId nickname) :=
  preserves_updateContact fun _ => rfl

theorem preserves_unblockContact {contactUserId : Uuid} :
    Preserves (Contacts.unblockContact userId contactUserId) := preserves_updateContact fun _ => rfl

theorem preserves_blockContact {contactUserId : Uuid} :
    Preserves (Contacts.blockContact userId contactUserId now) := by
  intro t holds
  unfold Contacts.blockContact
  split
  · exact integrity_changed holds fun _ => rfl
  · rename_i fresh
    exact @preserves_insert t ⟨userId, contactUserId, none, true, now⟩ holds fresh

theorem preserves_removeContact {contactUserId : Uuid} :
    Preserves (Contacts.removeContact userId contactUserId) := by
  intro t holds
  unfold Contacts.removeContact
  split
  · exact
      { keys := { holds.keys with contacts := holds.keys.contacts.filter _ }
        references := { holds.references with
          contacts := forall_mem_filter holds.references.contacts _ } }
  · exact holds

theorem preserves_sendRequest {fromUserId toUserId : Uuid} :
    Preserves (ContactRequests.sendRequest id fromUserId toUserId now) := by
  intro t holds
  let request : ContactRequest := ⟨id, fromUserId, toUserId, now⟩
  unfold ContactRequests.sendRequest
  dsimp only
  split
  · exact holds
  · rename_i freshId
    split
    · exact holds
    · rename_i fresh
      simp only [List.any_eq_true, decide_eq_true_eq, not_exists, not_and] at freshId
      obtain ⟨sender, inserts⟩ | ⟨-, fails⟩ := ifUser_cases t fromUserId
        "contact_requests_from_user_id_fkey"
        (ifUser t toUserId "contact_requests_to_user_id_fkey"
          (.ok request, { t with contactRequests := t.contactRequests ++ [request] }))
      · rw [inserts]
        obtain ⟨receiver, inserts⟩ | ⟨-, fails⟩ := ifUser_cases t toUserId
          "contact_requests_to_user_id_fkey"
          (.ok request, { t with contactRequests := t.contactRequests ++ [request] })
        · rw [inserts]
          exact
            { keys := { holds.keys with
                contactRequests := holds.keys.contactRequests.append freshId
                requestPairs := holds.keys.requestPairs.append (pair_ne_of_any fresh) }
              references := { holds.references with
                contactRequests :=
                  forall_mem_concat holds.references.contactRequests ⟨sender, receiver⟩ } }
        · rw [fails]
          exact holds
      · rw [fails]
        exact holds

theorem integrity_dropped {t : Tables} (holds : Integrity t) :
    Integrity (ContactRequests.dropped t id userId) :=
  { keys := { holds.keys with
      contactRequests := holds.keys.contactRequests.filter _
      requestPairs := holds.keys.requestPairs.filter _ }
    references := { holds.references with
      contactRequests := forall_mem_filter holds.references.contactRequests _ } }

theorem preserves_ensure : Preserves (Settings.ensure userId) := by
  intro t holds
  unfold Settings.ensure
  split
  · exact holds
  · rename_i fresh
    simp only [List.any_eq_true, decide_eq_true_eq, not_exists, not_and] at fresh
    obtain ⟨user, inserts⟩ | ⟨-, fails⟩ := ifUser_cases t userId "user_settings_user_id_fkey"
      (.ok (), { t with userSettings := t.userSettings ++ [⟨userId, true, true, true⟩] })
    · rw [inserts]
      exact
        { keys := { holds.keys with userSettings := holds.keys.userSettings.append fresh }
          references := { holds.references with
            userSettings := forall_mem_concat holds.references.userSettings user } }
    · rw [fails]
      exact holds

theorem preserves_update {set : UserSettings → UserSettings}
    (kept : ∀ row, (set row).userId = row.userId) : Preserves (Settings.update userId set) := by
  intro t holds
  have owners (row : UserSettings) (has : t.HasUser row.userId) : t.HasUser (set row).userId := by
    rw [kept]
    exact has
  exact
    { keys := { holds.keys with userSettings := holds.keys.userSettings.update kept }
      references := { holds.references with
        userSettings := forall_mem_update holds.references.userSettings owners } }

theorem preserves_setReadReceipts (enabled : Bool) :
    Preserves (Settings.setReadReceipts userId enabled) := preserves_update fun _ => rfl

theorem preserves_setTypingIndicators (enabled : Bool) :
    Preserves (Settings.setTypingIndicators userId enabled) := preserves_update fun _ => rfl

theorem preserves_setLastActiveVisible (visible : Bool) :
    Preserves (Settings.setLastActiveVisible userId visible) := preserves_update fun _ => rfl

theorem preserves_muteChat {targetId : Uuid} :
    Preserves (Settings.muteChat userId targetId now) := by
  intro t holds
  unfold Settings.muteChat
  split
  · exact holds
  · rename_i fresh
    obtain ⟨user, inserts⟩ | ⟨-, fails⟩ := ifUser_cases t userId "muted_chats_user_id_fkey"
      (.ok (), { t with mutedChats := t.mutedChats ++ [⟨userId, targetId, now⟩] })
    · rw [inserts]
      exact
        { keys :=
          { holds.keys with mutedChats := holds.keys.mutedChats.append (pair_ne_of_any fresh) }
          references := { holds.references with
            mutedChats := forall_mem_concat holds.references.mutedChats user } }
    · rw [fails]
      exact holds

theorem preserves_unmuteChat {targetId : Uuid} :
    Preserves (Settings.unmuteChat userId targetId) := by
  intro t holds
  exact
    { keys := { holds.keys with mutedChats := holds.keys.mutedChats.filter _ }
      references := { holds.references with
        mutedChats := forall_mem_filter holds.references.mutedChats _ } }

end

end Hysj.Db
