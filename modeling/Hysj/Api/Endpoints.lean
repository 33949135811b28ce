import Hysj.Api.AccountDeletion
import Hysj.Api.Contacts
import Hysj.Api.Deliveries
import Hysj.Api.GroupAuthority
import Hysj.Api.PreKeyLimit
import Hysj.Api.TwoFactor
import Hysj.Api.Usernames
import Hysj.Api.VpnCapacity
import Hysj.Db.Writes

set_option autoImplicit false

/- All endpoints that change tables, in any order of their statements, and what each of them may
change. -/
namespace Hysj.Api

open Crypto Shared Auth Messaging Program

/-- The tables are left alone. -/
abbrev SameTables (s s' : Server) : Prop := s'.db = s.db

/-- What is told of the answer of an endpoint. -/
inductive Reply where
  | connected (result : Except HysjError VpnConnectResponse)
  | other

inductive Endpoint where
  | register (headers : HeaderMap) (request : RegisterRequest)
  | login (headers : HeaderMap) (request : LoginRequest)
  | refresh (request : RefreshRequest)
  | setup2fa (auth : AuthUser)
  | verify2fa (auth : AuthUser) (request : TwoFactorVerifyRequest)
  | disable2fa (auth : AuthUser) (request : TwoFactorVerifyRequest)
  | setUsername (auth : AuthUser) (request : SetUsernameRequest)
  | setDisplayName (auth : AuthUser) (request : SetDisplayNameRequest)
  | setAvatar (auth : AuthUser) (request : SetAvatarRequest)
  | setUserStatus (auth : AuthUser) (request : SetStatusRequest)
  | deleteDevice (auth : AuthUser) (deviceId : Uuid)
  | replenish (auth : AuthUser) (request : ReplenishPreKeysRequest)
  | fetchBundle (auth : AuthUser) (userId : Uuid)
  /-- the deletion of an account is one of these -/
  | group (auth : AuthUser) (request : GroupRequest)
  | connect (auth : AuthUser) (request : VpnConnectRequest)
  | disconnect (auth : AuthUser)
  | createPack (auth : AuthUser) (request : CreateEmojiPackRequest)
  | addEmoji (auth : AuthUser) (packId : Uuid) (request : AddEmojiRequest)
  | purchasePack (auth : AuthUser) (packId : Uuid)
  | contact (auth : AuthUser) (call : ContactCall)
  | updateSettings (auth : AuthUser) (request : UpdateSettingsRequest)
  | mute (auth : AuthUser) (request : MuteChatRequest)
  | arrive (deviceId : Uuid) (socket : SocketId) (pages : Nat)
  | leave (deviceId : Uuid) (socket : SocketId)
  | receive (userId senderDeviceId : Uuid) (text : String)
  /-- any that only reads -/
  | other (program : Program Chance Server Reply) (same : Keeps SameTables program)

/-- What the keys of a user are to be: a secret that the server can decrypt, and its public key. -/
def Paired (p : Primitives) (b64 : Base64Engine) (seed : ByteArr 32) (key : Db.UserVpnKey) : Prop :=
  ∃ secret : ByteArr 32, key.publicKey = b64.encode (p.x25519Public secret).toList ∧
    ∃ nonce, Cipher.encrypt p nonce (strBytes (b64.encode secret.toList)) (vpnEncryptionKey p seed)
      key.userId.toList = .ok key.privateKeyEncrypted

/-- What a request of a user may do to contacts and contact requests. -/
inductive ContactCall.May (userId : Uuid) : ContactCall → Db.ContactWrite → Prop where
  | add {v : Uuid} (now : Nat) (other : userId ≠ v) : May userId (.add v) (.add userId v now)
  | remove {v : Uuid} : May userId (.remove v) (.remove userId v)
  | rename {v : Uuid} {request : SetNicknameRequest} :
      May userId (.nickname v request) (.rename userId v request.nickname)
  | block {v : Uuid} (now : Nat) : May userId (.block v) (.block userId v now)
  | unblock {v : Uuid} : May userId (.unblock v) (.unblock userId v)
  | send {v : Uuid} (id : Uuid) (now : Nat) (other : userId ≠ v) :
      May userId (.send v) (.send id userId v now)
  | accept {id : Uuid} : May userId (.accept id) (.take id userId)
  | accepted {id : Uuid} (v : Uuid) (now : Nat) : May userId (.accept id) (.add userId v now)
  | both {id : Uuid} (v : Uuid) (now : Nat) : May userId (.accept id) (.add v userId now)
  | reject {id : Uuid} : May userId (.reject id) (.take id userId)

/-- What the server rests on, and how it is configured. -/
structure Platform where
  primitives : Primitives
  jwt : Jwt
  argon2 : Argon2
  base64 : Base64Engine
  totp : Totp
  config : AppConfig
  certSigningSeed : ByteArr 32
  chrono : Chrono
  serde : SerdeJson

def Platform.sample : Platform :=
  ⟨.sample, .sample, .sample, .sample, .sample, ⟨none, "secret"⟩, .replicate 32 0, .sample, .sample⟩

/-- What an endpoint may do beside plain changes. -/
inductive Endpoint.Special (x : Platform) : Endpoint → Db.Write → Prop where
  | contact {auth : AuthUser} {call : ContactCall} {write : Db.ContactWrite}
      (may : call.May auth.userId write) : Special x (.contact auth call) (.contact write)
  | deleteAccount {auth : AuthUser} :
      Special x (.group auth .deleteAccount) (.deleteUser auth.userId)
  | storeKeys {auth : AuthUser} {request : VpnConnectRequest} {key : Db.UserVpnKey}
      (paired : Paired x.primitives x.base64 x.certSigningSeed key) :
      Special x (.connect auth request) (.storeVpnKeys key)

/-- What an endpoint may do to the tables. -/
def Endpoint.May (x : Platform) (call : Endpoint) (write : Db.Write) : Prop :=
  write.Plain ∨ call.Special x write

/-- The tables are left alone, or one of the changes is made. -/
def Writes (may : Db.Write → Prop) (s s' : Server) : Prop :=
  s'.db = s.db ∨ ∃ write, may write ∧ s'.db = write.apply s.db

def Endpoint.program (x : Platform) : Endpoint → Program Chance Server Reply
  | .register headers request =>
      (fun _ => .other) <$> (Api.register x.jwt x.argon2 x.base64 x.config headers request).run
  | .login headers request =>
      (fun _ => .other) <$> (Api.login x.jwt x.argon2 x.config headers request).run
  | .refresh request => (fun _ => .other) <$> (Api.refresh x.jwt x.config request).run
  | .setup2fa auth => (fun _ => .other) <$> (Api.setup2fa x.totp auth).run
  | .verify2fa auth request => (fun _ => .other) <$> (Api.verify2fa x.totp auth request).run
  | .disable2fa auth request => (fun _ => .other) <$> (Api.disable2fa x.totp auth request).run
  | .setUsername auth request => (fun _ => .other) <$> (Api.setUsername auth request).run
  | .setDisplayName auth request => (fun _ => .other) <$> (Api.setDisplayName auth request).run
  | .setAvatar auth request => (fun _ => .other) <$> (Api.setAvatar auth request).run
  | .setUserStatus auth request => (fun _ => .other) <$> (Api.setUserStatus auth request).run
  | .deleteDevice auth deviceId => (fun _ => .other) <$> (Api.deleteDevice auth deviceId).run
  | .replenish auth request =>
      (fun _ => .other) <$> (Keys.replenishPreKeys x.base64 auth request).run
  | .fetchBundle auth userId => (fun _ => .other) <$> (Keys.fetchBundle x.base64 auth userId).run
  | .group auth request => (fun _ => .other) <$> (request.handle auth).run
  | .connect auth request =>
      .connected <$> (Vpn.connect x.primitives x.base64 x.certSigningSeed auth request).run
  | .disconnect auth => (fun _ => .other) <$> (Vpn.disconnect auth).run
  | .createPack auth request => (fun _ => .other) <$> (Api.createPack auth request).run
  | .addEmoji auth packId request => (fun _ => .other) <$> (Emojis.addEmoji auth packId request).run
  | .purchasePack auth packId => (fun _ => .other) <$> (Emojis.purchasePack auth packId).run
  | .contact auth call => (fun _ => .other) <$> (call.handle auth).run
  | .updateSettings auth request => (fun _ => .other) <$> (Settings.updateSettings auth request).run
  | .mute auth request => (fun _ => .other) <$> (Settings.muteChat auth request).run
  | .arrive deviceId socket pages =>
      (fun _ => .other) <$> arriveSocket x.chrono x.serde deviceId socket pages
  | .leave deviceId socket => (fun _ => .other) <$> leaveSocket deviceId socket
  | .receive userId sender text =>
      (fun _ => .other) <$> receiveText x.config x.chrono x.serde userId sender text
  | .other program _ => program

section

variable {ε α β : Type} {may : Db.Write → Prop} {s s' : Server}

theorem writes_refl (s : Server) : Writes may s s := Or.inl rfl

theorem Writes.mono {wider : Db.Write → Prop} (widens : ∀ write, may write → wider write)
    (writes : Writes may s s') : Writes wider s s' :=
  writes.imp_right fun ⟨write, allowed, same⟩ => ⟨write, widens write allowed, same⟩

theorem writes_query {statement : Nat → Db.Statement α} (write : Nat → Db.Write)
    (is : ∀ now t, (statement now t).2 = (write now).apply t) (allowed : ∀ now, may (write now)) :
    Keeps (Writes may) (query statement).run :=
  keeps_query writes_refl fun s => Or.inr ⟨write s.redis.now, allowed _, is _ _⟩

theorem writes_read {statement : Nat → Db.Statement α} (reads : ∀ now t, (statement now t).2 = t) :
    Keeps (Writes may) (query statement).run :=
  keeps_query writes_refl fun _ => Or.inl (reads _ _)

theorem writes_adapted {f : DbError → ε} {statement : Nat → Db.Statement α} (write : Nat → Db.Write)
    (is : ∀ now t, (statement now t).2 = (write now).apply t) (allowed : ∀ now, may (write now)) :
    Keeps (Writes may) (ExceptT.adapt f (query statement)).run :=
  (writes_query write is allowed).adapt

theorem writes_found {f : DbError → ε} {statement : Nat → Db.Statement α}
    (reads : ∀ now t, (statement now t).2 = t) :
    Keeps (Writes may) (ExceptT.adapt f (query statement)).run := (writes_read reads).adapt

theorem keeps_ofResult_bind {G : Server → Server → Prop} {result : Except ε α} {f : α → Task ε β}
    (rest : ∀ a, result = .ok a → Keeps G (f a).run) : Keeps G (ofResult result >>= f).run := by
  cases result with
  | error e => exact keeps_pure _
  | ok a => exact rest a rfl

variable {jwt : Jwt} {argon2 : Argon2} {b64 : Base64Engine} {totp : Totp} {config : AppConfig}
variable {p : Primitives} {seed : ByteArr 32} {chrono : Chrono}
    {serde : SerdeJson} {auth : AuthUser}
variable {x : Platform}

abbrev Plainly (t : Program Chance Server α) : Prop := Keeps (Writes Db.Write.Plain) t

theorem plainly_registerWrites : RegisterWrites (Writes Db.Write.Plain) where
  refl := writes_refl
  limit _ _ := Or.inl rfl
  user _ user := Or.inr ⟨.createUser user, trivial, rfl⟩
  device _ device := Or.inr ⟨.registerDevice device, trivial, rfl⟩
  preKey _ d key := Or.inr ⟨.storePreKey d key, trivial, rfl⟩

theorem plainly_loginWrites : LoginWrites (Writes Db.Write.Plain) where
  refl := writes_refl
  limit _ _ := Or.inl rfl
  attempt _ ip u success now := Or.inr ⟨.recordAttempt ip u success now, trivial, rfl⟩
  seen _ u now := Or.inr ⟨.updateLastSeen u now, trivial, rfl⟩

theorem plainly_fetchWrites : FetchWrites (Writes Db.Write.Plain) where
  refl := writes_refl
  limit _ _ := Or.inl rfl
  lock _ ids := Or.inr ⟨.locks ids, trivial, rfl⟩
  use _ id := Or.inr ⟨.usePreKey id, trivial, rfl⟩

theorem plainly_setup2fa : Plainly (setup2fa totp auth).run := by
  refine Keeps.run_bind (keeps_random writes_refl) fun random => ?_
  dsimp only
  split
  · trivial
  · refine Keeps.run_bind (writes_adapted (fun _ => .enable2fa auth.userId
      (strBytes (totp.generateSecret random))) (fun _ _ => rfl)
      fun _ => trivial) fun _ => keeps_pure _

theorem plainly_checkCode {missing : String} {request : TwoFactorVerifyRequest} :
    Plainly (checkCode totp missing auth request).run := by
  refine Keeps.run_bind (writes_found fun _ _ => rfl) fun user => ?_
  split
  · exact keeps_pure _
  · split
    · exact keeps_pure _
    · split
      · exact keeps_pure _
      · refine Keeps.run_bind (keeps_timestamp writes_refl) fun now => ?_
        refine Keeps.run_bind (keeps_ofResult _) fun right => ?_
        split
        · exact keeps_pure _
        · exact keeps_pure _

theorem plainly_disable2fa {request : TwoFactorVerifyRequest} :
    Plainly (disable2fa totp auth request).run := by
  refine Keeps.run_bind plainly_checkCode fun _ => ?_
  refine Keeps.run_bind (writes_adapted (fun _ => .disable2fa auth.userId) (fun _ _ => rfl)
    fun _ => trivial) fun _ => keeps_pure _

theorem plainly_setUsername {request : SetUsernameRequest} :
    Plainly (setUsername auth request).run := by
  unfold setUsername
  split
  · exact keeps_pure _
  · refine Keeps.run_bind
      (writes_adapted (fun _ => .setUsername auth.userId request.username) (fun _ _ => rfl)
      fun _ => trivial) fun _ => keeps_pure _

theorem plainly_setDisplayName {request : SetDisplayNameRequest} :
    Plainly (setDisplayName auth request).run := by
  unfold setDisplayName
  split
  · exact keeps_pure _
  · exact Keeps.run_bind (writes_adapted (fun _ => .setDisplayName auth.userId request.displayName)
      (fun _ _ => rfl) fun _ => trivial) fun _ => keeps_pure _

theorem plainly_setAvatar {request : SetAvatarRequest} : Plainly (setAvatar auth request).run := by
  unfold setAvatar
  split
  · exact keeps_pure _
  · exact Keeps.run_bind (writes_adapted (fun _ => .setAvatar auth.userId request.avatarUrl)
      (fun _ _ => rfl) fun _ => trivial) fun _ => keeps_pure _

theorem plainly_setUserStatus {request : SetStatusRequest} :
    Plainly (setUserStatus auth request).run := by
  unfold setUserStatus
  split
  · exact Keeps.run_bind (writes_adapted (fun _ => .setStatus auth.userId request.status)
      (fun _ _ => rfl) fun _ => trivial) fun _ => keeps_pure _
  · exact keeps_pure _

theorem plainly_deleteDevice {d : Uuid} : Plainly (deleteDevice auth d).run := by
  apply keeps_deleteDevice writes_refl
  · exact fun _ _ => Or.inr ⟨.deleteDevice d auth.userId, trivial, rfl⟩
  · exact fun _ => Or.inl rfl

theorem plainly_buildGroupResponse {groupId : Uuid} :
    Plainly (Groups.buildGroupResponse groupId).run :=
  keeps_buildGroupResponse.mono fun _ _ same => Or.inl (congrArg Server.db same.symm)

theorem plainly_requireAdmin {groupId : Uuid} {forbidden : String} :
    Plainly (Groups.requireAdmin auth groupId forbidden).run := by
  refine Keeps.run_bind (writes_found fun _ _ => rfl) fun role => ?_
  split
  · split
    · exact keeps_pure _
    · exact keeps_pure _
  · exact keeps_pure _

theorem plainly_addMember {groupId userId : Uuid} {role : String} :
    Plainly (ExceptT.adapt HysjError.ofDb
      (query fun now => Db.Groups.addMember groupId userId role now)).run :=
  writes_adapted (fun now => .addMember groupId userId role now) (fun _ _ => rfl) fun _ => trivial

theorem plainly_removeMember {groupId userId : Uuid} :
    Plainly (ExceptT.adapt HysjError.ofDb
    (query fun _ => Db.Groups.removeMember groupId userId)).run :=
  writes_adapted (fun _ => .removeMember groupId userId) (fun _ _ => rfl) fun _ => trivial

theorem plainly_createGroup {request : CreateGroupRequest} :
    Plainly (Groups.createGroup auth request).run := by
  refine Keeps.run_bind (keeps_ofResult _) fun _ => ?_
  refine Keeps.run_bind (keeps_random writes_refl) fun id => ?_
  refine Keeps.run_bind (writes_adapted
    (fun now => .createGroup id request.name auth.userId request.isAnonymous now) (fun _ _ => rfl)
    fun _ => trivial) fun group => ?_
  refine Keeps.run_bind plainly_addMember fun admin => ?_
  refine Keeps.run_bind (Keeps.run_forM fun memberId _ => ?_) fun _ => plainly_buildGroupResponse
  unfold Groups.addNamed
  split
  · exact Keeps.run_bind plainly_addMember fun member => keeps_pure _
  · exact keeps_pure _

theorem plainly_deleteGroup {groupId : Uuid} : Plainly (Groups.deleteGroup auth groupId).run := by
  refine Keeps.run_bind plainly_requireAdmin fun _ => ?_
  refine Keeps.run_bind (Keeps.adapt ?_) fun deleted => ?_
  · refine Keeps.run_bind (writes_query (fun _ => .deleteMembers groupId) ?_ ?_) fun _ =>
      writes_query (fun _ => .deleteRow groupId) ?_ ?_
    · exact fun _ _ => rfl
    · exact fun _ => trivial
    · exact fun _ _ => rfl
    · exact fun _ => trivial
  · split
    · exact keeps_pure _
    · exact keeps_pure _

theorem plainly_updateGroup {groupId : Uuid} {request : UpdateGroupNameRequest} :
    Plainly (Groups.updateGroup auth groupId request).run := by
  refine Keeps.run_bind (keeps_ofResult _) fun _ => ?_
  refine Keeps.run_bind plainly_requireAdmin fun _ => ?_
  refine Keeps.run_bind
    (writes_adapted (fun _ => .updateGroupName groupId request.name) (fun _ _ => rfl)
    fun _ => trivial) fun _ => keeps_pure _

/-- Of these requests only the deletion of the account is no plain change. -/
theorem writes_group {request : GroupRequest} :
    Keeps (Writes (Endpoint.May x (.group auth request))) (request.handle auth).run := by
  have plain {α : Type} {t : Program Chance Server α} (plainly : Plainly t) :
      Keeps (Writes (Endpoint.May x (.group auth request))) t :=
    plainly.mono fun _ _ writes => writes.mono fun _ => Or.inl
  have reads {α : Type} {t : Program Chance Server α} (same : Keeps Eq t) : Plainly t :=
    same.mono fun _ _ same => Or.inl (congrArg Server.db same.symm)
  cases request with
  | createGroup request => exact plain (Keeps.run_bind plainly_createGroup fun _ => keeps_pure _)
  | listGroups pagination =>
      exact plain (Keeps.run_bind (reads keeps_listGroups) fun _ => keeps_pure _)
  | getGroup groupId => exact plain (Keeps.run_bind (reads keeps_getGroup) fun _ => keeps_pure _)
  | addMember groupId request =>
      refine plain (Keeps.run_bind ?_ fun _ => keeps_pure _)
      refine Keeps.run_bind plainly_requireAdmin fun _ => ?_
      exact Keeps.run_bind plainly_addMember fun _ => keeps_pure _
  | removeMember groupId userId =>
      refine plain (Keeps.run_bind ?_ fun _ => keeps_pure _)
      refine Keeps.run_bind plainly_requireAdmin fun _ => ?_
      split
      · exact keeps_pure _
      · refine Keeps.run_bind plainly_removeMember fun removed => ?_
        split
        · exact keeps_pure _
        · exact keeps_pure _
  | leaveGroup groupId =>
      refine plain (Keeps.run_bind ?_ fun _ => keeps_pure _)
      refine Keeps.run_bind plainly_removeMember fun removed => ?_
      split
      · exact keeps_pure _
      · exact keeps_pure _
  | deleteGroup groupId => exact plain (Keeps.run_bind plainly_deleteGroup fun _ => keeps_pure _)
  | updateGroup groupId request =>
      exact plain (Keeps.run_bind plainly_updateGroup fun _ => keeps_pure _)
  | deleteAccount =>
      refine Keeps.run_bind ?_ fun _ => keeps_pure _
      refine Keeps.run_bind (writes_adapted (fun _ => .deleteUser auth.userId) (fun _ _ => rfl)
        fun _ => Or.inr .deleteAccount) fun _ => keeps_pure _

theorem plainly_endSession {sessionId : Uuid} : Plainly (endSession sessionId).run := by
  refine Keeps.run_bind (writes_query (fun now => .markEnded sessionId now) (fun _ _ => rfl)
    fun _ => trivial) fun _ => ?_
  exact writes_query (fun _ => .decrementConnections sessionId) (fun _ _ => rfl) fun _ => trivial

theorem plainly_endExisting {userId : Uuid} : Plainly (endExisting userId).run := by
  refine Keeps.run_bind (writes_found fun _ _ => rfl) fun existing => ?_
  split
  · exact plainly_endSession.adapt
  · exact keeps_pure _

theorem plainly_disconnect : Plainly (Vpn.disconnect auth).run := by
  refine Keeps.run_bind (writes_found fun _ _ => rfl) fun session => ?_
  split
  · exact keeps_pure _
  · exact Keeps.run_bind plainly_endSession.adapt fun _ => keeps_pure _

theorem plainly_createSession {userId serverId : Uuid} {clientPublicKey assignedIp : String} :
    Plainly (createSession userId serverId clientPublicKey assignedIp).run := by
  refine Keeps.run_bind (keeps_random writes_refl) fun id => ?_
  refine Keeps.run_bind (writes_query (fun now => .insertSession
    ⟨id, userId, serverId, clientPublicKey, assignedIp, now, none, 0, 0⟩) (fun _ _ => rfl)
    fun _ => trivial) fun session => ?_
  refine Keeps.run_bind (writes_query (fun _ => .incrementConnections serverId) (fun _ _ => rfl)
    fun _ => trivial) fun _ => keeps_pure _

theorem writes_vpnKeys {userId : Uuid}
    (stores : ∀ key, Paired p b64 seed key → may (.storeVpnKeys key)) :
    Keeps (Writes may) (vpnKeys p b64 seed userId).run := by
  refine Keeps.run_bind (writes_found fun _ _ => rfl) fun found => ?_
  cases found with
  | some existing =>
      refine Keeps.run_bind (keeps_ofResult _) fun decrypted => ?_
      split
      · exact keeps_pure _
      · exact keeps_pure _
  | none =>
      refine Keeps.run_bind (keeps_randomBytes writes_refl).1 fun secret => ?_
      refine Keeps.run_bind (keeps_randomBytes writes_refl).2 fun nonce => ?_
      refine keeps_ofResult_bind fun encrypted encrypts => ?_
      refine Keeps.run_bind (writes_adapted (fun now => .storeVpnKeys
        ⟨userId, (Vpn.generateKeypair p b64 secret).2, encrypted, now⟩)
        (fun _ _ => rfl) fun now => ?_)
        fun _ => keeps_pure _
      exact stores _ ⟨secret, rfl, nonce, Result.mapError_eq_ok.mp encrypts⟩

theorem writes_connect {request : VpnConnectRequest} :
    Keeps (Writes (Endpoint.May x (.connect auth request)))
      (Vpn.connect x.primitives x.base64 x.certSigningSeed auth request).run := by
  have plain {α : Type} {t : Program Chance Server α} (plainly : Plainly t) :
      Keeps (Writes (Endpoint.May x (.connect auth request))) t :=
    plainly.mono fun _ _ writes => writes.mono fun _ => Or.inl
  refine Keeps.run_bind (writes_found fun _ _ => rfl) fun servers => ?_
  split
  · exact keeps_pure _
  · split
    · exact keeps_pure _
    · refine Keeps.run_bind (plain plainly_endExisting) fun _ => ?_
      refine Keeps.run_bind
        (writes_vpnKeys fun key paired => Or.inr (.storeKeys paired)) fun keys => ?_
      refine Keeps.run_bind (writes_found fun _ _ => rfl) fun count => ?_
      exact Keeps.run_bind (plain plainly_createSession.adapt) fun session => keeps_pure _

theorem plainly_createPack {request : CreateEmojiPackRequest} :
    Plainly (createPack auth request).run := by
  refine Keeps.run_bind (keeps_random writes_refl) fun id => ?_
  refine Keeps.run_bind (writes_adapted (fun now => .createPack
    ⟨id, request.name, request.description, some auth.userId, none, request.isPremium,
      request.priceCents, true, now⟩) (fun _ _ => rfl) fun _ => trivial) fun pack => keeps_pure _

theorem plainly_verifyPack {packId : Uuid} : Plainly (Emojis.verifyPack packId).run := by
  refine Keeps.run_bind (writes_found fun _ _ => rfl) fun pack => ?_
  split
  · exact keeps_pure _
  · exact keeps_pure _

theorem plainly_addEmoji {packId : Uuid} {request : AddEmojiRequest} :
    Plainly (Emojis.addEmoji auth packId request).run := by
  refine Keeps.run_bind plainly_verifyPack fun pack => ?_
  split
  · refine Keeps.run_bind (keeps_random writes_refl) fun id => ?_
    exact Keeps.run_bind (writes_adapted (fun _ => .addEmoji id packId request.shortcode)
      (fun _ _ => rfl) fun _ => trivial) fun _ => keeps_pure _
  · exact keeps_pure _

theorem plainly_purchasePack {packId : Uuid} : Plainly (Emojis.purchasePack auth packId).run := by
  refine Keeps.run_bind plainly_verifyPack fun pack => ?_
  exact Keeps.run_bind (writes_adapted (fun _ => .purchasePack auth.userId packId) (fun _ _ => rfl)
    fun _ => trivial) fun _ => keeps_pure _

theorem plainly_setIf {statement : Bool → Db.Statement Unit} (write : Bool → Db.Write)
    (is : ∀ value t, (statement value t).2 = (write value).apply t)
    (plain : ∀ value, (write value).Plain) (value : Option Bool) :
    Plainly (Settings.setIf statement value).run := by
  cases value with
  | none => exact keeps_pure _
  | some value =>
      exact writes_adapted (fun _ => write value) (fun _ => is value) fun _ => plain value

theorem plainly_updateSettings {request : UpdateSettingsRequest} :
    Plainly (Settings.updateSettings auth request).run := by
  refine Keeps.run_bind (writes_adapted (fun _ => .ensureSettings auth.userId) (fun _ _ => rfl)
    fun _ => trivial) fun _ => ?_
  refine Keeps.run_bind (plainly_setIf (.setReadReceipts auth.userId) (fun _ _ => rfl)
    (fun _ => trivial) _) fun _ => ?_
  refine Keeps.run_bind (plainly_setIf (.setTypingIndicators auth.userId) (fun _ _ => rfl)
    (fun _ => trivial) _) fun _ => ?_
  refine Keeps.run_bind (plainly_setIf (.setLastActiveVisible auth.userId) (fun _ _ => rfl)
    (fun _ => trivial) _) fun _ => ?_
  refine Keeps.run_bind (writes_found fun _ t => ?_) fun _ => keeps_pure _
  unfold Db.Settings.find
  split <;> rfl

theorem plainly_muteChat {request : MuteChatRequest} :
    Plainly (Settings.muteChat auth request).run := by
  unfold Settings.muteChat
  split
  · exact Keeps.run_bind (writes_adapted (fun now => .muteChat auth.userId request.targetId now)
      (fun _ _ => rfl) fun _ => trivial) fun _ => keeps_pure _
  · exact Keeps.run_bind (writes_adapted (fun _ => .unmuteChat auth.userId request.targetId)
      (fun _ _ => rfl) fun _ => trivial) fun _ => keeps_pure _

theorem writes_verifyUser {userId : Uuid} :
    Keeps (Writes may) (Contacts.verifyUser userId).run := by
  refine Keeps.run_bind (writes_found fun _ _ => rfl) fun user => ?_
  split
  · exact keeps_pure _
  · exact keeps_pure _

theorem writes_contact {call : ContactCall} :
    Keeps (Writes (Endpoint.May x (.contact auth call))) (call.handle auth).run := by
  have may {write : Db.ContactWrite} (allowed : call.May auth.userId write) :
      Endpoint.May x (.contact auth call) (.contact write) := Or.inr (.contact allowed)
  cases call with
  | add v =>
      show Keeps _ (Contacts.addContact auth v).run
      unfold Contacts.addContact
      split
      · exact keeps_pure _
      · rename_i other
        refine Keeps.run_bind writes_verifyUser fun _ => ?_
        exact Keeps.run_bind (writes_adapted (fun now => .contact (.add auth.userId v now))
          (fun _ _ => rfl) fun now => may (.add now other)) fun _ => keeps_pure _
  | remove v =>
      exact Keeps.run_bind (writes_adapted (fun _ => .contact (.remove auth.userId v))
        (fun _ _ => rfl) fun _ => may .remove) fun _ => keeps_pure _
  | nickname v request =>
      show Keeps _ (Contacts.setNickname auth v request).run
      unfold Contacts.setNickname
      split
      · exact keeps_pure _
      · exact Keeps.run_bind (writes_adapted
          (fun _ => .contact (.rename auth.userId v request.nickname))
          (fun _ _ => rfl) fun _ => may .rename) fun _ => keeps_pure _
  | block v =>
      refine Keeps.run_bind writes_verifyUser fun _ => ?_
      exact Keeps.run_bind (writes_adapted (fun now => .contact (.block auth.userId v now))
        (fun _ _ => rfl) fun now => may (.block now)) fun _ => keeps_pure _
  | unblock v =>
      exact Keeps.run_bind (writes_adapted (fun _ => .contact (.unblock auth.userId v))
        (fun _ _ => rfl) fun _ => may .unblock) fun _ => keeps_pure _
  | send v =>
      show Keeps _ (ContactRequests.sendRequest auth v).run
      unfold ContactRequests.sendRequest
      split
      · exact keeps_pure _
      · rename_i other
        refine Keeps.run_bind writes_verifyUser fun _ => ?_
        refine Keeps.run_bind (keeps_random writes_refl) fun id => ?_
        exact Keeps.run_bind (writes_adapted (fun now => .contact (.send id auth.userId v now))
          (fun _ _ => rfl) fun now => may (.send id now other)) fun _ => keeps_pure _
  | accept id =>
      refine Keeps.run_bind (writes_adapted (fun _ => .contact (.take id auth.userId)) ?_
        fun _ => may .accept) fun request => ?_
      · exact fun _ _ => Db.ContactRequests.accept_snd
      · refine Keeps.run_bind (Keeps.attempt ?_) fun _ =>
          Keeps.run_bind (Keeps.attempt ?_) fun _ => keeps_pure _
        · exact writes_query (fun now => .contact (.add auth.userId request.fromUserId now))
            (fun _ _ => rfl) fun now => may (.accepted _ now)
        · exact writes_query (fun now => .contact (.add request.fromUserId auth.userId now))
            (fun _ _ => rfl) fun now => may (.both _ now)
  | reject id =>
      exact Keeps.run_bind (writes_adapted (fun _ => .contact (.take id auth.userId))
        (fun _ _ => Db.ContactRequests.reject_snd) fun _ => may .reject) fun _ => keeps_pure _

theorem plainly_of_effects {t : Program Chance Server α}
    (effects : Effects (fun e => ∀ rows, e ≠ .pins rows) t) : Plainly t := by
  refine effects.mono fun s s' does => Or.inl ?_
  obtain rfl | ⟨e, allowed, rfl⟩ := does
  · rfl
  · cases e with
    | send d text =>
        show (Effect.apply (.send d text) s).db = s.db
        unfold Effect.apply
        dsimp only
        split
        · rfl
        · split <;> rfl
    | disconnect d => rfl
    | push request => rfl
    | store change => rfl
    | pins rows => exact (allowed rows rfl).elim
    | limit key times => rfl

theorem maySend_quiet {d : Uuid} {text : String} :
    MaySend (fun e => ∀ rows, e ≠ .pins rows) d text :=
  ⟨fun _ => nofun, fun _ => nofun⟩

theorem plainly_markOnline {d : Uuid} {online : Bool} :
    Plainly (.act fun c s => ((), markOnline d online c s)) := by
  apply keeps_act
  intro c s
  unfold markOnline
  split
  · exact Or.inl rfl
  · exact Or.inr ⟨.setOnline d online s.redis.now, trivial, rfl⟩

theorem plainly_arriveSocket {d : Uuid} {socket : SocketId} {pages : Nat} :
    Plainly (arriveSocket chrono serde d socket pages) := by
  refine Keeps.bind (keeps_act fun _ _ => Or.inl rfl) fun _ => ?_
  refine Keeps.bind plainly_markOnline fun _ => ?_
  refine Keeps.bind (plainly_of_effects ?_) fun _ => plainly_of_effects ?_
  · exact effects_deliverPendingMessages (fun _ _ => nofun) fun _ => maySend_quiet
  · exact effects_deliverPendingWipes fun _ => maySend_quiet

theorem plainly_leaveSocket {d : Uuid} {socket : SocketId} : Plainly (leaveSocket d socket) := by
  refine Keeps.bind (keeps_act fun _ _ => Or.inl rfl) fun _ => ?_
  refine Keeps.bind (keeps_act fun _ _ => Or.inl rfl) fun _ => plainly_markOnline

theorem effects_stores {t : Command α} (changes : Changes (fun _ => True) t) :
    Effects (fun e => ∀ rows, e ≠ .pins rows) (onRedis t).run :=
  effects_onRedis (changes.mono fun _ _ does => does.mono fun _ _ _ => nofun)

theorem plainly_sendMessage {envelope : EncryptedEnvelope} :
    Plainly (sendMessage config envelope).run := by
  apply plainly_of_effects
  refine Keeps.run_bind (effects_sendToDevice maySend_quiet).lift fun sent => ?_
  cases sent with
  | true => exact keeps_pure _
  | false =>
      refine Keeps.run_bind (effects_stores (changes_enqueue fun _ => trivial)).adapt fun _ => ?_
      split
      · exact Keeps.run_bind
          (effects_sendPushNotification fun _ _ => nofun).attempt fun _ => keeps_pure _
      · exact keeps_pure _

theorem plainly_sendGroupMessage {user group : Uuid} {envelope : EncryptedEnvelope} :
    Plainly (sendGroupMessage user group envelope).run := by
  apply plainly_of_effects
  refine Keeps.run_bind (effects_query fun _ _ => rfl).adapt fun members => ?_
  refine Keeps.run_bind (effects_devicesOrNone (reads_listByUsers _)) fun devices => ?_
  refine Keeps.run_forM fun device _ => ?_
  refine Keeps.run_bind (effects_sendToDevice maySend_quiet).lift fun sent => ?_
  cases sent with
  | true => exact keeps_pure _
  | false =>
      exact Keeps.run_bind
        (effects_stores (changes_enqueue fun _ => trivial)).attempt fun _ => keeps_pure _

theorem plainly_wipeCommand {user sender : Uuid} {request : WipeRequest} :
    Plainly (wipeCommand chrono user sender request).run := by
  apply plainly_of_effects
  refine Keeps.run_bind effects_wipeTargets fun targets => ?_
  refine Keeps.run_bind
    (effects_stores (changes_issueWipe fun _ _ _ _ => trivial)).adapt fun _ => ?_
  exact (effects_sendToEach fun _ _ => maySend_quiet).lift

theorem plainly_pinMessage {user : Uuid} {pin : PinMessage} :
    Plainly (pinMessage user pin).run := by
  refine Keeps.run_bind (writes_read fun _ _ => rfl).attempt fun isMember => ?_
  split
  · have pins : Plainly (ExceptT.adapt DbError.display (query fun _ =>
        if pin.pin then Db.pin pin.groupId pin.messageId user
        else Db.unpin pin.groupId pin.messageId)).run := by
      split
      · exact writes_adapted (fun _ => .pin pin.groupId pin.messageId user) (fun _ _ => rfl)
          fun _ => trivial
      · exact writes_adapted (fun _ => .unpin pin.groupId pin.messageId) (fun _ _ => rfl)
          fun _ => trivial
    refine Keeps.run_bind pins fun _ => ?_
    refine Keeps.run_bind (writes_read fun _ _ => rfl).attempt fun members => ?_
    refine Keeps.run_bind (plainly_of_effects ?_) fun devices => ?_
    · exact effects_devicesOrNone (reads_listByUsers _)
    · exact plainly_of_effects (effects_sendToEach fun _ _ => maySend_quiet).lift
  · exact keeps_pure _

theorem plainly_sendToUserDevices {user : Uuid} {message : WsMessage} :
    Plainly (liftM (sendToUserDevices user message) : Task String Unit).run :=
  plainly_of_effects (effects_sendToUserDevices fun _ => maySend_quiet).lift

theorem plainly_handleWsMessage {user sender : Uuid} {message : WsMessage} :
    Plainly (handleWsMessage config chrono user sender message).run := by
  cases message with
  | sendMessage envelope => exact plainly_sendMessage
  | sendGroupMessage group envelope => exact plainly_sendGroupMessage
  | delivered ack =>
      refine Keeps.run_bind (plainly_of_effects (Keeps.adapt ?_)) fun _ => keeps_pure _
      exact effects_stores (changes_deleteMessage trivial)
  | wipeAck ack =>
      refine Keeps.run_bind (plainly_of_effects (Keeps.adapt ?_)) fun _ => keeps_pure _
      exact effects_stores (changes_confirmWipe trivial)
  | wipeCommand request => exact plainly_wipeCommand
  | pinMessage pin => exact plainly_pinMessage
  | typing indicator => exact plainly_sendToUserDevices
  | read receipt => exact plainly_sendToUserDevices
  | saveInChat save => exact plainly_sendToUserDevices
  | reaction change => exact plainly_sendToUserDevices
  | callSignal signal => exact plainly_sendToUserDevices
  | error text => exact keeps_pure _

theorem plainly_sendToSelf {d : Uuid} {e : String} : Plainly (sendToSelf d e) :=
  plainly_of_effects (Keeps.bind (effects_sendToDevice maySend_quiet) fun _ => keeps_pure _)

theorem plainly_receiveText {user d : Uuid} {text : String} :
    Plainly (receiveText config chrono serde user d text) := by
  unfold receiveText
  split
  · refine Keeps.bind plainly_handleWsMessage fun outcome => ?_
    cases outcome with
    | ok _ => exact keeps_pure _
    | error e => exact plainly_sendToSelf
  · exact plainly_sendToSelf

/-- Each step of an endpoint leaves the tables alone or makes a change that the endpoint may make.
-/
theorem writes_program (call : Endpoint) : Keeps (Writes (call.May x))
    (call.program x) := by
  have plain {α : Type} {t : Program Chance Server α} (plainly : Plainly t) :
      Keeps (Writes (call.May x)) t :=
    plainly.mono fun _ _ writes => writes.mono fun _ => Or.inl
  cases call with
  | register headers request =>
      exact plain ((plainly_registerWrites.register headers request).map _)
  | login headers request => exact plain ((plainly_loginWrites.login headers request).map _)
  | refresh request => exact plain ((keeps_refresh writes_refl request).map _)
  | setup2fa auth => exact plain (plainly_setup2fa.map _)
  | verify2fa auth request =>
      exact plain ((Keeps.run_bind plainly_checkCode fun _ => keeps_pure _).map _)
  | disable2fa auth request => exact plain (plainly_disable2fa.map _)
  | setUsername auth request => exact plain (plainly_setUsername.map _)
  | setDisplayName auth request => exact plain (plainly_setDisplayName.map _)
  | setAvatar auth request => exact plain (plainly_setAvatar.map _)
  | setUserStatus auth request => exact plain (plainly_setUserStatus.map _)
  | deleteDevice auth d => exact plain (plainly_deleteDevice.map _)
  | replenish auth request =>
      have stores (s : Server) (d : Uuid) (key : Bytes) : Writes Db.Write.Plain s
          { s with db := (Db.storePreKey d key s.db).2 } :=
            Or.inr ⟨.storePreKey d key, trivial, rfl⟩
      exact plain ((keeps_replenishPreKeys writes_refl stores auth request).map _)
  | fetchBundle auth user => exact plain ((plainly_fetchWrites.fetchBundle auth user).map _)
  | group auth request => exact writes_group.map _
  | connect auth request => exact writes_connect.map _
  | disconnect auth => exact plain (plainly_disconnect.map _)
  | createPack auth request => exact plain (plainly_createPack.map _)
  | addEmoji auth pack request => exact plain (plainly_addEmoji.map _)
  | purchasePack auth pack => exact plain (plainly_purchasePack.map _)
  | contact auth call => exact writes_contact.map _
  | updateSettings auth request => exact plain (plainly_updateSettings.map _)
  | mute auth request => exact plain (plainly_muteChat.map _)
  | arrive d socket pages => exact plain (plainly_arriveSocket.map _)
  | leave d socket => exact plain (plainly_leaveSocket.map _)
  | receive user d text => exact plain (plainly_receiveText.map _)
  | other program same => exact same.mono fun _ _ => Or.inl

end

end Hysj.Api
