import Hysj.Api.Registration
import Hysj.Db.Vpn

set_option autoImplicit false

/- The endpoints that open and end a VPN session. -/
namespace Hysj.Shared

structure VpnConnectRequest where
  serverId : Uuid

structure VpnConnectResponse where
  config : Json.Value
  sessionId : Uuid
  assignedIp : String

end Hysj.Shared

namespace Hysj.Vpn

open Crypto

/-- Represents a complete WireGuard client configuration. -/
structure WireGuardConfig where
  interfacePrivateKey : String
  interfaceAddress : String
  dns : String
  /-- Server's public key -/
  peerPublicKey : String
  peerEndpoint : String
  /-- "0.0.0.0/0" for full tunnel -/
  allowedIps : String

/-- Serialize to a JSON value. -/
def WireGuardConfig.toJson (config : WireGuardConfig) : Json.Value :=
  .obj
    [("interface", .obj
      [("private_key", .str config.interfacePrivateKey), ("address", .str config.interfaceAddress),
        ("dns", .str config.dns)]),
    ("peer", .obj
      [("public_key", .str config.peerPublicKey), ("endpoint", .str config.peerEndpoint),
        ("allowed_ips", .str config.allowedIps)])]

/-- Generate a WireGuard X25519 keypair from a random secret, both in base64. -/
def generateKeypair (p : Primitives) (b64 : Base64Engine) (secret : ByteArr 32) : String × String :=
  (b64.encode secret.toList, b64.encode (p.x25519Public secret).toList)

end Hysj.Vpn

namespace Hysj.Api

open Crypto Shared Auth Messaging Program

/-- Thirty-two random bytes. -/
def randomSecret {ε : Type} : Task ε (ByteArr 32) := do
  let first ← random
  let second ← random
  return (first ++ second : ByteArr (16 + 16))

/-- Twenty-four random bytes. -/
def randomNonce {ε : Type} : Task ε (ByteArr 24) := do
  let first ← random
  let second ← random
  return (first ++ second.take 8 : ByteArr (16 + 8))

/-- Create a new VPN session. -/
def createSession (userId serverId : Uuid) (clientPublicKey assignedIp : String) :
    Task DbError Db.VpnSession := do
  let id ← random
  let session ← query fun now =>
    Db.insertSession ⟨id, userId, serverId, clientPublicKey, assignedIp, now, none, 0, 0⟩
  query fun _ => Db.incrementConnections serverId
  return session

/-- End an active VPN session. -/
def endSession (sessionId : Uuid) : Task DbError Unit := do
  query fun now => Db.markEnded sessionId now
  query fun _ => Db.decrementConnections sessionId

/-- The address for a session when the server has so many. -/
def assignIp (sessionCount : Nat) : String :=
  let ipNum := UInt32.ofNat sessionCount + 2
  let octet3 := ((ipNum >>> 8) &&& 0xFF).toUInt8
  let octet4 := (max (ipNum &&& 0xFF) 2).toUInt8
  s!"10.0.{octet3}.{octet4}/32"

section

variable (p : Primitives) (b64 : Base64Engine) (certSigningSeed : ByteArr 32)

/-- Derive a VPN encryption key from the server's cert signing seed. -/
def vpnEncryptionKey : ByteArr 32 :=
  Kdf.hkdfDerive p certSigningSeed.toList (strBytes "hysj-vpn-key-encryption") [] 32

/-- The private and the public key of a user, which are generated if there are none. -/
def vpnKeys (userId : Uuid) : Task HysjError (String × String) := do
  let encKey := vpnEncryptionKey p certSigningSeed
  match ← ExceptT.adapt .ofDb (query fun _ => Db.getVpnKeys userId) with
  | some existing =>
      let decrypted ← ofResult ((Cipher.decrypt p existing.privateKeyEncrypted encKey
        userId.toList).mapError fun e => .internalError ("Key decryption failed: " ++ e.display))
      match Utf8.fromUtf8 decrypted with
      | none => throw (.internalError "Invalid key data")
      | some privKey => return (privKey, existing.publicKey)
  | none =>
      let keys := Vpn.generateKeypair p b64 (← randomSecret)
      let encrypted ← ofResult ((Cipher.encrypt p (← randomNonce) (strBytes keys.1) encKey
        userId.toList).mapError fun e => .internalError ("Key encryption failed: " ++ e.display))
      ExceptT.adapt .ofDb (query fun now => Db.storeVpnKeys ⟨userId, keys.2, encrypted, now⟩)
      return keys

/-- End any existing active session. -/
def endExisting (userId : Uuid) : Task HysjError Unit := do
  match ← ExceptT.adapt .ofDb (query fun _ => Db.getActiveSession userId) with
  | some existing => ExceptT.adapt .ofDb (endSession existing.id)
  | none => return ()

/-- What is left of a connect once there is room and no session of the user. -/
def openSession (auth : AuthUser) (request : VpnConnectRequest) (server : Db.VpnServer) :
    Task HysjError VpnConnectResponse := do
  let keys ← vpnKeys p b64 certSigningSeed auth.userId
  let sessionCount ← ExceptT.adapt .ofDb (query fun _ => Db.countSessions request.serverId)
  let assignedIp := assignIp sessionCount
  let session ← ExceptT.adapt .ofDb (createSession auth.userId server.id keys.2 assignedIp)
  let wgConfig : Vpn.WireGuardConfig :=
    ⟨keys.1, assignedIp, "1.1.1.1", server.publicKey, server.endpoint, "0.0.0.0/0"⟩
  return ⟨wgConfig.toJson, session.id, assignedIp⟩

/-- `POST /api/vpn/connect` -/
def Vpn.connect (auth : AuthUser) (request : VpnConnectRequest) :
    Task HysjError VpnConnectResponse := do
  let servers ← ExceptT.adapt .ofDb (query fun _ => Db.listServers)
  match servers.find? fun server => server.id = request.serverId with
  | none => throw (.validationError "Server not found")
  | some server =>
      if server.maxConnections ≤ server.currentConnections then
        throw (.validationError "Server is full")
      else
        endExisting auth.userId
        openSession p b64 certSigningSeed auth request server

/-- `POST /api/vpn/disconnect` -/
def Vpn.disconnect (auth : AuthUser) : Task HysjError Json.Value := do
  match ← ExceptT.adapt .ofDb (query fun _ => Db.getActiveSession auth.userId) with
  | none => throw (.validationError "No active VPN session")
  | some session =>
      ExceptT.adapt .ofDb (endSession session.id)
      return .obj [("disconnected", .bool true)]

end

/-- VPN servers and sessions are left alone. -/
abbrev SameVpn (s s' : Server) : Prop :=
  s'.db.vpnServers = s.db.vpnServers ∧ s'.db.vpnSessions = s.db.vpnSessions

/-- The state after a session has ended. -/
def Server.ending (s : Server) (sessionId : Uuid) : Server :=
  (s.after (Db.markEnded sessionId s.redis.now)).after (Db.decrementConnections sessionId)

/-- The state after the latest session of a user has ended, if there is one. -/
def Server.withoutSession (s : Server) (u : Uuid) : Server :=
  match (Db.getActiveSession u s.db).1 with
  | .ok (some own) => s.ending own.id
  | _ => s

section

variable {s s' : Server} {u serverId sessionId : Uuid} {p : Chance → Prop} {pr : Primitives}
variable {b64 : Base64Engine} {seed : ByteArr 32} {auth : AuthUser} {request : VpnConnectRequest}

theorem sameVpn_refl (s : Server) : SameVpn s s := ⟨rfl, rfl⟩

theorem sameVpn_trans {s m s' : Server} (first : SameVpn s m) (second : SameVpn m s') :
    SameVpn s s' := ⟨second.1.trans first.1, second.2.trans first.2⟩

theorem under_endSession {r : Except DbError Unit}
    (run : Runs (Under p) (endSession sessionId).run s r s') :
    (∃ e, r = .error e) ∧ (s' = s ∨ s' = s.after (Db.markEnded sessionId s.redis.now) ∧
      ∃ c, p c ∧ c.fault ≠ none) ∨ r = .ok () ∧ s' = s.ending sessionId := by
  rw [endSession, runs_run_bind] at run
  rcases run with ⟨_, m, marked, run⟩ | ⟨e, rfl, failed⟩
  · rcases under_query.mp marked with ⟨c, -, -, -, rfl⟩ | ⟨c, e, -, -, other, -⟩
    swap
    · cases other
    rcases under_query.mp run with ⟨c, -, -, rfl, rfl⟩ | ⟨c, e, allowed, fault, rfl, rfl⟩
    · exact Or.inr ⟨rfl, rfl⟩
    · refine Or.inl ⟨⟨_, rfl⟩, Or.inr ⟨rfl, c, allowed, ?_⟩⟩
      rw [fault]
      exact Option.some_ne_none e
  · refine Or.inl ⟨⟨e, rfl⟩, Or.inl ?_⟩
    rcases under_query.mp failed with ⟨c, -, -, answer, rfl⟩ | ⟨c, e, -, -, -, rfl⟩
    · unfold Db.markEnded at answer ⊢
      split at answer
      · cases answer
      · rename_i absent
        rw [if_neg absent]
    · rfl

theorem keeps_randomBytes {G : Server → Server → Prop} {ε : Type} (refl : ∀ s, G s s) :
    Keeps G (randomSecret : Task ε (ByteArr 32)).run ∧
    Keeps G (randomNonce : Task ε (ByteArr 24)).run := by
  constructor
  · refine Keeps.run_bind (keeps_random refl) fun first => ?_
    exact Keeps.run_bind (keeps_random refl) fun second => keeps_pure _
  · refine Keeps.run_bind (keeps_random refl) fun first => ?_
    exact Keeps.run_bind (keeps_random refl) fun second => keeps_pure _

/-- Only the keys of users may change. -/
abbrev OnlyKeys (s s' : Server) : Prop :=
  ∃ keys, s' = { s with db := { s.db with userVpnKeys := keys } }

theorem onlyKeys_refl (s : Server) : OnlyKeys s s := ⟨_, rfl⟩

theorem onlyKeys_trans {s m s' : Server} (first : OnlyKeys s m) (second : OnlyKeys m s') :
    OnlyKeys s s' := by
  obtain ⟨keys, rfl⟩ := first
  obtain ⟨keys', rfl⟩ := second
  exact ⟨keys', rfl⟩

theorem onlyKeys_vpnKeys : Keeps OnlyKeys (vpnKeys pr b64 seed u).run := by
  refine Keeps.run_bind
    (Keeps.adapt (keeps_query onlyKeys_refl fun s => onlyKeys_refl s)) fun found => ?_
  cases found with
  | some existing =>
      refine Keeps.run_bind (keeps_ofResult _) fun decrypted => ?_
      split
      · exact keeps_pure _
      · exact keeps_pure _
  | none =>
      refine Keeps.run_bind (keeps_randomBytes onlyKeys_refl).1 fun secret => ?_
      refine Keeps.run_bind (keeps_randomBytes onlyKeys_refl).2 fun nonce => ?_
      refine Keeps.run_bind (keeps_ofResult _) fun encrypted => ?_
      refine Keeps.run_bind
        (Keeps.adapt (keeps_query onlyKeys_refl fun s => ?_)) fun _ => keeps_pure _
      unfold Db.storeVpnKeys
      split
      · exact onlyKeys_refl s
      · split
        · exact ⟨_, rfl⟩
        · exact ⟨_, rfl⟩

/-- The keys of the user can be decrypted, if there are some. -/
def UsableKeys (pr : Primitives) (seed : ByteArr 32) (s : Server) (u : Uuid) : Prop :=
  ∀ key, s.db.userVpnKeys.find? (fun row => row.userId = u) = some key → ∃ decrypted text,
    Cipher.decrypt pr key.privateKeyEncrypted (vpnEncryptionKey pr seed) u.toList = .ok decrypted ∧
      Utf8.fromUtf8 decrypted = some text

theorem usable_of_vpnKeys {keys : String × String}
    (run : Runs (Under p) (vpnKeys pr b64 seed u).run s (.ok keys) s') :
    UsableKeys pr seed s u := by
  intro key found
  rw [vpnKeys, runs_run_bind_ok] at run
  obtain ⟨stored, m, queried, run⟩ := run
  obtain ⟨answer, rfl⟩ := under_query_ok queried
  have same := Except.ok.inj answer
  rw [found] at same
  subst same
  simp only [runs_run_bind_ok, under_ofResult] at run
  obtain ⟨decrypted, _, ⟨decrypts, rfl⟩, run⟩ := run
  rw [Result.mapError_eq_ok] at decrypts
  split at run
  · cases (runs_run_throw.mp run).1
  · rename_i text is
    exact ⟨decrypted, text, decrypts, is⟩

/-- The row is a new session of the user on the server. -/
structure Opens (p : Chance → Prop) (s : Server) (u serverId : Uuid) (assignedIp : String)
    (row : Db.VpnSession) (s' : Server) : Prop where
  owner : s.db.users.any (fun user => user.id = u) = true
  ofUser : row.userId = u
  onServer : row.serverId = serverId
  running : row.endedAt = none
  address : row.assignedIp = assignedIp
  fresh : ∀ old ∈ s.db.vpnSessions, old.id ≠ row.id
  sessions : s'.db.vpnSessions = s.db.vpnSessions ++ [row]
  servers : s'.db.vpnServers = (Db.incrementConnections serverId s.db).2.vpnServers ∨
    s'.db.vpnServers = s.db.vpnServers ∧ ∃ c, p c ∧ c.fault ≠ none

theorem under_createSession {key assignedIp : String} {r : Except DbError Db.VpnSession}
    (run : Runs (Under p) (createSession u serverId key assignedIp).run s r s') :
    s' = s ∨ ∃ row, Opens p s u serverId assignedIp row s' := by
  rw [createSession, under_random_bind] at run
  obtain ⟨c, -, run⟩ := run
  rcases runs_run_bind.mp run with ⟨row, m, inserted, run⟩ | ⟨e, -, failed⟩
  swap
  · rcases under_query.mp failed with ⟨c, -, -, answer, rfl⟩ | ⟨c, e, -, -, -, rfl⟩
    · rw [Db.insertSession_eq_error answer]
      exact Or.inl rfl
    · exact Or.inl rfl
  rcases under_query.mp inserted with ⟨c, -, -, answer, rfl⟩ | ⟨c, e, -, -, other, -⟩
  swap
  · cases other
  obtain ⟨rfl, owner, fresh, added⟩ := Db.insertSession_eq_ok answer
  rw [added] at run
  have counted {r : Except DbError Unit} {m m' : Server}
      (run : Runs (Under p) (query fun _ => Db.incrementConnections serverId).run m r m') :
      m'.db.vpnSessions = m.db.vpnSessions ∧
        (m'.db.vpnServers = (Db.incrementConnections serverId m.db).2.vpnServers ∨
          m'.db.vpnServers = m.db.vpnServers ∧ ∃ c, p c ∧ c.fault ≠ none) := by
    rcases under_query.mp run with ⟨c, -, -, -, rfl⟩ | ⟨c, e, allowed, fault, -, rfl⟩
    · exact ⟨rfl, Or.inl rfl⟩
    · refine ⟨rfl, Or.inr ⟨rfl, c, allowed, ?_⟩⟩
      rw [fault]
      exact Option.some_ne_none e
  rcases runs_run_bind.mp run with ⟨_, m, ran, rest⟩ | ⟨e, -, ran⟩
  · obtain ⟨-, rfl⟩ := runs_run_pure.mp rest
    exact Or.inr ⟨_, owner, rfl, rfl, rfl, rfl, fresh, (counted ran).1, (counted ran).2⟩
  · exact Or.inr ⟨_, owner, rfl, rfl, rfl, rfl, fresh, (counted ran).1, (counted ran).2⟩

/-- What is left of a connect opens a session, with the address for the sessions there are, or
none. -/
theorem under_openSession {server : Db.VpnServer} {r : Except HysjError VpnConnectResponse}
    (is : server.id = request.serverId)
    (run : Runs (Under p) (openSession pr b64 seed auth request server).run s r s') :
    SameVpn s s' ∨ UsableKeys pr seed s auth.userId ∧ ∃ row,
      Opens p s auth.userId request.serverId
        (assignIp (s.db.active request.serverId).length) row s' := by
  rw [openSession, runs_run_bind] at run
  rcases run with ⟨keys, m, made, run⟩ | ⟨e, -, failed⟩
  swap
  · obtain ⟨keys, rfl⟩ := failed.keeps onlyKeys_vpnKeys onlyKeys_refl fun _ _ _ => onlyKeys_trans
    exact Or.inl ⟨rfl, rfl⟩
  have usable := usable_of_vpnKeys made
  obtain ⟨rows, rfl⟩ := made.keeps onlyKeys_vpnKeys onlyKeys_refl fun _ _ _ => onlyKeys_trans
  rcases runs_run_bind.mp run with ⟨count, m, counted, run⟩ | ⟨e, -, failed⟩
  swap
  · rw [← under_read (fun _ _ => rfl) failed]
    exact Or.inl ⟨rfl, rfl⟩
  obtain ⟨answer, rfl⟩ := under_query_ok counted
  obtain rfl := Except.ok.inj answer
  have created {r : Except DbError Db.VpnSession}
      (run : Runs (Under p) (createSession auth.userId server.id keys.2
        (assignIp (s.db.active request.serverId).length)).run
        { s with db := { s.db with userVpnKeys := rows } } r s') :
      SameVpn s s' ∨ UsableKeys pr seed s auth.userId ∧ ∃ row,
        Opens p s auth.userId request.serverId
          (assignIp (s.db.active request.serverId).length) row s' := by
    rcases under_createSession run with rfl | ⟨row, opens⟩
    · exact Or.inl ⟨rfl, rfl⟩
    · rw [is] at opens
      exact Or.inr ⟨usable, row, opens.owner, opens.ofUser, opens.onServer, opens.running,
        opens.address, opens.fresh, opens.sessions, opens.servers⟩
  rcases runs_run_bind.mp run with ⟨session, m, ran, rest⟩ | ⟨e, -, ran⟩
  · obtain ⟨-, rfl⟩ := runs_run_pure.mp rest
    exact created (runs_adapt_ok.mp ran)
  · obtain ⟨r, ran, -⟩ := runs_adapt.mp ran
    exact created ran

/-- A session may have ended of which the count has not been told. -/
def HalfEnded (p : Chance → Prop) (s : Server) (u : Uuid) (s' : Server) : Prop :=
  (∃ c, p c ∧ c.fault ≠ none) ∧ ∃ own, (Db.getActiveSession u s.db).1 = .ok (some own) ∧
    s' = s.after (Db.markEnded own.id s.redis.now)

theorem under_endSession_own {own : Db.VpnSession} {r : Except DbError Unit}
    (found : (Db.getActiveSession u s.db).1 = .ok (some own))
    (run : Runs (Under p) (endSession own.id).run s r s') :
    (∃ e, r = .error e) ∧ (s' = s ∨ HalfEnded p s u s') ∨ r = .ok () ∧ s' = s.withoutSession u := by
  rcases under_endSession run with ⟨failed, rfl | ⟨half, faulty⟩⟩ | ⟨done, rfl⟩
  · exact Or.inl ⟨failed, Or.inl rfl⟩
  · exact Or.inl ⟨failed, Or.inr ⟨faulty, own, found, half⟩⟩
  · refine Or.inr ⟨done, ?_⟩
    rw [Server.withoutSession, found]

theorem under_endExisting {r : Except HysjError Unit}
    (run : Runs (Under p) (endExisting u).run s r s') :
    (∃ e, r = .error e) ∧ (s' = s ∨ HalfEnded p s u s') ∨ r = .ok () ∧ s' = s.withoutSession u := by
  rw [endExisting, runs_run_bind] at run
  rcases run with ⟨found, m, queried, run⟩ | ⟨e, rfl, failed⟩
  swap
  · exact Or.inl ⟨⟨e, rfl⟩, Or.inl (under_read (fun _ _ => rfl) failed).symm⟩
  obtain ⟨answer, rfl⟩ := under_query_ok queried
  cases found with
  | none =>
      obtain ⟨rfl, rfl⟩ := runs_run_pure.mp run
      refine Or.inr ⟨rfl, ?_⟩
      rw [Server.withoutSession, answer]
      rfl
  | some own =>
      obtain ⟨r', ran, is⟩ := runs_adapt.mp run
      rcases under_endSession_own answer ran with ⟨⟨e, rfl⟩, left⟩ | ⟨rfl, done⟩
      · exact Or.inl ⟨⟨_, is.symm⟩, left⟩
      · exact Or.inr ⟨is.symm, done⟩

theorem active_withoutSession :
    (∃ own, (Db.getActiveSession u s.db).1 = .ok (some own) ∧ s.withoutSession u = s.ending own.id ∧
      ∀ serverId, (s.withoutSession u).db.active serverId =
        (s.db.active serverId).filter fun row => row.id ≠ own.id) ∨
    (Db.getActiveSession u s.db).1 = .ok none ∧ s.withoutSession u = s := by
  cases found : (Db.getActiveSession u s.db).1 with
  | error e => cases found
  | ok own =>
      cases own with
      | none =>
          refine Or.inr ⟨rfl, ?_⟩
          rw [Server.withoutSession, found]
      | some own =>
          have is : s.withoutSession u = s.ending own.id := by rw [Server.withoutSession, found]
          refine Or.inl ⟨own, rfl, is, fun serverId => ?_⟩
          rw [is]
          exact Db.active_markEnded

theorem ids_withoutSession : (s.withoutSession u).db.vpnSessions.map Db.VpnSession.id =
    s.db.vpnSessions.map Db.VpnSession.id := by
  rcases active_withoutSession (s := s) (u := u) with ⟨own, -, is, -⟩ | ⟨-, same⟩
  · rw [is]
    exact Db.ids_markEnded
  · rw [same]

/-- The server is one that is listed, and it is not full. -/
def Room (t : Db.Tables) (serverId : Uuid) : Prop :=
  ∃ server ∈ t.vpnServers, server.isActive = true ∧ server.id = serverId ∧
    server.currentConnections < server.maxConnections

/-- A connect does nothing, or there is room: then it ends the session of the user, and may open
another. -/
theorem under_connect {r : Except HysjError VpnConnectResponse}
    (run : Runs (Under p) (Vpn.connect pr b64 seed auth request).run s r s') :
    SameVpn s s' ∨ HalfEnded p s auth.userId s' ∨ Room s.db request.serverId ∧
      (SameVpn (s.withoutSession auth.userId) s' ∨
        UsableKeys pr seed (s.withoutSession auth.userId) auth.userId ∧ ∃ row,
          Opens p (s.withoutSession auth.userId) auth.userId request.serverId
            (assignIp ((s.withoutSession auth.userId).db.active request.serverId).length)
            row s') := by
  rw [Vpn.connect, runs_run_bind] at run
  rcases run with ⟨servers, m, listed, run⟩ | ⟨e, -, failed⟩
  swap
  · rw [← under_read (fun _ _ => rfl) failed]
    exact Or.inl (sameVpn_refl s)
  obtain ⟨answer, rfl⟩ := under_query_ok listed
  split at run
  · obtain ⟨-, rfl⟩ := runs_run_throw.mp run
    exact Or.inl ⟨rfl, rfl⟩
  rename_i server found
  split at run
  · obtain ⟨-, rfl⟩ := runs_run_throw.mp run
    exact Or.inl ⟨rfl, rfl⟩
  rename_i free
  have is : server.id = request.serverId := by simpa using List.find?_some found
  have room : Room s.db request.serverId := by
    obtain ⟨there, active⟩ := Db.mem_of_listServers answer (List.mem_of_find?_eq_some found)
    exact ⟨server, there, active, is, Int.lt_of_not_ge free⟩
  rcases runs_run_bind.mp run with ⟨_, m, ended, run⟩ | ⟨e, -, failed⟩
  · rcases under_endExisting ended with ⟨⟨e, other⟩, -⟩ | ⟨-, rfl⟩
    · cases other
    · exact Or.inr (Or.inr ⟨room, under_openSession is run⟩)
  · rcases under_endExisting failed with ⟨-, rfl | half⟩ | ⟨other, -⟩
    · exact Or.inl ⟨rfl, rfl⟩
    · exact Or.inr (Or.inl half)
    · cases other

theorem under_disconnect {r : Except HysjError Json.Value}
    (run : Runs (Under p) (Vpn.disconnect auth).run s r s') :
    SameVpn s s' ∨ HalfEnded p s auth.userId s' ∨ s' = s.withoutSession auth.userId := by
  rw [Vpn.disconnect, runs_run_bind] at run
  rcases run with ⟨found, m, queried, run⟩ | ⟨e, -, failed⟩
  swap
  · rw [← under_read (fun _ _ => rfl) failed]
    exact Or.inl (sameVpn_refl s)
  obtain ⟨answer, rfl⟩ := under_query_ok queried
  cases found with
  | none =>
      obtain ⟨-, rfl⟩ := runs_run_throw.mp run
      exact Or.inl ⟨rfl, rfl⟩
  | some own =>
      have left {r : Except DbError Unit} (run : Runs (Under p) (endSession own.id).run s r s') :
          SameVpn s s' ∨ HalfEnded p s auth.userId s' ∨ s' = s.withoutSession auth.userId := by
        rcases under_endSession_own answer run with ⟨-, rfl | half⟩ | ⟨-, done⟩
        · exact Or.inl (sameVpn_refl s')
        · exact Or.inr (Or.inl half)
        · exact Or.inr (Or.inr done)
      rcases runs_run_bind.mp run with ⟨_, m, ran, rest⟩ | ⟨e, -, ran⟩
      · obtain ⟨-, rfl⟩ := runs_run_pure.mp rest
        exact left (runs_adapt_ok.mp ran)
      · obtain ⟨r, ran, -⟩ := runs_adapt.mp ran
        exact left ran

end

end Hysj.Api
