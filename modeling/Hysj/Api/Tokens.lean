import Hysj.Api.Acknowledgements
import Hysj.Api.Auth

set_option autoImplicit false

/- For which devices the tokens in circulation are accepted. -/
namespace Hysj.Api

open Crypto Shared Auth Messaging Program

/-- The server and the tokens it has handed out. -/
structure Circulation where
  server : Server
  minted : List String

inductive AuthRequest where
  | register (headers : HeaderMap) (request : RegisterRequest)
  | login (headers : HeaderMap) (request : LoginRequest)
  | refresh (request : RefreshRequest)
  | deleteDevice (headers : HeaderMap) (deviceId : Uuid)
  | deleteAccount (headers : HeaderMap)

/-- The token in the Authorization header. -/
def bearerToken (headers : HeaderMap) : Option String := (headers "authorization").bind bearer

/-- The token that a request presents. -/
def AuthRequest.token : AuthRequest → Option String
  | .register _ _ => none
  | .login _ _ => none
  | .refresh request => some request.refreshToken
  | .deleteDevice headers _ => bearerToken headers
  | .deleteAccount headers => bearerToken headers

/-- The tokens of a response. -/
def handedOut : Except HysjError (Option LoginResponse) → List String
  | .ok (some response) => [response.accessToken, response.refreshToken]
  | _ => []

/-- Whatever fails, and whatever is drawn. -/
abbrev Any : Chance → Server → Prop := fun _ _ => True

section

variable (jwt : Jwt) (argon2 : Argon2) (b64 : Base64Engine) (config : AppConfig)

/-- A request is handled by its endpoint, after the extraction of the user where it has one. -/
def AuthRequest.handle : AuthRequest → Task HysjError (Option LoginResponse)
  | .register headers request => do
      let response ← Api.register jwt argon2 b64 config headers request
      return some response
  | .login headers request => do
      let response ← Api.login jwt argon2 config headers request
      return some response
  | .refresh request => do
      let response ← Api.refresh jwt config request
      return some response
  | .deleteDevice headers deviceId => do
      let auth ← fromRequestParts jwt config headers
      let _ ← Api.deleteDevice auth deviceId
      return none
  | .deleteAccount headers => do
      let auth ← fromRequestParts jwt config headers
      let _ ← Api.deleteAccount auth
      return none

/-- The token is accepted for the user and the device. -/
def Names (now : Nat) (token : String) (u d : Uuid) : Prop :=
  ∃ claims, jwt.decode now token config.jwtSecret = .ok claims ∧
    Uuid.parseStr claims.sub = some u ∧ Uuid.parseStr claims.deviceId = some d

/-- Signatures cannot be forged: a token that is ever accepted has been handed out. -/
def Circulation.Genuine (c : Circulation) (token : String) : Prop :=
  ∀ now claims, jwt.decode now token config.jwtSecret = .ok claims → token ∈ c.minted

/-- Some token in circulation is accepted for the user and the device. -/
def Circulation.Valid (c : Circulation) (u d : Uuid) : Prop :=
  ∃ token ∈ c.minted, Names jwt config c.server.redis.now token u d

/-- Whatever user and device the extraction or the upgrade accepts, the device is the user's. -/
def Circulation.Bound (c : Circulation) : Prop :=
  (∀ headers auth s, (∀ token ∈ bearerToken headers, c.Genuine jwt config token) →
    Runs Any (fromRequestParts jwt config headers).run c.server (.ok auth) s →
    c.server.Owns auth.userId auth.deviceId) ∧
  ∀ params auth s, (∀ token ∈ params "token", c.Genuine jwt config token) →
    Runs Any (wsUpgrade jwt config params).run c.server (.ok auth) s →
    c.server.Owns auth.userId auth.deviceId

/-- Requests one after the other, each with what was true before it, and the time between them. -/
inductive Circulates (meets : Circulation → AuthRequest → Prop) : Circulation → Prop where
  | start (server : Server) : Circulates meets ⟨server, []⟩
  | request {c : Circulation} {result : Except HysjError (Option LoginResponse)} {s : Server}
      (before : Circulates meets c) (request : AuthRequest)
      (genuine : ∀ token ∈ request.token, c.Genuine jwt config token) (met : meets c request)
      (run : Runs Any (request.handle jwt argon2 b64 config).run c.server result s) :
      Circulates meets ⟨s, c.minted ++ handedOut result⟩
  | wait {c : Circulation} (before : Circulates meets c) (seconds : Nat) :
      Circulates meets ⟨c.server.wait seconds, c.minted⟩

/-- A login with the right password names no device of another user, and no token in circulation
is accepted for a device that is deleted. -/
def Rightful (c : Circulation) : AuthRequest → Prop
  | .login _ request => ∀ user,
      c.server.db.users.find? (fun row => row.phoneNumber = request.phoneNumber) = some user →
      verifyPassword argon2 request.password user.passwordHash = .ok true →
      user.has2faEnabled = false → ∀ d ∈ request.deviceId,
      (∃ row ∈ c.server.db.devices, row.id = d) → c.server.Owns user.id d
  | .deleteDevice headers d => ∀ token ∈ bearerToken headers, ∀ user own,
      Names jwt config c.server.redis.now token user own → d ≠ own → ¬ c.Valid jwt config user d
  | .deleteAccount headers => ∀ token ∈ bearerToken headers, ∀ user own,
      Names jwt config c.server.redis.now token user own → ∀ d, ¬ c.Valid jwt config user d
  | _ => True

end

section

variable {ε α : Type} {s s' : Server}

theorem runs_ofResult {result r : Except ε α} :
    Runs Any (ofResult result).run s r s' ↔ result = r ∧ s = s' := runs_pure

theorem runs_timestamp {r : Except ε Nat} :
    Runs Any (timestamp : Task ε Nat).run s r s' ↔ .ok s.redis.now = r ∧ s = s' := by
  simp only [timestamp, atomically, runs_run_lift, runs_act]
  constructor
  · rintro ⟨now, ⟨c, -, answer⟩, rfl⟩
    obtain ⟨rfl, rfl⟩ := Prod.mk.inj answer
    exact ⟨rfl, rfl⟩
  · rintro ⟨rfl, rfl⟩
    exact ⟨_, ⟨{}, trivial, rfl⟩, rfl⟩

theorem runs_random {r : Except ε Uuid} (run : Runs Any (random : Task ε Uuid).run s r s') :
    s = s' := by
  simp only [random, runs_run_lift, runs_act] at run
  obtain ⟨id, ⟨c, -, answer⟩, -⟩ := run
  exact (Prod.mk.inj answer).2

theorem runs_query_ok {statement : Nat → Db.Statement α} {a : α} :
    Runs Any (query statement).run s (.ok a) s' ↔
      (statement s.redis.now s.db).1 = .ok a ∧
        { s with db := (statement s.redis.now s.db).2 } = s' := by
  rw [query, runs_run_mk, runs_act]
  constructor
  · rintro ⟨c, -, answer⟩
    cases fault : c.fault with
    | some e =>
        rw [fault] at answer
        cases (Prod.mk.inj answer).1
    | none =>
        rw [fault] at answer
        exact Prod.mk.inj answer
  · rintro ⟨answer, rfl⟩
    exact ⟨{}, trivial, Prod.ext answer rfl⟩

theorem runs_checkRateLimit {key : String} {maxRequests window : Nat} {r : Except ε Bool}
    (run : Runs Any (checkRateLimit key maxRequests window : Task ε Bool).run s r s') :
    ∃ limits, s' = { s with rateLimiter := limits } := by
  simp only [checkRateLimit, atomically, runs_run_lift, runs_act] at run
  obtain ⟨passes, ⟨c, -, answer⟩, -⟩ := run
  split at answer
  · exact ⟨_, (Prod.mk.inj answer).2.symm⟩
  · exact ⟨_, (Prod.mk.inj answer).2.symm⟩

theorem keeps_query {G : Server → Server → Prop} {statement : Nat → Db.Statement α}
    (refl : ∀ s, G s s) (each : ∀ s, G s { s with db := (statement s.redis.now s.db).2 }) :
    Keeps G (query statement).run := by
  apply keeps_act
  intro c s
  split
  · exact refl s
  · exact each s

end

/-- Redis is left alone, and the rows of devices that satisfy the predicate stay. -/
structure Spares (P : Db.Device → Prop) (s s' : Server) : Prop where
  redis : s'.redis = s.redis
  rows : ∀ row ∈ s.db.devices, P row → row ∈ s'.db.devices

/-- Redis is left alone, and the rows of devices stay as they are. -/
structure SameRows (s s' : Server) : Prop where
  redis : s'.redis = s.redis
  rows : s'.db.devices = s.db.devices

section

variable {ε α : Type} {s s' : Server} {G : Server → Server → Prop} {P : Db.Device → Prop}

theorem sameRows_refl (s : Server) : SameRows s s := ⟨rfl, rfl⟩

theorem SameRows.trans {s m s' : Server} (first : SameRows s m) (second : SameRows m s') :
    SameRows s s' := ⟨second.redis.trans first.redis, second.rows.trans first.rows⟩

theorem SameRows.spares (same : SameRows s s') : Spares P s s' := by
  refine ⟨same.redis, fun row member _ => ?_⟩
  rw [same.rows]
  exact member

theorem Spares.trans {s m s' : Server} (first : Spares P s m) (second : Spares P m s') :
    Spares P s s' := by
  refine ⟨second.redis.trans first.redis, fun row member spared => ?_⟩
  exact second.rows row (first.rows row member spared) spared

theorem SameRows.owns (same : SameRows s s') (u d : Uuid) : s'.Owns u d ↔ s.Owns u d := by
  rw [Server.Owns, Server.Owns, same.rows]

theorem keeps_ofResult (result : Except ε α) : Keeps G (ofResult result).run := keeps_pure _

theorem keeps_timestamp (refl : ∀ s, G s s) : Keeps G (timestamp : Task ε Nat).run :=
  Keeps.lift (keeps_act fun _ s => refl s)

theorem keeps_random (refl : ∀ s, G s s) : Keeps G (random : Task ε Uuid).run :=
  Keeps.lift (keeps_act fun _ s => refl s)

theorem keeps_checkRateLimit (limit : ∀ s limits, G s { s with rateLimiter := limits })
    {key : String} {maxRequests window : Nat} :
    Keeps G (checkRateLimit key maxRequests window : Task ε Bool).run := by
  apply Keeps.lift
  apply keeps_act
  intro c s
  dsimp only
  split
  · exact limit s _
  · exact limit s _

theorem sameRows_checkRateLimit {key : String} {maxRequests window : Nat} :
    Keeps SameRows (checkRateLimit key maxRequests window : Task ε Bool).run :=
  keeps_checkRateLimit fun _ _ => ⟨rfl, rfl⟩

variable {jwt : Jwt} {argon2 : Argon2} {b64 : Base64Engine} {config : AppConfig}

theorem keeps_authenticate (refl : ∀ s, G s s) (token : String) :
    Keeps G (authenticate jwt config token).run := by
  refine Keeps.run_bind (keeps_timestamp refl) fun now => ?_
  refine Keeps.run_bind (keeps_ofResult _) fun claims => ?_
  split
  · exact keeps_pure _
  · exact keeps_pure _

theorem keeps_createTokens (refl : ∀ s, G s s) (u d : Uuid) (username : String) :
    Keeps G (createTokens jwt config u d username).run := by
  refine Keeps.run_bind (keeps_timestamp refl) fun now => ?_
  refine Keeps.run_bind (keeps_ofResult _) fun access => ?_
  refine Keeps.run_bind (keeps_timestamp refl) fun now => ?_
  exact Keeps.run_bind (keeps_ofResult _) fun refresh => keeps_pure _

theorem devices_createUser (user : Db.User) (t : Db.Tables) :
    (Db.createUser user t).2.devices = t.devices := by
  unfold Db.createUser
  split
  · rfl
  · split
    · rfl
    · split <;> rfl

theorem devices_updateLastSeen (u : Uuid) (now : Nat) (t : Db.Tables) :
    (Db.updateLastSeen u now t).2.devices = t.devices := by
  unfold Db.updateLastSeen Db.updateUser
  split <;> rfl

theorem devices_recordAttempt (ip : String) (u : Option Uuid) (success : Bool) (now : Nat)
    (t : Db.Tables) : (Db.recordAttempt ip u success now t).2.devices = t.devices := by
  obtain ⟨rows, serial, after⟩ := Db.recordAttempt_snd ip u success now t
  rw [after]

theorem findDeviceById_snd (d : Uuid) (t : Db.Tables) : (Db.findDeviceById d t).2 = t := by
  unfold Db.findDeviceById
  split <;> rfl

theorem findOneDeviceForUser_snd (u : Uuid) (t : Db.Tables) :
    (Db.findOneDeviceForUser u t).2 = t := by
  unfold Db.findOneDeviceForUser
  split <;> rfl

theorem devices_registerDevice (device : Db.Device) (t : Db.Tables) :
    t.devices ⊆ (Db.registerDevice device t).2.devices := by
  unfold Db.registerDevice
  split
  · exact List.Subset.refl _
  · split
    · exact List.subset_append_left _ _
    · exact List.Subset.refl _

theorem keeps_createUser (refl : ∀ s, G s s)
    (each : ∀ s user, G s { s with db := (Db.createUser user s.db).2 }) (request : RegisterRequest)
    (username : String) : Keeps G (createUser argon2 b64 request username).run := by
  refine Keeps.run_bind (keeps_random refl) fun salt => ?_
  refine Keeps.run_bind (keeps_ofResult _) fun hashed => ?_
  refine Keeps.run_bind (keeps_ofResult _) fun key => ?_
  refine Keeps.run_bind (keeps_random refl) fun id => ?_
  exact (keeps_query refl fun s => each s _).adapt

theorem keeps_registerDevice (refl : ∀ s, G s s)
    (each : ∀ s device, G s { s with db := (Db.registerDevice device s.db).2 })
    (request : RegisterRequest) (u : Uuid) : Keeps G (registerDevice b64 request u).run := by
  refine Keeps.run_bind (keeps_ofResult _) fun key => ?_
  refine Keeps.run_bind (keeps_ofResult _) fun signature => ?_
  refine Keeps.run_bind (keeps_ofResult _) fun kyber => ?_
  refine Keeps.run_bind (keeps_random refl) fun id => ?_
  exact (keeps_query refl fun s => each s _).adapt

theorem keeps_storeKeys {d : Uuid} (refl : ∀ s, G s s)
    (each : ∀ s key, G s { s with db := (Db.storePreKey d key s.db).2 }) (keys : List Bytes) :
    Keeps G (forM keys fun key => query fun _ => Db.storePreKey d key : Task DbError PUnit).run :=
  Keeps.run_forM fun key _ => keeps_query refl fun s => each s key

theorem keeps_storePreKeys {d : Uuid} (refl : ∀ s, G s s)
    (each : ∀ s key, G s { s with db := (Db.storePreKey d key s.db).2 })
    (request : RegisterRequest) : Keeps G (storePreKeys b64 request d).run :=
  Keeps.run_bind (keeps_ofResult _) fun keys => (keeps_storeKeys refl each keys).adapt

theorem sameRows_storePreKeys (request : RegisterRequest) (d : Uuid) :
    Keeps SameRows (storePreKeys b64 request d).run := by
  apply keeps_storePreKeys sameRows_refl
  intro s key
  obtain ⟨rows, serial, same⟩ := Db.storePreKey_snd d key s.db
  rw [same]
  exact ⟨rfl, rfl⟩

/-- All that a registration may write: rate limits, a user, a device, and keys of a device. -/
structure RegisterWrites (G : Server → Server → Prop) : Prop where
  refl : ∀ s, G s s
  limit : ∀ s limits, G s { s with rateLimiter := limits }
  user : ∀ s user, G s { s with db := (Db.createUser user s.db).2 }
  device : ∀ s device, G s { s with db := (Db.registerDevice device s.db).2 }
  preKey : ∀ s d key, G s { s with db := (Db.storePreKey d key s.db).2 }

theorem RegisterWrites.register (writes : RegisterWrites G) (headers : HeaderMap)
    (request : RegisterRequest) : Keeps G (register jwt argon2 b64 config headers request).run := by
  refine Keeps.run_bind (keeps_checkRateLimit writes.limit) fun passes => ?_
  split
  · refine Keeps.run_bind (keeps_ofResult _) fun username => ?_
    refine Keeps.run_bind (keeps_createUser writes.refl writes.user _ _) fun user => ?_
    refine Keeps.run_bind (keeps_registerDevice writes.refl writes.device _ _) fun device => ?_
    refine Keeps.run_bind
      (keeps_storePreKeys writes.refl (fun s key => writes.preKey s _ key) _) fun _ => ?_
    exact Keeps.run_bind (keeps_createTokens writes.refl _ _ _) fun tokens => keeps_pure _
  · exact keeps_pure _

theorem spares_registerWrites : RegisterWrites (Spares P) := by
  have same (s : Server) (t : Db.Tables) (rows : t.devices = s.db.devices) :
      Spares P s { s with db := t } := SameRows.spares ⟨rfl, rows⟩
  exact ⟨fun s => same s s.db rfl, fun s _ => SameRows.spares ⟨rfl, rfl⟩,
    fun s _ => same s _ (devices_createUser _ _),
    fun s _ => ⟨rfl, fun row member _ => devices_registerDevice _ _ member⟩,
    fun s _ _ => same s _ Db.devices_storePreKey⟩

theorem spares_register (headers : HeaderMap) (request : RegisterRequest) :
    Keeps (Spares P) (register jwt argon2 b64 config headers request).run :=
  spares_registerWrites.register headers request

/-- All that a login may write: rate limits, login attempts, and when a user was last seen. -/
structure LoginWrites (G : Server → Server → Prop) : Prop where
  refl : ∀ s, G s s
  limit : ∀ s limits, G s { s with rateLimiter := limits }
  attempt : ∀ s ip userId success now,
    G s { s with db := (Db.recordAttempt ip userId success now s.db).2 }
  seen : ∀ s u now, G s { s with db := (Db.updateLastSeen u now s.db).2 }

theorem LoginWrites.read (writes : LoginWrites G) {statement : Nat → Db.Statement α}
    (reads : ∀ now t, (statement now t).2 = t) : Keeps G (query statement).run := by
  refine keeps_query writes.refl fun s => ?_
  rw [reads]
  exact writes.refl s

theorem LoginWrites.loginDevice (writes : LoginWrites G) (request : LoginRequest) (user : Db.User) :
    Keeps G (loginDevice request user).run := by
  unfold Api.loginDevice
  split
  · exact (writes.read fun _ => findDeviceById_snd _).adapt
  · exact (writes.read fun _ => findOneDeviceForUser_snd _).adapt

theorem LoginWrites.loginUser (writes : LoginWrites G) (ip : String) (request : LoginRequest)
    (user : Db.User) : Keeps G (loginUser jwt argon2 config ip request user).run := by
  have records (success : Bool) : Keeps G (ExceptT.adapt HysjError.ofDb
      (query fun now => Db.recordAttempt ip (some user.id) success now)).run :=
    (keeps_query writes.refl fun s => writes.attempt s _ _ _ _).adapt
  refine Keeps.run_bind (keeps_ofResult _) fun valid => ?_
  split
  · refine Keeps.run_bind (records true) fun _ => ?_
    split
    · exact keeps_pure _
    · refine Keeps.run_bind (writes.loginDevice _ _) fun device => ?_
      refine Keeps.run_bind (keeps_createTokens writes.refl _ _ _) fun tokens => ?_
      refine Keeps.run_bind (keeps_query writes.refl fun s => writes.seen s _ _).adapt fun _ => ?_
      exact keeps_pure _
  · exact Keeps.run_bind (records false) fun _ => keeps_pure _

theorem LoginWrites.login (writes : LoginWrites G) (headers : HeaderMap) (request : LoginRequest) :
    Keeps G (login jwt argon2 config headers request).run := by
  refine Keeps.run_bind (keeps_checkRateLimit writes.limit) fun passes => ?_
  split
  · refine Keeps.run_bind (writes.read fun _ _ => rfl).adapt fun failures => ?_
    split
    · exact keeps_pure _
    · refine Keeps.run_bind (writes.read fun _ _ => rfl).adapt fun user => ?_
      split
      · exact writes.loginUser _ _ _
      · exact keeps_pure _
  · exact keeps_pure _

theorem sameRows_loginWrites : LoginWrites SameRows :=
  ⟨sameRows_refl, fun _ _ => ⟨rfl, rfl⟩, fun _ _ _ _ _ => ⟨rfl, devices_recordAttempt _ _ _ _ _⟩,
    fun _ _ _ => ⟨rfl, devices_updateLastSeen _ _ _⟩⟩

theorem sameRows_login (headers : HeaderMap) (request : LoginRequest) :
    Keeps SameRows (login jwt argon2 config headers request).run :=
  sameRows_loginWrites.login headers request

theorem keeps_refresh (refl : ∀ s, G s s) (request : RefreshRequest) :
    Keeps G (refresh jwt config request).run := by
  refine Keeps.run_bind (keeps_authenticate refl _) fun auth => ?_
  exact Keeps.run_bind (keeps_createTokens refl _ _ _) fun tokens => keeps_pure _

theorem sameRows_refresh (request : RefreshRequest) :
    Keeps SameRows (refresh jwt config request).run := keeps_refresh sameRows_refl request

theorem keeps_fromRequestParts (refl : ∀ s, G s s) (headers : HeaderMap) :
    Keeps G (fromRequestParts jwt config headers).run := by
  unfold fromRequestParts
  split
  · exact keeps_pure _
  · split
    · exact keeps_pure _
    · exact keeps_authenticate refl _

theorem keeps_deleteDevice (refl : ∀ s, G s s) {auth : AuthUser} {d : Uuid}
    (deletes : d ≠ auth.deviceId → ∀ s, G s (s.after (Db.deleteDevice d auth.userId)))
    (offline : ∀ s, G s { s with connections := Function.update s.connections d none }) :
    Keeps G (deleteDevice auth d).run := by
  unfold deleteDevice
  split
  · exact keeps_pure _
  · rename_i other
    refine Keeps.run_bind (Keeps.adapt (keeps_query refl (deletes other))) fun deleted => ?_
    split
    · exact Keeps.run_bind (Keeps.lift (keeps_act fun _ => offline)) fun _ => keeps_pure _
    · exact keeps_pure _

/-- A deletion removes the one row that has the user and the device, unless it is the device in
use. -/
theorem spares_deleteDevice (auth : AuthUser) (d : Uuid) :
    Keeps (Spares fun row => d ≠ auth.deviceId → ¬ (row.id = d ∧ row.userId = auth.userId))
      (deleteDevice auth d).run := by
  apply keeps_deleteDevice (fun s => (sameRows_refl s).spares)
  · intro other s
    refine ⟨rfl, fun row member spared => ?_⟩
    unfold Server.after Db.deleteDevice
    split
    · exact List.mem_filter.mpr ⟨member, decide_eq_true (spared other)⟩
    · exact member
  · exact fun s => ⟨rfl, fun row member _ => member⟩

theorem spares_deleteAccount (auth : AuthUser) :
    Keeps (Spares fun row => row.userId ≠ auth.userId) (deleteAccount auth).run := by
  have refl (s : Server) : Spares (fun row => row.userId ≠ auth.userId) s s :=
    (sameRows_refl s).spares
  refine Keeps.run_bind (Keeps.adapt (keeps_query refl fun s => ⟨rfl, ?_⟩)) fun _ => keeps_pure _
  intro row member spared
  unfold Db.deleteUser
  split
  · split
    · exact member
    · exact List.mem_filter.mpr ⟨member, decide_eq_true spared⟩
  · exact member

end

section

variable (jwt : Jwt) (config : AppConfig)

/-- The token was made for the user and the device, until a time. -/
def Minted (token : String) (u d : Uuid) (exp : Nat) : Prop :=
  ∃ claims, jwt.encode claims config.jwtSecret = .ok token ∧ claims.sub = u.display ∧
    claims.deviceId = d.display ∧ claims.exp = exp

/-- Both tokens are for the user and the device, and have not expired. -/
def MintedFor (now : Nat) (u d : Uuid) (response : LoginResponse) : Prop :=
  ∀ token ∈ [response.accessToken, response.refreshToken],
    ∃ exp, now ≤ exp ∧ Minted jwt config token u d exp

end

section

variable {s s' : Server} {jwt : Jwt} {argon2 : Argon2} {b64 : Base64Engine} {config : AppConfig}
  {auth : AuthUser} {token : String} {u d : Uuid} {exp now : Nat} {response : LoginResponse}

theorem names_iff (lawful : jwt.Lawful) (minted : Minted jwt config token u d exp) {u' d' : Uuid} :
    Names jwt config now token u' d' ↔ now ≤ exp + LEEWAY ∧ u = u' ∧ d = d' := by
  obtain ⟨claims, encoded, sub, device, rfl⟩ := minted
  constructor
  · rintro ⟨claims', decoded, user, own⟩
    obtain ⟨current, rfl⟩ := (lawful.decode_eq_ok encoded).mp decoded
    rw [sub, Uuid.parseStr_display] at user
    rw [device, Uuid.parseStr_display] at own
    exact ⟨current, Option.some.inj user, Option.some.inj own⟩
  · rintro ⟨current, rfl, rfl⟩
    refine ⟨claims, (lawful.decode_eq_ok encoded).mpr ⟨current, rfl⟩, ?_, ?_⟩
    · rw [sub, Uuid.parseStr_display]
    · rw [device, Uuid.parseStr_display]

theorem runs_authenticate :
    Runs Any (authenticate jwt config token).run s (.ok auth) s' ↔
      s = s' ∧ ∃ claims, jwt.decode s.redis.now token config.jwtSecret = .ok claims ∧
        Uuid.parseStr claims.sub = some auth.userId ∧
        Uuid.parseStr claims.deviceId = some auth.deviceId ∧ claims.username = auth.username := by
  rw [authenticate]
  simp only [runs_run_bind_ok, runs_timestamp, runs_ofResult, Except.ok.injEq]
  constructor
  · rintro ⟨now, _, ⟨rfl, rfl⟩, claims, _, ⟨decoded, rfl⟩, rest⟩
    split at rest
    · rename_i user device sub own
      obtain ⟨same, rfl⟩ := runs_run_pure.mp rest
      obtain rfl := Except.ok.inj same
      rw [Result.mapError_eq_ok, validateToken_eq_ok] at decoded
      exact ⟨rfl, claims, decoded, sub, own, rfl⟩
    · cases (runs_run_throw.mp rest).1
  · rintro ⟨rfl, claims, decoded, sub, own, name⟩
    refine ⟨_, s, ⟨rfl, rfl⟩, claims, s, ⟨?_, rfl⟩, ?_⟩
    · rw [Result.mapError_eq_ok, validateToken_eq_ok]
      exact decoded
    · rw [sub, own]
      exact runs_run_pure.mpr ⟨by rw [name], rfl⟩

theorem runs_createTokens {username : String} {tokens : String × String}
    (run : Runs Any (createTokens jwt config u d username).run s (.ok tokens) s') :
    s = s' ∧ ∀ token ∈ [tokens.1, tokens.2],
      ∃ exp, s.redis.now ≤ exp ∧ Minted jwt config token u d exp := by
  simp only [createTokens, runs_run_bind_ok, runs_timestamp, runs_ofResult, runs_run_pure,
    Except.ok.injEq] at run
  obtain ⟨_, _, ⟨rfl, rfl⟩, access, _, ⟨first, rfl⟩, _, _, ⟨rfl, rfl⟩, refresh, _, ⟨second, rfl⟩,
    rfl, rfl⟩ := run
  rw [Result.mapError_eq_ok] at first second
  refine ⟨rfl, fun token member => ?_⟩
  rcases List.mem_pair.mp member with rfl | rfl
  · exact ⟨_, Nat.le_add_right _ _, _, createToken_eq_ok.mp first, rfl, rfl, rfl⟩
  · exact ⟨_, Nat.le_add_right _ _, _, createToken_eq_ok.mp second, rfl, rfl, rfl⟩

theorem runs_registerDevice {request : RegisterRequest} {device : Db.Device}
    (run : Runs Any (registerDevice b64 request u).run s (.ok device) s') :
    s'.Owns u device.id := by
  simp only [registerDevice, runs_run_bind_ok, runs_ofResult, runs_adapt_ok, runs_query_ok] at run
  obtain ⟨key, _, ⟨-, rfl⟩, signature, _, ⟨-, rfl⟩, kyber, _, ⟨-, rfl⟩, id, m,
      -, answer, rfl⟩ := run
  unfold Db.registerDevice at answer ⊢
  split at answer
  · cases answer
  · split at answer
    · rename_i fresh there
      rw [if_neg fresh, if_pos there]
      obtain rfl := Except.ok.inj answer
      exact ⟨_, List.mem_append_right _ List.mem_cons_self, rfl, rfl⟩
    · cases answer

theorem runs_register {headers : HeaderMap} {request : RegisterRequest}
    (run : Runs Any (register jwt argon2 b64 config headers request).run s (.ok response) s') :
    ∃ u d, s'.Owns u d ∧ MintedFor jwt config s'.redis.now u d response := by
  rw [register, runs_run_bind_ok] at run
  obtain ⟨passes, s₁, -, rest⟩ := run
  split at rest
  · simp only [runs_run_bind_ok, runs_ofResult, runs_run_pure, Except.ok.injEq] at rest
    obtain ⟨name, _, ⟨-, rfl⟩, user, s₂, -, device, s₃, registered, _, s₄,
        stored, tokens, _, created,
      rfl, rfl⟩ := rest
    obtain ⟨rfl, minted⟩ := runs_createTokens created
    have same := stored.keeps (sameRows_storePreKeys _ _) sameRows_refl fun _ _ _ => SameRows.trans
    exact ⟨user.id, device.id, (same.owns _ _).mpr (runs_registerDevice registered), minted⟩
  · cases (runs_run_throw.mp rest).1

theorem mem_of_mostRecent {rows : List Db.Device} {row : Db.Device}
    (found : Db.mostRecent rows = some row) : row ∈ rows := by
  induction rows generalizing row with
  | nil => cases found
  | cons first rows ih =>
      rw [Db.mostRecent] at found
      split at found
      · obtain rfl := Option.some.inj found
        exact List.mem_cons_self
      · rename_i other later
        split at found
        · obtain rfl := Option.some.inj found
          exact List.mem_cons_of_mem _ (ih later)
        · obtain rfl := Option.some.inj found
          exact List.mem_cons_self

/-- The device of a login: the one it names, whoever has it, or one of the user's. -/
theorem runs_loginDevice {request : LoginRequest} {user : Db.User} {device : Db.Device}
    (run : Runs Any (loginDevice request user).run s (.ok device) s') :
    device ∈ s.db.devices ∧ (∀ d ∈ request.deviceId, device.id = d) ∧
      (request.deviceId = none → device.userId = user.id) := by
  unfold loginDevice at run
  split at run
  · rename_i d named
    rw [runs_adapt_ok, runs_query_ok] at run
    have answer := run.1
    unfold Db.findDeviceById at answer
    split at answer
    · rename_i row found
      obtain rfl := Except.ok.inj answer
      have is := List.find?_some found
      simp only [named, Option.mem_def, Option.some.injEq, reduceCtorEq, false_implies, and_true]
      refine ⟨List.mem_of_find?_eq_some found, fun d' same => ?_⟩
      rw [← same]
      exact of_decide_eq_true is
    · cases answer
  · rename_i unnamed
    rw [runs_adapt_ok, runs_query_ok] at run
    have answer := run.1
    unfold Db.findOneDeviceForUser at answer
    split at answer
    · rename_i row found
      obtain rfl := Except.ok.inj answer
      obtain ⟨member, own⟩ := List.mem_filter.mp (mem_of_mostRecent found)
      refine ⟨member, fun d named => ?_, fun _ => of_decide_eq_true own⟩
      rw [unnamed] at named
      cases named
    · cases answer

/-- What a login comes to that a user passes: no tokens, or tokens for the user and a device. -/
def LoggedIn (jwt : Jwt) (config : AppConfig) (s : Server) (request : LoginRequest)
    (user : Db.User) (response : LoginResponse) : Prop :=
  user.has2faEnabled = true ∧ response.accessToken = "" ∧ response.refreshToken = "" ∨
    user.has2faEnabled = false ∧ ∃ device ∈ s.db.devices,
      (∀ d ∈ request.deviceId, device.id = d) ∧
      (request.deviceId = none → device.userId = user.id) ∧
      MintedFor jwt config s.redis.now user.id device.id response

theorem runs_loginUser {ip : String} {request : LoginRequest} {user : Db.User}
    (run : Runs Any (loginUser jwt argon2 config ip request user).run s (.ok response) s') :
    verifyPassword argon2 request.password user.passwordHash = .ok true ∧
      LoggedIn jwt config s request user response := by
  simp only [loginUser, runs_run_bind_ok, runs_ofResult] at run
  obtain ⟨valid, _, ⟨checked, rfl⟩, rest⟩ := run
  rw [Result.mapError_eq_ok] at checked
  split at rest
  · rename_i passes
    subst passes
    simp only [runs_run_bind_ok, runs_adapt_ok, runs_query_ok] at rest
    obtain ⟨_, _, ⟨-, rfl⟩, rest⟩ := rest
    refine ⟨checked, ?_⟩
    split at rest
    · rename_i secured
      obtain ⟨same, -⟩ := runs_run_pure.mp rest
      obtain rfl := Except.ok.inj same
      exact Or.inl ⟨secured, rfl, rfl⟩
    · rename_i open_
      simp only [runs_run_bind_ok, runs_run_pure, Except.ok.injEq] at rest
      obtain ⟨device, s₁, found, tokens, s₂, created, _, s₃, -, rfl, -⟩ := rest
      have same :=
        found.keeps (sameRows_loginWrites.loginDevice _ _) sameRows_refl fun _ _ _ => SameRows.trans
      obtain ⟨member, named, own⟩ := runs_loginDevice found
      rw [devices_recordAttempt] at member
      obtain ⟨-, minted⟩ := runs_createTokens created
      rw [same.redis] at minted
      exact Or.inr ⟨Bool.eq_false_of_not_eq_true open_, device, member, named, own, minted⟩
  · rw [runs_run_bind_ok] at rest
    obtain ⟨_, _, -, rest⟩ := rest
    cases (runs_run_throw.mp rest).1

theorem runs_login {headers : HeaderMap} {request : LoginRequest}
    (run : Runs Any (login jwt argon2 config headers request).run s (.ok response) s') :
    ∃ user, s.db.users.find? (fun row => row.phoneNumber = request.phoneNumber) = some user ∧
      verifyPassword argon2 request.password user.passwordHash = .ok true ∧
      LoggedIn jwt config s request user response := by
  simp only [login, runs_run_bind_ok] at run
  obtain ⟨passes, s₁, limited, rest⟩ := run
  obtain ⟨limits, rfl⟩ := runs_checkRateLimit limited
  split at rest
  · simp only [runs_run_bind_ok, runs_adapt_ok, runs_query_ok] at rest
    obtain ⟨failures, _, ⟨-, rfl⟩, rest⟩ := rest
    split at rest
    · cases (runs_run_throw.mp rest).1
    · simp only [runs_run_bind_ok, runs_adapt_ok, runs_query_ok] at rest
      obtain ⟨found, _, ⟨answer, rfl⟩, rest⟩ := rest
      split at rest
      · rename_i user
        have passed := runs_loginUser rest
        exact ⟨user, Except.ok.inj answer, passed⟩
      · cases (runs_run_throw.mp rest).1
  · cases (runs_run_throw.mp rest).1

theorem runs_refresh {request : RefreshRequest}
    (run : Runs Any (refresh jwt config request).run s (.ok response) s') :
    s = s' ∧ ∃ u d, Names jwt config s.redis.now request.refreshToken u d ∧
      MintedFor jwt config s.redis.now u d response := by
  simp only [refresh, runs_run_bind_ok, runs_authenticate, runs_run_pure, Except.ok.injEq] at run
  obtain ⟨auth, _, ⟨rfl, claims, decoded, sub, own, -⟩, tokens, _, created, rfl, rfl⟩ := run
  obtain ⟨rfl, minted⟩ := runs_createTokens created
  exact ⟨rfl, auth.userId, auth.deviceId, ⟨claims, decoded, sub, own⟩, minted⟩

theorem runs_presented {α : Type} {presented : Option String} {e : HysjError}
    {t : String → Task HysjError α} {a : α} :
    Runs Any (match presented with
      | none => throw e
      | some token => t token : Task HysjError α).run s (.ok a) s' ↔
      ∃ token ∈ presented, Runs Any (t token).run s (.ok a) s' := by
  cases presented with
  | none =>
      simp only [Option.mem_def, reduceCtorEq, false_and, exists_false, iff_false]
      intro run
      cases (runs_run_throw.mp run).1
  | some token => simp

theorem runs_fromRequestParts {headers : HeaderMap} :
    Runs Any (fromRequestParts jwt config headers).run s (.ok auth) s' ↔
      ∃ token ∈ bearerToken headers,
      Runs Any (authenticate jwt config token).run s (.ok auth) s' := by
  unfold fromRequestParts bearerToken
  refine runs_presented.trans ?_
  cases headers "authorization" with
  | none => simp
  | some header =>
      simp only [Option.bind_some, Option.mem_def, Option.some.injEq, exists_eq_left']
      exact runs_presented

theorem runs_wsUpgrade {params : String → Option String} :
    Runs Any (wsUpgrade jwt config params).run s (.ok auth) s' ↔
      ∃ token ∈ params "token", Runs Any (authenticate jwt config token).run s (.ok auth) s' :=
  runs_presented

/-- A request that needs a user fails, or is handled for the user its token names. -/
theorem runs_authorised {α : Type} {headers : HeaderMap} {t : AuthUser → Task HysjError α}
    {r : Except HysjError α}
    (run : Runs Any (fromRequestParts jwt config headers >>= t).run s r s') :
    (∃ e, r = .error e) ∧ s = s' ∨
      ∃ token ∈ bearerToken headers, ∃ auth,
        Names jwt config s.redis.now token auth.userId auth.deviceId ∧
        Runs Any (t auth).run s r s' := by
  rcases runs_run_bind.mp run with ⟨auth, m, extracted, rest⟩ | ⟨e, failed, ran⟩
  · obtain ⟨token, presented, accepted⟩ := runs_fromRequestParts.mp extracted
    obtain ⟨rfl, claims, decoded, sub, own, -⟩ := runs_authenticate.mp accepted
    exact Or.inr ⟨token, presented, auth, ⟨claims, decoded, sub, own⟩, rest⟩
  · have same : s = s' :=
      ran.keeps (keeps_fromRequestParts (fun _ => rfl) headers) (fun _ => rfl) fun _ _ _ => Eq.trans
    exact Or.inl ⟨⟨e, failed⟩, same⟩

theorem Names.unique {now : Nat} {token : String} {u d u' d' : Uuid}
    (names : Names jwt config now token u d)
    (names' : Names jwt config now token u' d') : u = u' ∧ d = d' := by
  obtain ⟨claims, decoded, sub, own⟩ := names
  obtain ⟨claims', decoded', sub', own'⟩ := names'
  rw [decoded] at decoded'
  obtain rfl := Except.ok.inj decoded'
  rw [sub] at sub'
  rw [own] at own'
  exact ⟨Option.some.inj sub', Option.some.inj own'⟩

theorem runs_handle_some {request : AuthRequest}
    (run : Runs Any (request.handle jwt argon2 b64 config).run s (.ok (some response)) s') :
    (∃ headers body, request = .register headers body ∧
      Runs Any (register jwt argon2 b64 config headers body).run s (.ok response) s') ∨
    (∃ headers body, request = .login headers body ∧
      Runs Any (login jwt argon2 config headers body).run s (.ok response) s') ∨
    ∃ body, request = .refresh body ∧ Runs Any (refresh jwt config body).run s
    (.ok response) s' := by
  cases request with
  | register headers body =>
      simp only [AuthRequest.handle, runs_run_bind_ok, runs_run_pure, Except.ok.injEq,
        Option.some.injEq] at run
      obtain ⟨_, _, run, rfl, rfl⟩ := run
      exact Or.inl ⟨headers, body, rfl, run⟩
  | login headers body =>
      simp only [AuthRequest.handle, runs_run_bind_ok, runs_run_pure, Except.ok.injEq,
        Option.some.injEq] at run
      obtain ⟨_, _, run, rfl, rfl⟩ := run
      exact Or.inr (Or.inl ⟨headers, body, rfl, run⟩)
  | refresh body =>
      simp only [AuthRequest.handle, runs_run_bind_ok, runs_run_pure, Except.ok.injEq,
        Option.some.injEq] at run
      obtain ⟨_, _, run, rfl, rfl⟩ := run
      exact Or.inr (Or.inr ⟨body, rfl, run⟩)
  | deleteDevice headers d =>
      simp only [AuthRequest.handle, runs_run_bind_ok, runs_run_pure, Except.ok.injEq,
        reduceCtorEq, false_and, and_false, exists_false] at run
  | deleteAccount headers =>
      simp only [AuthRequest.handle, runs_run_bind_ok, runs_run_pure, Except.ok.injEq,
        reduceCtorEq, false_and, and_false, exists_false] at run

theorem mem_handedOut {token : String} {result : Except HysjError (Option LoginResponse)}
    (member : token ∈ handedOut result) : ∃ response, result = .ok (some response) := by
  cases result with
  | error e => cases member
  | ok answer =>
      cases answer with
      | none => cases member
      | some response => exact ⟨response, rfl⟩

/-- A request with an accepted token that succeeds is handled for the user the token names. -/
theorem runs_authorised_ok {α β : Type} {headers : HeaderMap} {token : String} {u d : Uuid}
    {t : AuthUser → Task HysjError α} {answer b : β} (presented : token ∈ bearerToken headers)
    (names : Names jwt config s.redis.now token u d)
    (run : Runs Any (fromRequestParts jwt config headers >>= fun auth =>
      t auth >>= fun _ => pure b).run s (.ok answer) s') :
    ∃ auth a, auth.userId = u ∧ auth.deviceId = d ∧ Runs Any (t auth).run s (.ok a) s' := by
  rcases runs_authorised run with ⟨⟨e, failed⟩, -⟩ | ⟨token', presented', auth, names', handled⟩
  · cases failed
  · obtain rfl := Option.some.inj (presented.symm.trans presented')
    obtain ⟨rfl, rfl⟩ := names.unique names'
    simp only [runs_run_bind_ok, runs_run_pure] at handled
    obtain ⟨a, _, handled, -, rfl⟩ := handled
    exact ⟨auth, a, rfl, rfl, handled⟩

/-- A deletion that succeeds is one of another device of the user, and its row is gone. -/
theorem runs_deleteDevice {answer : Json.Value}
    (run : Runs Any (deleteDevice auth d).run s (.ok answer) s') :
    d ≠ auth.deviceId ∧ ¬ s'.Owns auth.userId d := by
  unfold deleteDevice at run
  split at run
  · cases (runs_run_throw.mp run).1
  · rename_i other
    refine ⟨other, ?_⟩
    simp only [runs_run_bind_ok, runs_adapt_ok, runs_query_ok] at run
    obtain ⟨deleted, _, ⟨answer, rfl⟩, rest⟩ := run
    split at rest
    · rename_i yes
      simp only [runs_run_bind_ok, runs_run_lift, disconnect, runs_act, runs_run_pure] at rest
      obtain ⟨_, _, ⟨_, ⟨c, -, moved⟩, -⟩, -, rfl⟩ := rest
      rw [← (Prod.mk.inj moved).2]
      rintro ⟨row, member, is⟩
      unfold Db.deleteDevice at answer member
      split at answer
      · rename_i there
        rw [if_pos there] at member
        exact of_decide_eq_true (List.mem_filter.mp member).2 is
      · rw [yes] at answer
        cases answer
    · cases (runs_run_throw.mp rest).1

theorem runs_deleteAccount {answer : Json.Value}
    (run : Runs Any (deleteAccount auth).run s (.ok answer) s') : ¬ s'.Owns auth.userId d := by
  simp only [deleteAccount, runs_run_bind_ok, runs_adapt_ok, runs_query_ok, runs_run_pure] at run
  obtain ⟨_, _, ⟨answer, rfl⟩, -, rfl⟩ := run
  rintro ⟨row, member, -, is⟩
  unfold Db.deleteUser at answer member
  split at answer
  · rename_i there
    rw [if_pos there] at member
    split at answer
    · cases answer
    · rename_i unreferenced
      rw [if_neg unreferenced] at member
      exact of_decide_eq_true (List.mem_filter.mp member).2 is
  · cases answer

end

section

variable (jwt : Jwt) (config : AppConfig)

/-- The token is empty, or it names a device of its user as long as it is accepted. -/
def Backed (s : Server) (token : String) : Prop :=
  token = "" ∨ ∃ u d exp, Minted jwt config token u d exp ∧
    (s.redis.now ≤ exp + LEEWAY → s.Owns u d)

def Circulation.Sound (c : Circulation) : Prop :=
  ∀ token ∈ c.minted, Backed jwt config c.server token

end

section

variable {c : Circulation} {s : Server} {jwt : Jwt} {argon2 : Argon2} {b64 : Base64Engine}
  {config : AppConfig} {u d : Uuid} {now : Nat} {token : String} {P : Db.Device → Prop}
  {request : AuthRequest} {result : Except HysjError (Option LoginResponse)}
  {response : LoginResponse}

/-- A token is accepted where it is put into the header or the parameters. -/
theorem bound_iff : c.Bound jwt config ↔ ∀ u d, c.Valid jwt config u d → c.server.Owns u d := by
  have accepted {token : String} {auth : AuthUser} {s : Server}
      (genuine : c.Genuine jwt config token)
      (run : Runs Any (authenticate jwt config token).run c.server (.ok auth) s) :
      c.Valid jwt config auth.userId auth.deviceId := by
    obtain ⟨-, claims, decoded, sub, own, -⟩ := runs_authenticate.mp run
    exact ⟨token, genuine _ _ decoded, claims, decoded, sub, own⟩
  constructor
  · rintro bound u d ⟨token, member, claims, decoded, sub, own⟩
    apply bound.2 (fun _ => some token) ⟨u, d, claims.username⟩ c.server
    · rintro _ ⟨⟩ _ _ _
      exact member
    · exact runs_wsUpgrade.mpr ⟨token, rfl, runs_authenticate.mpr
        ⟨rfl, claims, decoded, sub, own, rfl⟩⟩
  · intro owns
    constructor
    · intro headers auth s genuine run
      obtain ⟨token, presented, run⟩ := runs_fromRequestParts.mp run
      exact owns _ _ (accepted (genuine token presented) run)
    · intro params auth s genuine run
      obtain ⟨token, presented, run⟩ := runs_wsUpgrade.mp run
      exact owns _ _ (accepted (genuine token presented) run)

theorem Circulation.Sound.owns (lawful : jwt.Lawful) (sound : c.Sound jwt config)
    (valid : c.Valid jwt config u d) : c.server.Owns u d := by
  obtain ⟨token, member, named⟩ := valid
  rcases sound token member with rfl | ⟨u', d', exp, minted, owns⟩
  · obtain ⟨claims, decoded, -⟩ := named
    exact absurd decoded (lawful.decode_empty _ _ _)
  · obtain ⟨current, rfl, rfl⟩ := (names_iff lawful minted).mp named
    exact owns current

/-- What rows a step has to spare for the tokens that were there. -/
theorem Circulation.Sound.spared (lawful : jwt.Lawful) (sound : c.Sound jwt config)
    (spares : Spares P c.server s)
    (safe : ∀ row, c.Valid jwt config row.userId row.id → P row) :
    ∀ token ∈ c.minted, Backed jwt config s token := by
  intro token member
  rcases sound token member with empty | ⟨u, d, exp, minted, owns⟩
  · exact Or.inl empty
  · refine Or.inr ⟨u, d, exp, minted, fun current => ?_⟩
    rw [spares.redis] at current
    obtain ⟨row, listed, rfl, rfl⟩ := owns current
    refine ⟨row, spares.rows row listed (safe row ⟨token, member, ?_⟩), rfl, rfl⟩
    exact (names_iff lawful minted).mpr ⟨current, rfl, rfl⟩

theorem Circulation.Sound.wait (sound : c.Sound jwt config) (seconds : Nat) :
    Circulation.Sound jwt config ⟨c.server.wait seconds, c.minted⟩ := by
  intro token member
  rcases sound token member with empty | ⟨u, d, exp, minted, owns⟩
  · exact Or.inl empty
  · refine Or.inr ⟨u, d, exp, minted, fun current => ?_⟩
    have before : c.server.redis.now ≤ exp + LEEWAY := Nat.le_trans (Nat.le_add_right _ _) current
    exact owns before

theorem MintedFor.backed (minted : MintedFor jwt config now u d response) (owns : s.Owns u d) :
    ∀ token ∈ handedOut (.ok (some response)), Backed jwt config s token := by
  intro token member
  obtain ⟨exp, -, made⟩ := minted token member
  exact Or.inr ⟨u, d, exp, made, fun _ => owns⟩

theorem sound_old (lawful : jwt.Lawful) (sound : c.Sound jwt config)
    (rightful : Rightful jwt argon2 config c request)
    (run : Runs Any (request.handle jwt argon2 b64 config).run c.server result s) :
    ∀ token ∈ c.minted, Backed jwt config s token := by
  have all (keeps : Keeps (Spares fun _ => True) (request.handle jwt argon2 b64 config).run) :
      ∀ token ∈ c.minted, Backed jwt config s token :=
    sound.spared lawful
      (run.keeps keeps (fun s => (sameRows_refl s).spares) fun _ _ _ => Spares.trans)
      fun _ _ => trivial
  have spares {s s' : Server} (same : SameRows s s') : Spares (fun _ => True) s s' := same.spares
  cases request with
  | register headers request =>
      exact all (Keeps.run_bind (spares_register _ _) fun _ => keeps_pure _)
  | login headers request =>
      refine all (Keeps.run_bind ?_ fun _ => keeps_pure _)
      exact (sameRows_login _ _).mono fun _ _ => spares
  | refresh request =>
      refine all (Keeps.run_bind ?_ fun _ => keeps_pure _)
      exact (sameRows_refresh _).mono fun _ _ => spares
  | deleteDevice headers d =>
      rcases runs_authorised run with ⟨-, rfl⟩ | ⟨token, presented, auth, named, run⟩
      · exact sound
      · have keeps := (spares_deleteDevice auth d).run_bind fun _ =>
          (keeps_pure (.ok (none : Option LoginResponse)) : Keeps _ _)
        refine sound.spared lawful
          (run.keeps keeps (fun s => (sameRows_refl s).spares) fun _ _ _ => Spares.trans) ?_
        rintro row valid other ⟨rfl, is⟩
        rw [is] at valid
        exact rightful token presented _ _ named other valid
  | deleteAccount headers =>
      rcases runs_authorised run with ⟨-, rfl⟩ | ⟨token, presented, auth, named, run⟩
      · exact sound
      · have keeps := (spares_deleteAccount auth).run_bind fun _ =>
          (keeps_pure (.ok (none : Option LoginResponse)) : Keeps _ _)
        refine sound.spared lawful
          (run.keeps keeps (fun s => (sameRows_refl s).spares) fun _ _ _ => Spares.trans) ?_
        intro row valid is
        rw [is] at valid
        exact rightful token presented _ _ named _ valid

theorem sound_new (lawful : jwt.Lawful) (sound : c.Sound jwt config)
    (genuine : ∀ token ∈ request.token, c.Genuine jwt config token)
    (rightful : Rightful jwt argon2 config c request)
    (run : Runs Any (request.handle jwt argon2 b64 config).run c.server (.ok (some response)) s) :
    ∀ token ∈ handedOut (.ok (some response)), Backed jwt config s token := by
  rcases runs_handle_some run with ⟨headers, body, rfl, ran⟩ | ⟨headers, body, rfl, ran⟩ |
    ⟨body, rfl, ran⟩
  · obtain ⟨u, d, owns, minted⟩ := runs_register ran
    exact minted.backed owns
  · have same := ran.keeps (sameRows_login _ _) sameRows_refl fun _ _ _ => SameRows.trans
    obtain ⟨user, found, checked,
        ⟨-, access, refresh⟩ | ⟨open_, device, member, named, own, minted⟩⟩ :=
      runs_login ran
    · intro token member
      rcases List.mem_pair.mp member with rfl | rfl
      · exact Or.inl access
      · exact Or.inl refresh
    · apply minted.backed
      rw [same.owns]
      cases is : body.deviceId with
      | none => exact ⟨device, member, rfl, own is⟩
      | some d =>
          obtain rfl := named d is
          exact rightful user found checked open_ _ is ⟨device, member, rfl⟩
  · obtain ⟨rfl, u, d, named, minted⟩ := runs_refresh ran
    obtain ⟨claims, decoded, -⟩ := id named
    exact minted.backed (sound.owns lawful ⟨_, genuine _ rfl _ _ decoded, named⟩)

theorem Circulates.sound (lawful : jwt.Lawful)
    (run : Circulates jwt argon2 b64 config (Rightful jwt argon2 config) c) :
    c.Sound jwt config := by
  induction run with
  | start server =>
      intro token member
      cases member
  | @request c result s _ request genuine rightful run ih =>
      intro token member
      rcases List.mem_append.mp member with old | new
      · exact sound_old lawful ih rightful run token old
      · obtain ⟨response, rfl⟩ := mem_handedOut new
        exact sound_new lawful ih genuine rightful run token new
  | wait _ seconds ih => exact ih.wait seconds

theorem Circulation.Valid.after {tokens : List String} (valid : c.Valid jwt config u d)
    (same : s.redis = c.server.redis) :
    Circulation.Valid jwt config ⟨s, c.minted ++ tokens⟩ u d := by
  obtain ⟨token, member, names⟩ := valid
  refine ⟨token, List.mem_append_left _ member, ?_⟩
  rw [same]
  exact names

theorem not_bound_of_login (lawful : jwt.Lawful) {headers : HeaderMap} {request : LoginRequest}
    (wrongful : ¬ Rightful jwt argon2 config c (.login headers request))
    (run : Runs Any (login jwt argon2 config headers request).run c.server (.ok response) s) :
    ¬ Circulation.Bound jwt config ⟨s, c.minted ++ handedOut (.ok (some response))⟩ := by
  intro bound
  apply wrongful
  intro user found checked open_ d named exists_
  have same := run.keeps (sameRows_login _ _) sameRows_refl fun _ _ _ => SameRows.trans
  obtain ⟨user', found', -, secured | ⟨-, device, -, is, -, minted⟩⟩ := runs_login run
  · rw [found] at found'
    obtain rfl := Option.some.inj found'
    rw [open_] at secured
    cases secured.1
  · rw [found] at found'
    obtain rfl := Option.some.inj found'
    obtain rfl := is d named
    rw [← same.owns]
    apply bound_iff.mp bound
    obtain ⟨exp, current, made⟩ := minted response.accessToken List.mem_cons_self
    refine ⟨response.accessToken, List.mem_append_right _ List.mem_cons_self, ?_⟩
    rw [same.redis]
    exact (names_iff lawful made).mpr ⟨Nat.le_trans current (Nat.le_add_right _ _), rfl, rfl⟩

/-- After a request that succeeds against the rule, a token names a device that is not its
user's. -/
theorem not_bound_of_wrongful (lawful : jwt.Lawful) {answer : Option LoginResponse}
    (wrongful : ¬ Rightful jwt argon2 config c request)
    (run : Runs Any (request.handle jwt argon2 b64 config).run c.server (.ok answer) s) :
    ¬ Circulation.Bound jwt config ⟨s, c.minted ++ handedOut (.ok answer)⟩ := by
  cases request with
  | register headers request => exact absurd trivial wrongful
  | login headers request =>
      simp only [AuthRequest.handle, runs_run_bind_ok, runs_run_pure, Except.ok.injEq] at run
      obtain ⟨response, _, run, rfl, rfl⟩ := run
      exact not_bound_of_login lawful wrongful run
  | refresh request => exact absurd trivial wrongful
  | deleteDevice headers d =>
      intro bound
      apply wrongful
      intro token presented user own names other valid
      obtain ⟨auth, _, rfl, rfl, deleted⟩ := runs_authorised_ok presented names run
      have spares := deleted.keeps (spares_deleteDevice auth d) (fun s => (sameRows_refl s).spares)
        fun _ _ _ => Spares.trans
      exact (runs_deleteDevice deleted).2 (bound_iff.mp bound _ _ (valid.after spares.redis))
  | deleteAccount headers =>
      intro bound
      apply wrongful
      intro token presented user own names d valid
      obtain ⟨auth, _, rfl, rfl, deleted⟩ := runs_authorised_ok presented names run
      have spares := deleted.keeps (spares_deleteAccount auth) (fun s => (sameRows_refl s).spares)
        fun _ _ _ => Spares.trans
      exact runs_deleteAccount deleted (bound_iff.mp bound _ _ (valid.after spares.redis))

end

/-- As long as every request meets the rule, whatever is accepted from a token names a device of
its user; after a request that succeeds against it, something else is accepted. -/
theorem bound_of_rightful {jwt : Jwt} (lawful : jwt.Lawful) (argon2 : Argon2) (b64 : Base64Engine)
    (config : AppConfig) :
    (∀ c, Circulates jwt argon2 b64 config (Rightful jwt argon2 config) c → c.Bound jwt config) ∧
    ∀ c request answer s, ¬ Rightful jwt argon2 config c request →
      Runs Any (AuthRequest.handle jwt argon2 b64 config request).run c.server (.ok answer) s →
      ¬ Circulation.Bound jwt config ⟨s, c.minted ++ handedOut (.ok answer)⟩ := by
  constructor
  · intro c run
    exact bound_iff.mpr fun _ _ valid => (run.sound lawful).owns lawful valid
  · intro c request answer s wrongful run
    exact not_bound_of_wrongful lawful wrongful run

/-- A registration with keys that can be decoded. -/
def registration (username phoneNumber password : String) : RegisterRequest where
  username := some username
  phoneNumber := phoneNumber
  password := password
  identityPublicKey := "AAAA"
  signedPreKey := "AAAA"
  signedPreKeySignature := "AAAA"
  kyberPublicKey := "AAAA"
  oneTimePreKeys := []
  deviceName := "phone"

/-- Whatever a request draws is the same sixteen bytes, and nothing fails. -/
def drawing (byte : UInt8) : List Chance :=
  List.replicate 12 { uuid := .replicate 16 byte }

theorem may_any (chances : List Chance) : ∀ c ∈ chances, ∀ s : Server, Any c s :=
  fun _ _ _ => trivial

theorem Circulates.drawing {jwt : Jwt} {argon2 : Argon2} {b64 : Base64Engine} {config : AppConfig}
    {meets : Circulation → AuthRequest → Prop} {c : Circulation} {answer : Option LoginResponse}
    {s : Server} (before : Circulates jwt argon2 b64 config meets c) (byte : UInt8)
    (request : AuthRequest) (anonymous : request.token = none) (met : meets c request)
    (ran : exec (drawing byte) (request.handle jwt argon2 b64 config).run c.server =
      some (.ok answer, s)) :
    Circulates jwt argon2 b64 config meets ⟨s, c.minted ++ handedOut (.ok answer)⟩ := by
  refine before.request request ?_ met (runs_of_exec (may_any _) ran)
  intro token presented
  rw [anonymous] at presented
  cases presented

/-- The tokens of Alice's registration. -/
theorem bound_of_rightful_registered : ∃ c : Circulation,
    Circulates .sample .sample .sample ⟨none, "secret"⟩
    (Rightful .sample .sample ⟨none, "secret"⟩) c ∧
      c.minted.length = 2 ∧ c.Bound .sample ⟨none, "secret"⟩ := by
  have start : Circulates .sample .sample .sample ⟨none, "secret"⟩
    (Rightful .sample .sample ⟨none, "secret"⟩) _ := .start (.start 0 {})
  have run := start.drawing 1
    (.register (fun _ => none) (registration "alice" "+4711111111" "password1")) rfl trivial rfl
  exact ⟨_, run, rfl,
    (bound_of_rightful Jwt.sample_lawful .sample .sample ⟨none, "secret"⟩).1 _ run⟩

theorem Circulates.wrongful {jwt : Jwt} (lawful : jwt.Lawful) {argon2 : Argon2}
    {b64 : Base64Engine} {config : AppConfig} {meets : Circulation → AuthRequest → Prop}
    {c : Circulation} {answer : Option LoginResponse} {s : Server}
    (before : Circulates jwt argon2 b64 config meets c) (byte : UInt8) (request : AuthRequest)
    (anonymous : request.token = none) (met : meets c request)
    (ran : exec (Api.drawing byte) (request.handle jwt argon2 b64 config).run c.server =
      some (.ok answer, s))
    (breaks : ¬ Rightful jwt argon2 config c request) :
    ∃ c, Circulates jwt argon2 b64 config meets c ∧ ¬ c.Bound jwt config :=
  ⟨_, before.drawing byte request anonymous met ran,
    not_bound_of_wrongful lawful breaks (runs_of_exec (may_any _) ran)⟩

/-- Alice and Bob register. Then Bob logs in with his password and the id of Alice's phone. -/
theorem login_binds_foreign : ∃ c : Circulation,
    Circulates .sample .sample .sample ⟨none, "secret"⟩ (fun _ _ => True) c ∧
      ¬ c.Bound .sample ⟨none, "secret"⟩ := by
  have start : Circulates .sample .sample .sample ⟨none, "secret"⟩ (fun _ _ => True) _ :=
    .start (.start 0 {})
  have alice := start.drawing 1
    (.register (fun _ => none) (registration "alice" "+4711111111" "password1")) rfl trivial rfl
  have bob := alice.drawing 2
    (.register (fun _ => none) (registration "bob" "+4722222222" "password2")) rfl trivial rfl
  refine bob.wrongful Jwt.sample_lawful 2 (.login (fun _ => none)
    ⟨"+4722222222", "password2", some (.replicate 16 1)⟩) rfl trivial rfl ?_
  intro rightful
  obtain ⟨row, member, phone, bobs⟩ := rightful _ rfl rfl rfl _ rfl ⟨_, List.mem_cons_self, rfl⟩
  have differ : (.replicate 16 1 : Uuid) ≠ .replicate 16 2 := by decide
  rcases List.mem_pair.mp member with rfl | rfl
  · exact differ bobs
  · exact differ phone.symm

end Hysj.Api
