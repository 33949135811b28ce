import Hysj.Api.Tokens

set_option autoImplicit false

/- What a registration that fails leaves behind. -/
namespace Hysj.Api

open Crypto Shared Auth Messaging Program

/-- Each decision is one of these, whatever the state. -/
abbrev Under (p : Chance → Prop) : Chance → Server → Prop := fun c _ => p c

/-- The tables that a registration writes to are the same. -/
structure SameAccounts (s s' : Server) : Prop where
  users : s'.db.users = s.db.users
  devices : s'.db.devices = s.db.devices
  preKeys : s'.db.preKeys = s.db.preKeys

/-- No user and no device has the id. -/
def Server.Unused (s : Server) (id : Uuid) : Prop :=
  (∀ row ∈ s.db.users, row.id ≠ id) ∧ ∀ row ∈ s.db.devices, row.id ≠ id

/-- Whatever fails, no drawn id was in use at the start. -/
def NewIds (s : Server) (c : Chance) : Prop := s.Unused c.uuid

/-- Nothing fails, and no drawn id was in use at the start. -/
def Undisturbed (s : Server) (c : Chance) : Prop := c.fault = none ∧ s.Unused c.uuid

section

variable (jwt : Jwt) (argon2 : Argon2) (b64 : Base64Engine) (config : AppConfig)

/-- The checks that come before the row of the user all pass, those of its constraints too. -/
structure Accepted (s : Server) (headers : HeaderMap) (request : RegisterRequest) : Prop where
  passes : (recent s
    ("register:" ++ extractIp headers) REGISTER_WINDOW_SECONDS).length < REGISTER_MAX
  lengths : ∃ username, checkLengths request = .ok username
  hashes : ∃ salt, s.Unused salt ∧ ∃ hashed, hashPassword argon2 salt request.password = .ok hashed
  identityPk : ∃ key, b64.decode request.identityPublicKey = .ok key
  username : ∀ row ∈ s.db.users, row.username ≠ request.username.getD ""
  phoneNumber : ∀ row ∈ s.db.users, row.phoneNumber ≠ request.phoneNumber

/-- Both tokens can be made. -/
def TokensFor (now : Nat) (u d : Uuid) (username : String) : Prop :=
  ∃ access refresh, createAccessToken jwt now u d username config.jwtSecret = .ok access ∧
    createRefreshToken jwt now u d username config.jwtSecret = .ok refresh

/-- What a registration needs for the row of the device. -/
def DecodesDevice (request : RegisterRequest) : Prop :=
  (∃ key, b64.decode request.signedPreKey = .ok key) ∧
    (∃ key, b64.decode request.signedPreKeySignature = .ok key) ∧
      ∃ key, b64.decode request.kyberPublicKey = .ok key

/-- What comes after the row of the user can be decoded, and there are tokens for the new user
and the new device. -/
structure Completes (s : Server) (request : RegisterRequest) : Prop where
  device : DecodesDevice b64 request
  preKeys : ∀ text ∈ request.oneTimePreKeys, ∃ key, b64.decode text = .ok key
  tokens : ∀ u d, s.Unused u → s.Unused d →
    TokensFor jwt config s.redis.now u d (request.username.getD "")

/-- What a registration does after the row of the user. -/
def afterUser (request : RegisterRequest) (user : Db.User) : Task HysjError LoginResponse := do
  let device ← registerDevice b64 request user.id
  storePreKeys b64 request device.id
  let tokens ← createTokens jwt config user.id device.id user.username
  return ⟨tokens.1, tokens.2, user.id, device.id, false⟩

end

section

variable {p : Chance → Prop} {ε α : Type} {s s' : Server}

theorem under_ofResult {result r : Except ε α} :
    Runs (Under p) (ofResult result).run s r s' ↔ result = r ∧ s = s' := runs_pure

theorem under_atomically (possible : ∃ c, p c) {f : Server → α × Server} {r : Except ε α} :
    Runs (Under p) (atomically f : Task ε α).run s r s' ↔ .ok (f s).1 = r ∧ (f s).2 = s' := by
  simp only [atomically, runs_run_lift, runs_act]
  constructor
  · rintro ⟨a, ⟨-, -, answer⟩, rfl⟩
    rw [answer]
    exact ⟨rfl, rfl⟩
  · rintro ⟨rfl, rfl⟩
    obtain ⟨c, allowed⟩ := possible
    exact ⟨(f s).1, ⟨c, allowed, rfl⟩, rfl⟩

theorem possible_of_atomically {f : Server → α × Server} {r : Except ε α}
    (run : Runs (Under p) (atomically f : Task ε α).run s r s') : ∃ c, p c := by
  simp only [atomically, runs_run_lift, runs_act] at run
  obtain ⟨a, ⟨c, allowed, -⟩, -⟩ := run
  exact ⟨c, allowed⟩

theorem under_random {r : Except ε Uuid} :
    Runs (Under p) (random : Task ε Uuid).run s r s' ↔
      ∃ c, p c ∧ .ok c.uuid = r ∧ s = s' := by
  simp only [random, runs_run_lift, runs_act]
  constructor
  · rintro ⟨id, ⟨c, allowed, answer⟩, rfl⟩
    obtain ⟨rfl, rfl⟩ := Prod.mk.inj answer
    exact ⟨c, allowed, rfl, rfl⟩
  · rintro ⟨c, allowed, rfl, rfl⟩
    exact ⟨c.uuid, ⟨c, allowed, rfl⟩, rfl⟩

/-- Drawing cannot fail, so what follows runs with what was drawn. -/
theorem under_random_bind {f : Uuid → Task ε α} {r : Except ε α} :
    Runs (Under p) (random >>= f).run s r s' ↔ ∃ c, p c ∧ Runs (Under p) (f c.uuid).run s r s' := by
  constructor
  · intro run
    rcases runs_run_bind.mp run with ⟨id, m, drawn, rest⟩ | ⟨e, -, drawn⟩
    · obtain ⟨c, allowed, same, rfl⟩ := under_random.mp drawn
      obtain rfl := Except.ok.inj same
      exact ⟨c, allowed, rest⟩
    · obtain ⟨c, -, other, -⟩ := under_random.mp drawn
      cases other
  · rintro ⟨c, allowed, rest⟩
    exact runs_run_bind.mpr (Or.inl ⟨c.uuid, s, under_random.mpr ⟨c, allowed, rfl, rfl⟩, rest⟩)

theorem under_query {statement : Nat → Db.Statement α} {r : Except DbError α} :
    Runs (Under p) (query statement).run s r s' ↔
      (∃ c, p c ∧ c.fault = none ∧ (statement s.redis.now s.db).1 = r ∧
        { s with db := (statement s.redis.now s.db).2 } = s') ∨
      ∃ c e, p c ∧ c.fault = some e ∧ .error (.queryFailed e) = r ∧ s = s' := by
  rw [query, runs_run_mk, runs_act]
  constructor
  · rintro ⟨c, allowed, answer⟩
    cases fault : c.fault with
    | none =>
        rw [fault] at answer
        exact Or.inl ⟨c, allowed, fault, Prod.mk.inj answer⟩
    | some e =>
        rw [fault] at answer
        exact Or.inr ⟨c, e, allowed, fault, Prod.mk.inj answer⟩
  · rintro (⟨c, allowed, fault, rfl, rfl⟩ | ⟨c, e, allowed, fault, rfl, rfl⟩)
    · refine ⟨c, allowed, ?_⟩
      rw [fault]
    · refine ⟨c, allowed, ?_⟩
      rw [fault]

theorem under_query_ok {f : DbError → ε} {statement : Nat → Db.Statement α} {a : α}
    (run : Runs (Under p) (ExceptT.adapt f (query statement)).run s (.ok a) s') :
    (statement s.redis.now s.db).1 = .ok a ∧
      { s with db := (statement s.redis.now s.db).2 } = s' := by
  rw [runs_adapt_ok] at run
  rcases under_query.mp run with ⟨c, -, -, answer, after⟩ | ⟨c, e, -, -, other, -⟩
  · exact ⟨answer, after⟩
  · cases other

theorem under_read {f : DbError → ε} {statement : Nat → Db.Statement α} {r : Except ε α}
    (reads : ∀ now t, (statement now t).2 = t)
    (run : Runs (Under p) (ExceptT.adapt f (query statement)).run s r s') : s = s' := by
  obtain ⟨answer, ran, -⟩ := runs_adapt.mp run
  rcases under_query.mp ran with ⟨c, -, -, -, after⟩ | ⟨c, e, -, -, -, same⟩
  · rw [reads] at after
    exact after
  · exact same

end

/-- Every decision draws an unused id, and any unused id may be drawn while nothing fails. -/
structure Draw (s : Server) (p : Chance → Prop) : Prop where
  unused : ∀ c, p c → s.Unused c.uuid
  any : ∀ id, s.Unused id → p { uuid := id }

theorem draw_newIds (s : Server) : Draw s (NewIds s) :=
  ⟨fun _ unused => unused, fun _ unused => unused⟩

theorem draw_undisturbed (s : Server) : Draw s (Undisturbed s) :=
  ⟨fun _ both => both.2, fun _ unused => ⟨rfl, unused⟩⟩

section

variable {jwt : Jwt} {argon2 : Argon2} {b64 : Base64Engine} {config : AppConfig}
variable {s s' : Server} {p : Chance → Prop} {headers : HeaderMap} {request : RegisterRequest}
variable {username : String} {user : Db.User}

theorem checkLengths_eq_ok (lengths : checkLengths request = .ok username) :
    username = request.username.getD "" := by
  unfold checkLengths at lengths
  dsimp only at lengths
  split at lengths
  · cases lengths
  · split at lengths
    · cases lengths
    · split at lengths
      · cases lengths
      · exact (Except.ok.inj lengths).symm

/-- No constraint is against the row. -/
structure Admissible (t : Db.Tables) (user : Db.User) : Prop where
  id : ∀ row ∈ t.users, row.id ≠ user.id
  username : ∀ row ∈ t.users, row.username ≠ user.username
  phoneNumber : ∀ row ∈ t.users, row.phoneNumber ≠ user.phoneNumber

theorem createUser_of_admissible {t : Db.Tables} (admissible : Admissible t user) :
    Db.createUser user t = (.ok user, { t with users := t.users ++ [user] }) := by
  unfold Db.createUser
  rw [if_neg (by simpa using admissible.id), if_neg (by simpa using admissible.username),
    if_neg (by simpa using admissible.phoneNumber)]

theorem createUser_cases (t : Db.Tables) (user : Db.User) :
    Admissible t user ∨ ∃ e, Db.createUser user t = (.error e, t) := by
  unfold Db.createUser
  split
  · exact Or.inr ⟨_, rfl⟩
  · split
    · exact Or.inr ⟨_, rfl⟩
    · split
      · exact Or.inr ⟨_, rfl⟩
      · rename_i id username phoneNumber
        exact Or.inl ⟨by simpa using id, by simpa using username, by simpa using phoneNumber⟩

/-- The state with a new user. -/
def Server.withUser (s : Server) (user : Db.User) : Server :=
  { s with db := { s.db with users := s.db.users ++ [user] } }

theorem under_createUser {r : Except HysjError Db.User}
    (run : Runs (Under p) (createUser argon2 b64 request username).run s r s') :
    ((∃ e, r = .error e) ∧ s = s') ∨
      ∃ user salt, r = .ok user ∧ s' = s.withUser user ∧ Admissible s.db user ∧
        user.username = username ∧ user.phoneNumber = request.phoneNumber ∧
        user.has2faEnabled = false ∧ user.totpSecret = none ∧ (∃ c, p c ∧ c.uuid = user.id) ∧
        (∃ c, p c ∧ c.uuid = salt) ∧
        (∃ hashed, hashPassword argon2 salt request.password = .ok hashed) ∧
        ∃ key, b64.decode request.identityPublicKey = .ok key := by
  rw [createUser, under_random_bind] at run
  obtain ⟨c, allowed, run⟩ := run
  rw [runs_run_bind] at run
  rcases run with ⟨hashed, m, ran, run⟩ | ⟨e, rfl, ran⟩
  swap
  · exact Or.inl ⟨⟨_, rfl⟩, (under_ofResult.mp ran).2⟩
  obtain ⟨hashes, rfl⟩ := under_ofResult.mp ran
  rw [Result.mapError_eq_ok] at hashes
  rw [runs_run_bind] at run
  rcases run with ⟨key, m, ran, run⟩ | ⟨e, rfl, ran⟩
  swap
  · exact Or.inl ⟨⟨_, rfl⟩, (under_ofResult.mp ran).2⟩
  obtain ⟨decodes, rfl⟩ := under_ofResult.mp ran
  rw [decodeField, Result.mapError_eq_ok] at decodes
  rw [under_random_bind] at run
  obtain ⟨c', allowed', run⟩ := run
  rw [runs_adapt] at run
  obtain ⟨answer, run, rfl⟩ := run
  rcases under_query.mp run with ⟨-, -, -, rfl, rfl⟩ | ⟨-, -, -, -, rfl, rfl⟩
  swap
  · exact Or.inl ⟨⟨_, rfl⟩, rfl⟩
  rcases createUser_cases s.db
    ⟨c'.uuid, username, request.phoneNumber, none, hashed.1, hashed.2, key,
      key, none, false, s.redis.now, s.redis.now, none, "online"⟩ with admissible | ⟨e, refused⟩
  · rw [createUser_of_admissible admissible]
    exact Or.inr ⟨_, _, rfl, rfl, admissible, rfl, rfl, rfl, rfl, ⟨c', allowed', rfl⟩,
      ⟨c, allowed, rfl⟩, ⟨hashed, hashes⟩, key, decodes⟩
  · rw [refused]
    exact Or.inl ⟨⟨_, rfl⟩, rfl⟩

/-- Whatever unused id the user is to have, the row can be written. -/
theorem createUser_runs (draw : Draw s p) {salt u : Uuid} (unusedSalt : s.Unused salt)
    (unused : s.Unused u) {hashed : String × Bytes}
    (hashes : hashPassword argon2 salt request.password = .ok hashed)
    {key : Bytes} (decodes : b64.decode request.identityPublicKey = .ok key)
    (free : ∀ row ∈ s.db.users, row.username ≠ username)
    (phoneNumber : ∀ row ∈ s.db.users, row.phoneNumber ≠ request.phoneNumber) :
    ∃ user, user.id = u ∧ user.username = username ∧
      Runs (Under p) (createUser argon2 b64 request username).run s (.ok user)
        (s.withUser user) := by
  let user : Db.User := ⟨u, username, request.phoneNumber, none, hashed.1, hashed.2, key, key, none,
    false, s.redis.now, s.redis.now, none, "online"⟩
  have admissible : Admissible s.db user := ⟨unused.1, free, phoneNumber⟩
  refine ⟨user, rfl, rfl, ?_⟩
  simp only [createUser, runs_run_bind_ok, runs_adapt_ok, under_ofResult, Result.mapError_eq_ok]
  refine ⟨salt, s, under_random.mpr ⟨_, draw.any salt unusedSalt, rfl, rfl⟩,
    hashed, s, ⟨hashes, rfl⟩,
    key, s, ⟨Result.mapError_eq_ok.mpr decodes, rfl⟩, u, s,
    under_random.mpr ⟨_, draw.any u unused, rfl, rfl⟩, ?_⟩
  apply under_query.mpr
  refine Or.inl ⟨_, draw.any u unused, rfl, ?_, ?_⟩
  · rw [createUser_of_admissible admissible]
  · rw [createUser_of_admissible admissible]
    rfl

theorem decodeField_eq_ok {message text : String} {key : Bytes} :
    decodeField b64 message text = .ok key ↔ b64.decode text = .ok key := Result.mapError_eq_ok

theorem exists_decodeField {message text : String} :
    (∃ key, decodeField b64 message text = .ok key) ↔ ∃ key, b64.decode text = .ok key := by
  simp only [decodeField_eq_ok]

/-- The state with a new device. -/
def Server.withDevice (s : Server) (device : Db.Device) : Server :=
  { s with db := { s.db with devices := s.db.devices ++ [device] } }

theorem registerDevice_fails {u : Uuid} (fails : ¬ DecodesDevice b64 request) :
    ∃ e, Runs (Under p) (registerDevice b64 request u).run s (.error e) s := by
  simp only [registerDevice, runs_run_bind]
  rcases Result.ok_or_error (decodeField b64 "Invalid signed_pre_key: " request.signedPreKey)
    with ⟨key, first⟩ | ⟨e, first⟩
  swap
  · exact ⟨e, Or.inr ⟨e, rfl, under_ofResult.mpr ⟨first, rfl⟩⟩⟩
  rcases Result.ok_or_error (decodeField b64 "Invalid signature: " request.signedPreKeySignature)
    with ⟨signature, second⟩ | ⟨e, second⟩
  swap
  · exact ⟨e, Or.inl ⟨key, s, under_ofResult.mpr ⟨first, rfl⟩,
      Or.inr ⟨e, rfl, under_ofResult.mpr ⟨second, rfl⟩⟩⟩⟩
  rcases Result.ok_or_error (decodeField b64 "Invalid kyber key: " request.kyberPublicKey)
    with ⟨kyber, third⟩ | ⟨e, third⟩
  · refine (fails
      ⟨⟨key, decodeField_eq_ok.mp first⟩, ⟨signature, decodeField_eq_ok.mp second⟩, kyber,
      decodeField_eq_ok.mp third⟩).elim
  · exact ⟨e, Or.inl ⟨key, s, under_ofResult.mpr ⟨first, rfl⟩, Or.inl ⟨signature, s,
      under_ofResult.mpr ⟨second, rfl⟩, Or.inr ⟨e, rfl, under_ofResult.mpr ⟨third, rfl⟩⟩⟩⟩⟩

theorem registerDevice_of_free {t : Db.Tables} {device : Db.Device}
    (free : ∀ row ∈ t.devices, row.id ≠ device.id)
    (owner : ∃ row ∈ t.users, row.id = device.userId) :
    Db.registerDevice device t = (.ok device, { t with devices := t.devices ++ [device] }) := by
  unfold Db.registerDevice
  rw [if_neg (by simpa using free), if_pos (by simpa using owner)]

/-- Whatever id is drawn, the row of the device can be written. -/
theorem registerDevice_runs {u : Uuid} {c : Chance} (decodes : DecodesDevice b64 request)
    (allowed : p c) (clean : c.fault = none) (free : ∀ row ∈ s.db.devices, row.id ≠ c.uuid)
    (owner : ∃ row ∈ s.db.users, row.id = u) :
    ∃ device, device.id = c.uuid ∧
      Runs (Under p) (registerDevice b64 request u).run s (.ok device) (s.withDevice device) := by
  obtain ⟨⟨key, first⟩, ⟨signature, second⟩, kyber, third⟩ := decodes
  let device : Db.Device :=
    ⟨c.uuid, u, request.deviceName, key, signature, kyber, false, s.redis.now, s.redis.now⟩
  refine ⟨device, rfl, ?_⟩
  simp only [registerDevice, runs_run_bind_ok, runs_adapt_ok, under_ofResult, decodeField_eq_ok]
  refine ⟨key, s, ⟨first, rfl⟩, signature, s, ⟨second, rfl⟩, kyber, s, ⟨third, rfl⟩, c.uuid, s,
    under_random.mpr ⟨c, allowed, rfl, rfl⟩, ?_⟩
  have written : Db.registerDevice device s.db = _ := registerDevice_of_free free owner
  apply under_query.mpr
  refine Or.inl ⟨c, allowed, clean, ?_, ?_⟩
  · rw [written]
  · rw [written]
    rfl

theorem registerDevice_faults {u : Uuid} {c f : Chance} {text : String}
    (decodes : DecodesDevice b64 request) (allowed : p c) (allowed' : p f)
    (fault : f.fault = some text) :
    ∃ e, Runs (Under p) (registerDevice b64 request u).run s (.error e) s := by
  obtain ⟨⟨key, first⟩, ⟨signature, second⟩, kyber, third⟩ := decodes
  refine ⟨.ofDb (.queryFailed text), ?_⟩
  simp only [registerDevice, runs_run_bind, runs_adapt, under_ofResult]
  refine Or.inl ⟨key, s, ⟨decodeField_eq_ok.mpr first, rfl⟩, Or.inl ⟨signature, s,
    ⟨decodeField_eq_ok.mpr second, rfl⟩, Or.inl ⟨kyber, s, ⟨decodeField_eq_ok.mpr third, rfl⟩,
    Or.inl ⟨c.uuid, s, under_random.mpr ⟨c, allowed, rfl, rfl⟩,
    .error (.queryFailed text), ?_, rfl⟩⟩⟩⟩
  exact under_query.mpr (Or.inr ⟨f, text, allowed', fault, rfl, rfl⟩)

/-- If nothing fails and drawn ids are new, the row of the device is written. -/
theorem under_registerDevice {u : Uuid} {r : Except HysjError Db.Device}
    (decodes : DecodesDevice b64 request) (clean : ∀ c, p c → c.fault = none)
    (free : ∀ c, p c → ∀ row ∈ s.db.devices, row.id ≠ c.uuid)
    (owner : ∃ row ∈ s.db.users, row.id = u)
    (run : Runs (Under p) (registerDevice b64 request u).run s r s') :
    ∃ device, r = .ok device ∧ s' = s.withDevice device ∧ ∃ c, p c ∧ device.id = c.uuid := by
  obtain ⟨⟨key, first⟩, ⟨signature, second⟩, kyber, third⟩ := decodes
  simp only [registerDevice, runs_run_bind, runs_adapt, under_ofResult, decodeField, first, second,
    third, Except.mapError, Except.ok.injEq, reduceCtorEq, false_and, and_false,
    exists_false, or_false,
    under_random] at run
  obtain ⟨_, _, ⟨rfl, rfl⟩, _, _, ⟨rfl, rfl⟩, _, _, ⟨rfl, rfl⟩, _, _,
      ⟨c, allowed, rfl, rfl⟩, answer,
    run, rfl⟩ := run
  rcases under_query.mp run with ⟨-, -, -, rfl, rfl⟩ | ⟨c', text, allowed', fault, -, -⟩
  · rw [registerDevice_of_free (free c allowed) owner]
    exact ⟨_, rfl, rfl, c, allowed, rfl⟩
  · rw [clean c' allowed'] at fault
    cases fault

/-- A change of rows that are no users. -/
abbrev SameUsers (s s' : Server) : Prop := s'.db.users = s.db.users ∧ s'.redis = s.redis

theorem sameUsers_trans {s m s' : Server} (first : SameUsers s m) (second : SameUsers m s') :
    SameUsers s s' := ⟨second.1.trans first.1, second.2.trans first.2⟩

theorem sameUsers_registerDevice (u : Uuid) :
    Keeps SameUsers (registerDevice b64 request u).run := by
  refine keeps_registerDevice (fun _ => ⟨rfl, rfl⟩) (fun s device => ⟨?_, rfl⟩) request u
  unfold Db.registerDevice
  split
  · rfl
  · split <;> rfl

theorem sameUsers_storePreKeys (d : Uuid) : Keeps SameUsers (storePreKeys b64 request d).run := by
  apply keeps_storePreKeys (fun _ => ⟨rfl, rfl⟩)
  intro s key
  obtain ⟨rows, serial, same⟩ := Db.storePreKey_snd d key s.db
  rw [same]
  exact ⟨rfl, rfl⟩

theorem sameUsers_afterUser : Keeps SameUsers (afterUser jwt b64 config request user).run := by
  have refl (s : Server) : SameUsers s s := ⟨rfl, rfl⟩
  refine Keeps.run_bind (sameUsers_registerDevice _) fun device => ?_
  refine Keeps.run_bind (sameUsers_storePreKeys _) fun _ => ?_
  exact Keeps.run_bind (keeps_createTokens refl _ _ _) fun tokens => keeps_pure _

theorem storePreKeys_fails {d : Uuid}
    (fails : ¬ ∀ text ∈ request.oneTimePreKeys, ∃ key, b64.decode text = .ok key) :
    ∃ e, Runs (Under p) (storePreKeys b64 request d).run s (.error e) s := by
  simp only [storePreKeys, runs_run_bind]
  rcases Result.ok_or_error (request.oneTimePreKeys.mapM (decodeField b64 "Invalid pre-key: "))
    with decodes | ⟨e, stops⟩
  · have each := Result.exists_mapM_eq_ok.mp decodes
    simp only [exists_decodeField] at each
    exact (fails each).elim
  · exact ⟨e, Or.inr ⟨e, rfl, under_ofResult.mpr ⟨stops, rfl⟩⟩⟩

theorem storePreKey_of_there {t : Db.Tables} {d : Uuid} (there : ∃ row ∈ t.devices, row.id = d)
    (key : Bytes) : Db.storePreKey d key t = (.ok (), { t with
      preKeys := t.preKeys ++ [⟨t.preKeySerial + 1, d, key, false⟩]
      preKeySerial := t.preKeySerial + 1 }) := by
  have found : (t.devices.any fun row => row.id = d) = true := by simpa using there
  simp only [Db.storePreKey, found, if_true]

/-- While nothing fails, and the device is there, all keys are stored. -/
theorem storeEach_ok {d : Uuid} (possible : ∃ c, p c) (clean : ∀ c, p c → c.fault = none)
    (there : ∃ row ∈ s.db.devices, row.id = d) (keys : List Bytes) :
    (∃ s', Runs (Under p) (forM keys fun key => query fun _ => Db.storePreKey d key).run s
        (.ok ()) s') ∧
      ∀ r s', Runs (Under p) (forM keys fun key => query fun _ => Db.storePreKey d key).run s r s' →
        r = .ok () := by
  induction keys generalizing s with
  | nil => exact ⟨⟨s, runs_run_pure.mpr ⟨rfl, rfl⟩⟩, fun r s' run => (runs_run_pure.mp run).1.symm⟩
  | cons key keys ih =>
      have stored := storePreKey_of_there there key
      obtain ⟨⟨s', rest⟩, returns⟩ := ih (s := s.after (Db.storePreKey d key)) (by
        rw [Server.after, stored]
        exact there)
      rw [List.forM_cons]
      constructor
      · obtain ⟨c, allowed⟩ := possible
        refine ⟨s',
          runs_run_bind_ok.mpr ⟨(), _, under_query.mpr (Or.inl ⟨c, allowed, ?_, ?_, rfl⟩), rest⟩⟩
        · exact clean c allowed
        · rw [stored]
      · intro r s' run
        rcases runs_run_bind.mp run with ⟨⟨⟩, m, first, rest⟩ | ⟨e, rfl, failed⟩
        · rcases under_query.mp first with ⟨c, -, -, -, rfl⟩ | ⟨c, text, -, -, other, -⟩
          · exact returns r s' rest
          · cases other
        · rcases under_query.mp failed with ⟨-, -, -, other, -⟩ | ⟨c, text, allowed, fault, -, -⟩
          · rw [stored] at other
            cases other
          · rw [clean c allowed] at fault
            cases fault

/-- While nothing fails, every key that can be decoded is stored. -/
theorem storePreKeys_ok {d : Uuid} (possible : ∃ c, p c) (clean : ∀ c, p c → c.fault = none)
    (there : ∃ row ∈ s.db.devices, row.id = d)
    (decodes : ∀ text ∈ request.oneTimePreKeys, ∃ key, b64.decode text = .ok key) :
    (∃ s', Runs (Under p) (storePreKeys b64 request d).run s (.ok ()) s') ∧
      ∀ r s', Runs (Under p) (storePreKeys b64 request d).run s r s' → r = .ok () := by
  have through :
      ∃ keys, request.oneTimePreKeys.mapM (decodeField b64 "Invalid pre-key: ") = .ok keys :=
    Result.exists_mapM_eq_ok.mpr fun text member => exists_decodeField.mpr (decodes text member)
  obtain ⟨keys, read⟩ := through
  obtain ⟨⟨s', run⟩, returns⟩ := storeEach_ok possible clean there keys
  constructor
  · refine ⟨s', ?_⟩
    simp only [storePreKeys, runs_run_bind_ok, runs_adapt_ok, under_ofResult]
    exact ⟨keys, s, ⟨read, rfl⟩, run⟩
  · intro r s' run
    simp only [storePreKeys, runs_run_bind, runs_adapt, under_ofResult, read, Except.ok.injEq,
      reduceCtorEq, false_and, and_false, exists_false, or_false] at run
    obtain ⟨_, _, ⟨rfl, rfl⟩, r, run, rfl⟩ := run
    rw [returns _ _ run]
    rfl

theorem under_timestamp {ε : Type} (possible : ∃ c, p c) {r : Except ε Nat} :
    Runs (Under p) (timestamp : Task ε Nat).run s r s' ↔ .ok s.redis.now = r ∧ s = s' :=
  under_atomically possible

theorem createTokens_ok {u d : Uuid} (possible : ∃ c, p c) {r : Except HysjError (String × String)}
    (tokens : TokensFor jwt config s.redis.now u d username)
    (run : Runs (Under p) (createTokens jwt config u d username).run s r s') :
    ∃ made, r = .ok made := by
  obtain ⟨access, refresh, first, second⟩ := tokens
  simp only [createTokens, runs_run_bind, under_timestamp possible, under_ofResult, Except.ok.injEq,
    reduceCtorEq, false_and, and_false, exists_false, or_false] at run
  obtain ⟨_, _, ⟨rfl, rfl⟩, run⟩ := run
  simp only [first, Except.mapError, Except.ok.injEq, reduceCtorEq, false_and,
    and_false, exists_false,
    or_false] at run
  obtain ⟨_, _, ⟨rfl, rfl⟩, _, _, ⟨rfl, rfl⟩, run⟩ := run
  simp only [second, Except.ok.injEq, reduceCtorEq, false_and, and_false, exists_false,
    or_false, runs_run_pure] at run
  obtain ⟨_, _, ⟨rfl, rfl⟩, rfl, rfl⟩ := run
  exact ⟨_, rfl⟩

theorem createTokens_fails {u d : Uuid} (possible : ∃ c, p c)
    (fails : ¬ TokensFor jwt config s.redis.now u d username) :
    ∃ e, Runs (Under p) (createTokens jwt config u d username).run s (.error e) s := by
  simp only [createTokens, runs_run_bind, under_timestamp possible]
  rcases Result.ok_or_error (createAccessToken jwt s.redis.now u d username config.jwtSecret)
    with ⟨access, first⟩ | ⟨e, first⟩
  swap
  · refine ⟨.ofAuth e, Or.inl ⟨_, s, ⟨rfl, rfl⟩, Or.inr ⟨_, rfl, under_ofResult.mpr ⟨?_, rfl⟩⟩⟩⟩
    rw [first]
    rfl
  rcases Result.ok_or_error (createRefreshToken jwt s.redis.now u d username config.jwtSecret)
    with ⟨refresh, second⟩ | ⟨e, second⟩
  · exact (fails ⟨access, refresh, first, second⟩).elim
  · refine ⟨.ofAuth e, Or.inl ⟨_, s, ⟨rfl, rfl⟩, Or.inl ⟨access, s, under_ofResult.mpr ⟨?_, rfl⟩,
      Or.inl ⟨_, s, ⟨rfl, rfl⟩, Or.inr ⟨_, rfl, under_ofResult.mpr ⟨?_, rfl⟩⟩⟩⟩⟩⟩
    · rw [first]
      rfl
    · rw [second]
      rfl

/-- The state just after the row of the user was written. -/
structure After (s : Server) (user : Db.User) (m : Server) : Prop where
  db : m.db = { s.db with users := s.db.users ++ [user] }
  redis : m.redis = s.redis

variable {m : Server}

theorem After.owner (after : After s user m) : ∃ row ∈ m.db.users, row.id = user.id := by
  rw [after.db]
  exact ⟨user, List.mem_append_right _ List.mem_cons_self, rfl⟩

theorem After.free (after : After s user m) {d : Uuid} (unused : s.Unused d) :
    ∀ row ∈ m.db.devices, row.id ≠ d := by
  rw [after.db]
  exact unused.2

theorem afterUser_ok (after : After s user m) (unused : s.Unused user.id)
    (name : user.username = request.username.getD "")
    (completes : Completes jwt b64 config s request)
    {r : Except HysjError LoginResponse}
    (run : Runs (Under (Undisturbed s)) (afterUser jwt b64 config request user).run m r s') :
    ∃ response, r = .ok response := by
  have possible : ∃ c, Undisturbed s c := ⟨{ uuid := user.id }, rfl, unused⟩
  rw [afterUser, runs_run_bind] at run
  rcases run with ⟨device, m₁, first, run⟩ | ⟨e, rfl, failed⟩
  swap
  · obtain ⟨device, other, -⟩ := under_registerDevice completes.device (fun _ both => both.1)
      (fun _ both => after.free both.2) after.owner failed
    cases other
  obtain ⟨_, same, written, c, drawn, is⟩ := under_registerDevice completes.device
    (fun _ both => both.1) (fun _ both => after.free both.2) after.owner first
  obtain rfl := Except.ok.inj same
  have there : ∃ row ∈ m₁.db.devices, row.id = device.id := by
    rw [written]
    exact ⟨device, List.mem_append_right _ List.mem_cons_self, rfl⟩
  have stores := (storePreKeys_ok possible (fun _ both => both.1) there completes.preKeys).2
  rw [runs_run_bind] at run
  rcases run with ⟨_, m₂, second, run⟩ | ⟨e, rfl, failed⟩
  swap
  · cases stores _ _ failed
  have clock : m₂.redis.now = s.redis.now := by
    have kept :=
      first.keeps (sameUsers_registerDevice _) (fun _ => ⟨rfl, rfl⟩) fun _ _ _ => sameUsers_trans
    have kept' := second.keeps (sameUsers_storePreKeys _) (fun _ => ⟨rfl, rfl⟩)
      fun _ _ _ => sameUsers_trans
    rw [kept'.2, kept.2, after.redis]
  have made : TokensFor jwt config m₂.redis.now user.id device.id user.username := by
    rw [clock, name, is]
    exact completes.tokens _ _ unused drawn.2
  rw [runs_run_bind] at run
  rcases run with ⟨tokens, m₃, third, run⟩ | ⟨e, rfl, failed⟩
  · exact ⟨_, (runs_run_pure.mp run).1.symm⟩
  · obtain ⟨tokens, other⟩ := createTokens_ok possible made failed
    cases other

/-- If something does not complete, it can be reached for some user. -/
theorem afterUser_fails {u₀ : Uuid} (unused : s.Unused u₀)
    (fails : ¬ Completes jwt b64 config s request) :
    ∃ u, s.Unused u ∧ ∀ m user, After s user m → user.id = u →
      user.username = request.username.getD "" → ∃ e s',
        Runs (Under (Undisturbed s))
        (afterUser jwt b64 config request user).run m (.error e) s' := by
  have possible : ∃ c, Undisturbed s c := ⟨{ uuid := u₀ }, rfl, unused⟩
  by_cases decodes : DecodesDevice b64 request
  swap
  · refine ⟨u₀, unused, fun m user after _ _ => ?_⟩
    obtain ⟨e, failed⟩ := registerDevice_fails (p := Undisturbed s) (s := m) (u := user.id) decodes
    exact ⟨e, m, runs_run_bind.mpr (Or.inr ⟨e, rfl, failed⟩)⟩
  by_cases keys : ∀ text ∈ request.oneTimePreKeys, ∃ key, b64.decode text = .ok key
  swap
  · refine ⟨u₀, unused, fun m user after is _ => ?_⟩
    obtain ⟨device, -, first⟩ := registerDevice_runs (c := { uuid := u₀ }) (p := Undisturbed s)
      decodes ⟨rfl, unused⟩ rfl (after.free unused) after.owner
    obtain ⟨e, failed⟩ := storePreKeys_fails (p := Undisturbed s) (s := m.withDevice device)
      (d := device.id) keys
    exact ⟨e, _, runs_run_bind.mpr (Or.inl ⟨device, _, first,
      runs_run_bind.mpr (Or.inr ⟨e, rfl, failed⟩)⟩)⟩
  have missing : ∃ u d, s.Unused u ∧ s.Unused d ∧
      ¬ TokensFor jwt config s.redis.now u d (request.username.getD "") := by
    by_contra none
    push Not at none
    exact fails ⟨decodes, keys, fun u d unused unused' => none u d unused unused'⟩
  obtain ⟨u, d, unusedUser, unusedDevice, missing⟩ := missing
  refine ⟨u, unusedUser, fun m user after is name => ?_⟩
  obtain ⟨device, drew, first⟩ := registerDevice_runs (c := { uuid := d }) (p := Undisturbed s)
    decodes ⟨rfl, unusedDevice⟩ rfl (after.free unusedDevice) after.owner
  have there : ∃ row ∈ (m.withDevice device).db.devices, row.id = device.id :=
    ⟨device, List.mem_append_right _ List.mem_cons_self, rfl⟩
  obtain ⟨m₂, second⟩ := (storePreKeys_ok possible (fun _ both => both.1) there keys).1
  have clock : m₂.redis.now = s.redis.now := by
    have kept := second.keeps (sameUsers_storePreKeys _) (fun _ => ⟨rfl, rfl⟩)
      fun _ _ _ => sameUsers_trans
    rw [kept.2]
    exact congrArg Store.now after.redis
  have fails : ¬ TokensFor jwt config m₂.redis.now user.id device.id user.username := by
    rw [clock, name, is, drew]
    exact missing
  obtain ⟨e, failed⟩ := createTokens_fails possible fails
  exact ⟨e, _,
    runs_run_bind.mpr (Or.inl ⟨device, _, first, runs_run_bind.mpr (Or.inl ⟨(), _, second,
    runs_run_bind.mpr (Or.inr ⟨e, rfl, failed⟩)⟩)⟩)⟩

theorem afterUser_faults (unused : s.Unused user.id) :
    ∃ e, Runs (Under (NewIds s)) (afterUser jwt b64 config request user).run m (.error e) m := by
  by_cases decodes : DecodesDevice b64 request
  · obtain ⟨e, failed⟩ := registerDevice_faults (c := { uuid := user.id })
      (f := { fault := some "", uuid := user.id }) (p := NewIds s) (s := m) (u := user.id) decodes
      unused unused rfl
    exact ⟨e, runs_run_bind.mpr (Or.inr ⟨e, rfl, failed⟩)⟩
  · obtain ⟨e, failed⟩ := registerDevice_fails (p := NewIds s) (s := m) (u := user.id) decodes
    exact ⟨e, runs_run_bind.mpr (Or.inr ⟨e, rfl, failed⟩)⟩

theorem register_eq : register jwt argon2 b64 config headers request = (do
    if ← checkRateLimit ("register:" ++ extractIp headers) REGISTER_MAX REGISTER_WINDOW_SECONDS then
      let username ← ofResult (checkLengths request)
      let user ← createUser argon2 b64 request username
      afterUser jwt b64 config request user
    else throw .rateLimited) := rfl

/-- A registration writes nothing, or it was accepted and goes on after the row of the user. -/
theorem under_register (draw : Draw s p) {r : Except HysjError LoginResponse}
    (run : Runs (Under p) (register jwt argon2 b64 config headers request).run s r s') :
    ((∃ e, r = .error e) ∧ SameAccounts s s') ∨
      Accepted argon2 b64 s headers request ∧ ∃ user m, After s user m ∧ s.Unused user.id ∧
        user.username = request.username.getD "" ∧
        Runs (Under p) (afterUser jwt b64 config request user).run m r s' := by
  have same : SameAccounts s s := ⟨rfl, rfl, rfl⟩
  rw [register_eq, runs_run_bind] at run
  rcases run with ⟨passes, m, limited, run⟩ | ⟨e, rfl, limited⟩
  swap
  · cases ((under_atomically (possible_of_atomically limited)).mp limited).1
  have possible : ∃ c, p c := possible_of_atomically limited
  obtain ⟨answer, left⟩ := (under_atomically possible).mp limited
  by_cases full : REGISTER_MAX ≤
      (recent s ("register:" ++ extractIp headers) REGISTER_WINDOW_SECONDS).length
  · rw [if_pos full] at answer left
    obtain rfl := Except.ok.inj answer
    obtain ⟨rfl, rfl⟩ := runs_run_throw.mp run
    rw [← left]
    exact Or.inl ⟨⟨_, rfl⟩, rfl, rfl, rfl⟩
  rw [if_neg full] at answer left
  obtain rfl := Except.ok.inj answer
  rw [if_pos rfl, runs_run_bind] at run
  rcases run with ⟨username, m', checked, run⟩ | ⟨e, rfl, checked⟩
  swap
  · obtain ⟨-, rfl⟩ := under_ofResult.mp checked
    rw [← left]
    exact Or.inl ⟨⟨_, rfl⟩, rfl, rfl, rfl⟩
  obtain ⟨lengths, rfl⟩ := under_ofResult.mp checked
  obtain rfl := checkLengths_eq_ok lengths
  rw [runs_run_bind] at run
  rcases run with ⟨user, m₁, created, run⟩ | ⟨e, rfl, failed⟩
  swap
  · rcases under_createUser failed with ⟨-, rfl⟩ | ⟨user, salt, other, -⟩
    · rw [← left]
      exact Or.inl ⟨⟨_, rfl⟩, rfl, rfl, rfl⟩
    · cases other
  rcases under_createUser created with ⟨⟨e, other⟩, -⟩ | ⟨_, salt, is, rfl, admissible, name, phone,
    -, -, ⟨c, allowed, drew⟩, ⟨c', allowed', drew'⟩, hashes, identityPk⟩
  · cases other
  obtain rfl := Except.ok.inj is
  rw [← left] at admissible
  refine Or.inr ⟨⟨Nat.lt_of_not_le full, ⟨_, lengths⟩, ⟨salt, ?_, hashes⟩, identityPk, ?_, ?_⟩,
    user, _, ⟨?_, ?_⟩, ?_, name, run⟩
  · rw [← drew']
    exact draw.unused c' allowed'
  · rw [← name]
    exact admissible.username
  · rw [← phone]
    exact admissible.phoneNumber
  · rw [← left]
    rfl
  · rw [← left]
    rfl
  · rw [← drew]
    exact draw.unused c allowed

/-- An accepted registration can go on with any unused id for the user. -/
theorem register_runs (draw : Draw s p)
    (accepted : Accepted argon2 b64 s headers request) {u : Uuid}
    (unused : s.Unused u) :
    ∃ user m, After s user m ∧ user.id = u ∧ user.username = request.username.getD "" ∧
      ∀ r s', Runs (Under p) (afterUser jwt b64 config request user).run m r s' →
        Runs (Under p) (register jwt argon2 b64 config headers request).run s r s' := by
  obtain ⟨username, lengths⟩ := accepted.lengths
  obtain rfl := checkLengths_eq_ok lengths
  obtain ⟨salt, unusedSalt, hashed, hashes⟩ := accepted.hashes
  obtain ⟨key, decodes⟩ := accepted.identityPk
  let key' := "register:" ++ extractIp headers
  let limited : Server :=
    { s with
      rateLimiter := Function.update s.rateLimiter key'
        (recent s key' REGISTER_WINDOW_SECONDS ++ [s.redis.now]) }
  have passes : Runs (Under p) (checkRateLimit ("register:" ++ extractIp headers) REGISTER_MAX
      REGISTER_WINDOW_SECONDS : Task HysjError Bool).run s (.ok true) limited := by
    apply (under_atomically ⟨_, draw.any u unused⟩).mpr
    rw [if_neg (Nat.not_le_of_lt accepted.passes)]
    exact ⟨rfl, rfl⟩
  have draw' : Draw limited p := ⟨draw.unused, draw.any⟩
  obtain ⟨user, is, name, created⟩ :=
    createUser_runs (s := limited) draw' unusedSalt unused hashes decodes
    accepted.username accepted.phoneNumber
  refine ⟨user, limited.withUser user, ⟨rfl, rfl⟩, is, name, fun r s' run => ?_⟩
  rw [register_eq]
  refine runs_run_bind.mpr (Or.inl ⟨true, limited, passes, ?_⟩)
  rw [if_pos rfl]
  refine runs_run_bind.mpr (Or.inl ⟨_, limited, under_ofResult.mpr ⟨lengths, rfl⟩, ?_⟩)
  exact runs_run_bind.mpr (Or.inl ⟨user, _, created, run⟩)

theorem After.not_same (after : After s user m) {r : Except HysjError LoginResponse}
    (run : Runs (Under p) (afterUser jwt b64 config request user).run m r s') :
    ¬ SameAccounts s s' := by
  intro same
  have kept := run.keeps sameUsers_afterUser (fun _ => ⟨rfl, rfl⟩) fun _ _ _ => sameUsers_trans
  have lengths := congrArg List.length (kept.1.symm.trans same.users)
  rw [after.db] at lengths
  simp at lengths

end

/-- While nothing fails, a registration that ends in an error leaves all rows as they were exactly
if it is not accepted or completes; where statements may fail, exactly if it is not accepted. -/
theorem register_atomic_iff (jwt : Jwt) (argon2 : Argon2) (b64 : Base64Engine) (config : AppConfig)
    (s : Server) (headers : HeaderMap) (request : RegisterRequest) :
    ((∀ e s', Runs (Under (Undisturbed s)) (register jwt argon2 b64 config headers request).run s
        (.error e) s' → SameAccounts s s') ↔
      (Accepted argon2 b64 s headers request → Completes jwt b64 config s request)) ∧
    ((∀ e s', Runs (Under (NewIds s)) (register jwt argon2 b64 config headers request).run s
        (.error e) s' → SameAccounts s s') ↔
      ¬ Accepted argon2 b64 s headers request) := by
  constructor
  · constructor
    · intro atomic accepted
      obtain ⟨u₀, unused, -⟩ := accepted.hashes
      by_contra fails
      obtain ⟨u, unused, fails⟩ := afterUser_fails unused fails
      obtain ⟨user, m, after, is, name, run⟩ := register_runs (draw_undisturbed s) accepted unused
      obtain ⟨e, s', failed⟩ := fails m user after is name
      exact after.not_same failed (atomic e s' (run _ _ failed))
    · intro completes e s' run
      rcases under_register (draw_undisturbed s) run with
        ⟨-, same⟩ | ⟨accepted, user, m, after, unused, name, rest⟩
      · exact same
      · obtain ⟨response, other⟩ := afterUser_ok after unused name (completes accepted) rest
        cases other
  · constructor
    · intro atomic accepted
      obtain ⟨u, unused, -⟩ := accepted.hashes
      obtain ⟨user, m, after, is, -, run⟩ := register_runs (draw_newIds s) accepted unused
      have unused' : s.Unused user.id := by
        rw [is]
        exact unused
      obtain ⟨e, failed⟩ := afterUser_faults unused'
      exact after.not_same failed (atomic e m (run _ _ failed))
    · intro refused e s' run
      rcases under_register (draw_newIds s) run with ⟨-, same⟩ | ⟨accepted, -⟩
      · exact same
      · exact (refused accepted).elim

theorem undisturbed_drawing (byte : UInt8) : ∀ c ∈ drawing byte, ∀ s : Server,
    Under (Undisturbed (.start 0 {})) c s := by
  intro c member s
  rw [List.eq_of_mem_replicate member]
  exact ⟨rfl, fun row member => (List.not_mem_nil member).elim,
    fun row member => (List.not_mem_nil member).elim⟩

/-- A registration whose signed pre-key is no base64. -/
def halfRegistration : RegisterRequest :=
  { registration "alice" "+4711111111" "password1" with signedPreKey := "*" }

/-- It fails, but the user is there, although nothing failed beside it. -/
theorem register_leaves_user : ∃ e s', Runs (Under (Undisturbed (.start 0 {})))
    (register .sample .sample .sample ⟨none, "secret"⟩ (fun _ => none) halfRegistration).run
      (.start 0 {}) (.error e) s' ∧ ¬ SameAccounts (.start 0 {}) s' := by
  refine ⟨_, _, runs_of_exec (undisturbed_drawing 1) rfl, ?_⟩
  intro same
  cases same.users

end Hysj.Api
