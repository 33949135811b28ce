import Hysj.Api.Registration

set_option autoImplicit false

/- Two-factor authentication: its three endpoints, and which requests change its columns. -/
namespace Hysj.Shared

structure TwoFactorSetupResponse where
  secret : String
  qrUri : String

structure TwoFactorVerifyRequest where
  code : String

end Hysj.Shared

namespace Hysj.Auth

open Crypto Shared

/-- The `totp-rs` crate, with SHA1, six digits, a skew of 1 and steps of 30 seconds: the text of a
random secret, the bytes of such a text, whether there can be a TOTP for some bytes and an
account name, its URL, and whether a code is right at a time. -/
structure Totp where
  generateSecret : ByteArr 16 → String
  toBytes : String → Except String Bytes
  new : Bytes → String → Except String Unit
  getUrl : Bytes → String → String
  check : Nat → Bytes → String → Except String Bool

/-- The secret in place of the code. -/
def Totp.sample : Totp where
  generateSecret random := Uuid.display random
  toBytes secret := .ok (strBytes secret)
  new _ _ := .ok ()
  getUrl _ account := "otpauth://totp/Hysj:" ++ account
  check _ secret code := .ok (secret = strBytes code)

variable (totp : Totp)

/-- Internal helper to construct a TOTP instance. -/
def buildTotp (secret accountName : String) : Except AuthError Bytes := do
  let secretBytes ← (totp.toBytes secret).mapError .totpError
  (totp.new secretBytes accountName).mapError .totpError
  return secretBytes

/-- Create an `otpauth://` URI suitable for QR-code generation. There is none where the code
panics. -/
def generateTotpUri (secret username : String) : Option String :=
  match buildTotp totp secret username with
  | .ok secretBytes => some (totp.getUrl secretBytes username)
  | .error _ => none

/-- Verify a 6-digit TOTP code against the given base32-encoded secret. -/
def verifyTotp (now : Nat) (secret code : String) : Except AuthError Bool := do
  let secretBytes ← (buildTotp totp secret "user").mapError fun e => .totpError e.display
  (totp.check now secretBytes code).mapError .totpError

end Hysj.Auth

namespace Hysj.Api

open Crypto Shared Auth Messaging Program

section

variable (totp : Totp)

/-- `POST /api/auth/2fa/setup` -/
def setup2fa (auth : AuthUser) : Task HysjError TwoFactorSetupResponse := do
  let secret := totp.generateSecret (← random)
  match generateTotpUri totp secret auth.username with
  | none => ExceptT.mk .never
  | some qrUri =>
      ExceptT.adapt .ofDb (query fun _ => Db.enable2fa auth.userId (strBytes secret))
      return ⟨secret, qrUri⟩

/-- What verifying and disabling have in common: the code is right for the secret of the user. -/
def checkCode (missing : String) (auth : AuthUser) (request : TwoFactorVerifyRequest) :
    Task HysjError Unit := do
  match ← ExceptT.adapt .ofDb (query fun _ => Db.findById auth.userId) with
  | none => throw (.userNotFound auth.userId)
  | some user =>
      match user.totpSecret with
      | none => throw (.validationError missing)
      | some totpSecret =>
          match Utf8.fromUtf8 totpSecret with
          | none => throw .internal
          | some secret =>
              let now ← timestamp
              if ← ofResult ((verifyTotp totp now secret request.code).mapError
                  fun e => .authFailed e.display) then return ()
              else throw .invalidTwoFactorCode

/-- `POST /api/auth/2fa/verify` -/
def verify2fa (auth : AuthUser) (request : TwoFactorVerifyRequest) : Task HysjError Json.Value := do
  checkCode totp "2FA not set up" auth request
  return .obj [("status", .str "2fa_enabled")]

/-- `POST /api/auth/2fa/disable` -/
def disable2fa (auth : AuthUser) (request : TwoFactorVerifyRequest) :
    Task HysjError Json.Value := do
  checkCode totp "2FA not enabled" auth request
  ExceptT.adapt .ofDb (query fun _ => Db.disable2fa auth.userId)
  return .obj [("status", .str "2fa_disabled")]

end

section

variable (jwt : Jwt) (config : AppConfig)

/-- What a token is accepted for at a time. -/
def accept (now : Nat) (token : String) : Except HysjError AuthUser :=
  match (validateToken jwt now token config.jwtSecret).mapError .ofAuth with
  | .error e => .error e
  | .ok claims =>
      match Uuid.parseStr claims.sub, Uuid.parseStr claims.deviceId with
      | some userId, some deviceId => .ok ⟨userId, deviceId, claims.username⟩
      | _, _ => .error .invalidToken

/-- The user of a request at a time. -/
def extract (now : Nat) (headers : HeaderMap) : Except HysjError AuthUser :=
  match headers "authorization" with
  | none => .error (.authFailed "Missing Authorization header")
  | some header =>
      match bearer header with
      | none => .error (.authFailed "Invalid Authorization format")
      | some token => accept jwt config now token

end

/-- A user with whether two-factor authentication is on, and its secret. -/
structure SecondFactor where
  userId : Uuid
  enabled : Bool
  secret : Option Bytes

def Server.secondFactors (s : Server) : List SecondFactor :=
  s.db.users.map fun row => ⟨row.id, row.has2faEnabled, row.totpSecret⟩

/-- The state of a user, if there is the user. -/
def Server.secondFactor (s : Server) (u : Uuid) : Option SecondFactor :=
  s.secondFactors.find? fun factor => factor.userId = u

/-- No user comes or goes, and nobody's second factor changes. -/
abbrev SameFactors (s s' : Server) : Prop :=
  s'.secondFactors = s.secondFactors ∧ s'.redis = s.redis

theorem sameFactors_refl (s : Server) : SameFactors s s := ⟨rfl, rfl⟩

theorem sameFactors_trans {s m s' : Server} (first : SameFactors s m) (second : SameFactors m s') :
    SameFactors s s' := ⟨second.1.trans first.1, second.2.trans first.2⟩

section

variable {s s' : Server} {u : Uuid} {jwt : Jwt} {argon2 : Argon2} {b64 : Base64Engine}
variable {config : AppConfig} {totp : Totp} {auth : AuthUser} {p : Chance → Prop}

/-- What an update does to the columns, if it is decided by them. -/
theorem secondFactors_updateUser {f : Db.User → Db.User} (g : SecondFactor → SecondFactor)
    (sets : ∀ row : Db.User, row.id = u →
      (⟨(f row).id, (f row).has2faEnabled, (f row).totpSecret⟩ : SecondFactor) =
        g ⟨row.id, row.has2faEnabled, row.totpSecret⟩) :
    (s.after (Db.updateUser u f)).secondFactors = s.secondFactors.map fun factor =>
      if factor.userId = u then g factor else factor := by
  unfold Server.after Server.secondFactors Db.updateUser
  rw [List.map_map]
  split
  · rw [List.map_map]
    apply List.map_congr_left
    intro row _
    by_cases is : row.id = u
    · simp [is, sets row is]
    · simp [is]
  · rename_i absent
    apply List.map_congr_left
    intro row member
    have other : row.id ≠ u :=
      fun is => absent (List.any_eq_true.mpr ⟨row, member, by simpa using is⟩)
    simp [other]

theorem secondFactors_enable2fa (secret : Bytes) :
    (s.after (Db.enable2fa u secret)).secondFactors = s.secondFactors.map fun factor =>
      if factor.userId = u then ⟨factor.userId, true, some secret⟩ else factor :=
  secondFactors_updateUser (fun factor => ⟨factor.userId, true, some secret⟩) fun _ _ => rfl

theorem secondFactors_disable2fa :
    (s.after (Db.disable2fa u)).secondFactors = s.secondFactors.map fun factor =>
      if factor.userId = u then ⟨factor.userId, false, none⟩ else factor :=
  secondFactors_updateUser (fun factor => ⟨factor.userId, false, none⟩) fun _ _ => rfl

theorem sameFactors_updateLastSeen (now : Nat) :
    SameFactors s (s.after (Db.updateLastSeen u now)) := by
  let seen (row : Db.User) : Db.User := { row with lastSeenAt := now }
  have updates : Db.updateLastSeen u now = Db.updateUser u seen := rfl
  have same := secondFactors_updateUser (s := s) (u := u) (f := seen) id fun _ _ => rfl
  refine ⟨?_, rfl⟩
  rw [updates, same]
  simp

theorem sameFactors_loginWrites : LoginWrites SameFactors := by
  refine ⟨sameFactors_refl, fun _ _ => ⟨rfl, rfl⟩, fun s ip user success now => ?_,
    fun _ _ _ => sameFactors_updateLastSeen _⟩
  obtain ⟨rows, serial, same⟩ := Db.recordAttempt_snd ip user success now s.db
  rw [same]
  exact ⟨rfl, rfl⟩

theorem sameFactors_deleteDevice (d : Uuid) : Keeps SameFactors (deleteDevice auth d).run := by
  apply keeps_deleteDevice sameFactors_refl
  · intro _ s
    refine ⟨?_, rfl⟩
    unfold Server.after Server.secondFactors Db.deleteDevice
    split <;> rfl
  · exact fun _ => ⟨rfl, rfl⟩

theorem secondFactors_deleteUser : (s.after (Db.deleteUser u)).secondFactors = s.secondFactors ∨
    (s.after (Db.deleteUser u)).secondFactors =
      s.secondFactors.filter fun factor => factor.userId ≠ u := by
  unfold Server.after Server.secondFactors Db.deleteUser
  split
  · split
    · exact Or.inl rfl
    · refine Or.inr ?_
      simp only [Db.Tables.withoutUser, List.filter_map]
      rfl
  · exact Or.inl rfl

theorem bearer_append (token : String) : bearer ("Bearer " ++ token) = some token := by
  have is : hasPrefix "Bearer " ("Bearer " ++ token) = true := hasPrefix_iff.mpr ⟨token, rfl⟩
  rw [bearer, if_pos is, stripPrefix, if_pos is]
  simp

/-- A registration adds a user without a second factor, or no user; tokens are for the new one. -/
theorem factors_register {headers : HeaderMap} {request : RegisterRequest}
    {r : Except HysjError LoginResponse}
    (run : Runs Any (register jwt argon2 b64 config headers request).run s r s') :
    (∃ e, r = .error e) ∧ SameFactors s s' ∨
      ∃ id, (∀ factor ∈ s.secondFactors, factor.userId ≠ id) ∧ s'.redis = s.redis ∧
        s'.secondFactors = s.secondFactors ++ [⟨id, false, none⟩] ∧
        ∀ response, r = .ok response → ∃ d, MintedFor jwt config s.redis.now id d response := by
  rw [register_eq, runs_run_bind] at run
  rcases run with ⟨passes, m, limited, run⟩ | ⟨e, rfl, limited⟩
  swap
  · exact Or.inl
      ⟨⟨_, rfl⟩, limited.keeps (keeps_checkRateLimit fun _ _ => ⟨rfl, rfl⟩) sameFactors_refl
      fun _ _ _ => sameFactors_trans⟩
  obtain ⟨limits, rfl⟩ := runs_checkRateLimit limited
  split at run
  swap
  · obtain ⟨rfl, rfl⟩ := runs_run_throw.mp run
    exact Or.inl ⟨⟨_, rfl⟩, rfl, rfl⟩
  rw [runs_run_bind] at run
  rcases run with ⟨username, m, checked, run⟩ | ⟨e, rfl, checked⟩
  swap
  · obtain ⟨-, rfl⟩ := runs_ofResult.mp checked
    exact Or.inl ⟨⟨_, rfl⟩, rfl, rfl⟩
  obtain ⟨-, rfl⟩ := runs_ofResult.mp checked
  rw [runs_run_bind] at run
  rcases run with ⟨user, m, created, run⟩ | ⟨e, rfl, failed⟩
  swap
  · rcases under_createUser failed with ⟨-, rfl⟩ | ⟨user, salt, other, -⟩
    · exact Or.inl ⟨⟨_, rfl⟩, rfl, rfl⟩
    · cases other
  rcases under_createUser created with
    ⟨⟨e, other⟩, -⟩ | ⟨_, salt, is, rfl, admissible, -, -, off, blank, -⟩
  · cases other
  obtain rfl := Except.ok.inj is
  have kept := run.keeps sameUsers_afterUser (fun _ => ⟨rfl, rfl⟩) fun _ _ _ => sameUsers_trans
  refine Or.inr ⟨user.id, ?_, kept.2, ?_, ?_⟩
  · intro factor member
    obtain ⟨row, there, rfl⟩ := List.mem_map.mp member
    exact admissible.id row there
  · unfold Server.secondFactors
    rw [kept.1]
    simp [Server.withUser, off, blank]
  · rintro response rfl
    simp only [afterUser, runs_run_bind_ok, runs_run_pure, Except.ok.injEq] at run
    obtain ⟨device, m₁, first, _, m₂, second, tokens, m₃, made, rfl, -⟩ := run
    obtain ⟨-, minted⟩ := runs_createTokens made
    have kept := first.keeps (sameUsers_registerDevice _) (fun _ => ⟨rfl, rfl⟩)
      fun _ _ _ => sameUsers_trans
    have kept' := second.keeps (sameUsers_storePreKeys _) (fun _ => ⟨rfl, rfl⟩)
      fun _ _ _ => sameUsers_trans
    rw [kept'.2, kept.2] at minted
    exact ⟨device.id, minted⟩

theorem under_authenticate (possible : ∃ c, p c) {token : String} {r : Except HysjError AuthUser} :
    Runs (Under p) (authenticate jwt config token).run s r s' ↔
      accept jwt config s.redis.now token = r ∧ s = s' := by
  simp only [authenticate, runs_run_bind, under_timestamp possible, under_ofResult, accept,
    Except.ok.injEq, reduceCtorEq, false_and, and_false, exists_false, or_false]
  cases valid :
    (validateToken jwt s.redis.now token config.jwtSecret).mapError HysjError.ofAuth with
  | error e =>
      constructor
      · rintro ⟨_, _, ⟨rfl, rfl⟩, ⟨claims, _, ⟨other, -⟩, -⟩ | ⟨_, rfl, same, rfl⟩⟩
        · rw [valid] at other
          cases other
        · rw [valid] at same
          obtain rfl := Except.error.inj same
          exact ⟨rfl, rfl⟩
      · rintro ⟨rfl, rfl⟩
        exact ⟨_, s, ⟨rfl, rfl⟩, Or.inr ⟨e, rfl, valid, rfl⟩⟩
  | ok claims =>
      have ends {m : Server} :
          Runs (Under p) (match Uuid.parseStr claims.sub, Uuid.parseStr claims.deviceId with
          | some userId, some deviceId => return (⟨userId, deviceId, claims.username⟩ : AuthUser)
          | _, _ => throw .invalidToken : Task HysjError AuthUser).run m r s' ↔
          (match Uuid.parseStr claims.sub, Uuid.parseStr claims.deviceId with
            | some userId, some deviceId => .ok ⟨userId, deviceId, claims.username⟩
            | _, _ => .error .invalidToken) = r ∧ m = s' := by
        cases Uuid.parseStr claims.sub with
        | none => exact runs_run_throw
        | some userId =>
            cases Uuid.parseStr claims.deviceId with
            | none => exact runs_run_throw
            | some deviceId => exact runs_run_pure
      constructor
      · rintro ⟨_, _, ⟨rfl, rfl⟩, ⟨claims', _, ⟨same, rfl⟩, run⟩ | ⟨_, -, other, -⟩⟩
        · rw [valid] at same
          obtain rfl := Except.ok.inj same
          exact ends.mp run
        · rw [valid] at other
          cases other
      · intro ended
        exact ⟨_, s, ⟨rfl, rfl⟩, Or.inl ⟨claims, s, ⟨valid, rfl⟩, ends.mpr ended⟩⟩

theorem under_fromRequestParts (possible : ∃ c, p c) {headers : HeaderMap}
    {r : Except HysjError AuthUser} :
    Runs (Under p) (fromRequestParts jwt config headers).run s r s' ↔
      extract jwt config s.redis.now headers = r ∧ s = s' := by
  unfold fromRequestParts extract
  cases headers "authorization" with
  | none => exact runs_run_throw
  | some header =>
      dsimp only
      cases bearer header with
      | none => exact runs_run_throw
      | some token => exact under_authenticate possible

/-- A request that needs a user ends with its extraction, or goes on for the user. -/
theorem under_authorised {α : Type} (possible : ∃ c, p c) {headers : HeaderMap}
    {t : AuthUser → Task HysjError α} {r : Except HysjError α} :
    Runs (Under p) (fromRequestParts jwt config headers >>= t).run s r s' ↔
      (∃ auth, extract jwt config s.redis.now headers = .ok auth ∧
      Runs (Under p) (t auth).run s r s') ∨
        ∃ e, extract jwt config s.redis.now headers = .error e ∧ r = .error e ∧ s = s' := by
  rw [runs_run_bind]
  simp only [under_fromRequestParts possible]
  constructor
  · rintro (⟨auth, _, ⟨extracted, rfl⟩, run⟩ | ⟨e, rfl, extracted, rfl⟩)
    · exact Or.inl ⟨auth, extracted, run⟩
    · exact Or.inr ⟨e, extracted, rfl, rfl⟩
  · rintro (⟨auth, extracted, run⟩ | ⟨e, extracted, rfl, rfl⟩)
    · exact Or.inl ⟨auth, s, ⟨extracted, rfl⟩, run⟩
    · exact Or.inr ⟨e, rfl, extracted, rfl⟩

/-- A token of the server is accepted as a bearer token until it expires. -/
theorem extract_of_minted (lawful : jwt.Lawful) {token : String} {d : Uuid} {exp now : Nat}
    (minted : Minted jwt config token u d exp) (current : now ≤ exp + LEEWAY) :
    ∃ auth, extract jwt config now (fun _ => some ("Bearer " ++ token)) = .ok auth ∧
      auth.userId = u ∧ auth.deviceId = d := by
  obtain ⟨claims, encoded, sub, device, rfl⟩ := minted
  have valid :
      (validateToken jwt now token config.jwtSecret).mapError HysjError.ofAuth = .ok claims := by
    rw [Result.mapError_eq_ok, validateToken_eq_ok, lawful.decode_eq_ok encoded]
    exact ⟨current, rfl⟩
  refine ⟨⟨u, d, claims.username⟩, ?_, rfl, rfl⟩
  simp only [extract, bearer_append, accept, valid, sub, device, Uuid.parseStr_display]

theorem extract_of_registered (lawful : jwt.Lawful) {headers : HeaderMap}
    {request : RegisterRequest}
    {response : LoginResponse}
    (run : Runs Any (register jwt argon2 b64 config headers request).run s (.ok response) s') :
    ∃ auth, extract jwt config s'.redis.now
        (fun _ => some ("Bearer " ++ response.accessToken)) = .ok auth ∧
      s'.secondFactors = s.secondFactors ++ [⟨auth.userId, false, none⟩] := by
  rcases factors_register run with ⟨⟨e, other⟩, -⟩ | ⟨id, -, clock, added, minted⟩
  · cases other
  obtain ⟨d, minted⟩ := minted response rfl
  obtain ⟨exp, long, minted⟩ := minted response.accessToken List.mem_cons_self
  have current : s'.redis.now ≤ exp + LEEWAY := by
    rw [clock]
    exact Nat.le_trans long (Nat.le_add_right _ _)
  obtain ⟨auth, extracted, rfl, -⟩ := extract_of_minted lawful minted current
  exact ⟨auth, extracted, added⟩

/-- Setting up replaces whatever secret there is, unless the statement fails. -/
theorem under_setup2fa {c : Chance} {r : Except HysjError TwoFactorSetupResponse}
    (run : Runs (Under fun c' => c' = c) (setup2fa totp auth).run s r s') :
    (∃ qrUri, generateTotpUri totp (totp.generateSecret c.uuid) auth.username = some qrUri) ∧
      s' = if c.fault = none then
        s.after (Db.enable2fa auth.userId (strBytes (totp.generateSecret c.uuid))) else s := by
  rw [setup2fa, under_random_bind] at run
  obtain ⟨drawn, is, run⟩ := run
  rw [is] at run
  dsimp only at run
  split at run
  · cases run
  rename_i qrUri made
  refine ⟨⟨qrUri, made⟩, ?_⟩
  rw [runs_run_bind] at run
  simp only [runs_adapt, runs_run_pure] at run
  have wrote {r : Except DbError Unit} {m : Server}
      (run : Runs (Under fun c' => c' = c) (query fun _ => Db.enable2fa auth.userId
        (strBytes (totp.generateSecret c.uuid))).run s r m) :
      m = if c.fault = none then
        s.after (Db.enable2fa auth.userId (strBytes (totp.generateSecret c.uuid))) else s := by
    rcases under_query.mp run with ⟨_, rfl, clean, -, rfl⟩ | ⟨_, text, rfl, fault, -, rfl⟩
    · rw [if_pos clean]
      rfl
    · rw [if_neg (by simp [fault])]
  rcases run with ⟨_, m, ⟨r, run, -⟩, -, rfl⟩ | ⟨e, -, r, run, -⟩
  · exact wrote run
  · exact wrote run

theorem any_of_secondFactor {factor : SecondFactor} (found : s.secondFactor u = some factor) :
    s.db.users.any (fun row => row.id = u) = true := by
  rw [Server.secondFactor] at found
  obtain ⟨row, member, rfl⟩ := List.mem_map.mp (List.mem_of_find?_eq_some found)
  have is : row.id = u := by simpa using List.find?_some found
  exact List.any_eq_true.mpr ⟨row, member, decide_eq_true is⟩

/-- Whoever presents a token of a user can set up whatever secret is drawn. -/
theorem setup2fa_runs {headers : HeaderMap} {c : Chance} {factor : SecondFactor} {qrUri : String}
    (possible : p c) (clean : c.fault = none)
    (extracted : extract jwt config s.redis.now headers = .ok auth)
    (found : s.secondFactor auth.userId = some factor)
    (made : generateTotpUri totp (totp.generateSecret c.uuid) auth.username = some qrUri) :
    Runs (Under p) (fromRequestParts jwt config headers >>= setup2fa totp).run s
      (.ok ⟨totp.generateSecret c.uuid, qrUri⟩)
      (s.after (Db.enable2fa auth.userId (strBytes (totp.generateSecret c.uuid)))) := by
  have there := any_of_secondFactor found
  apply (under_authorised ⟨c, possible⟩).mpr
  refine Or.inl ⟨auth, extracted, ?_⟩
  refine runs_run_bind_ok.mpr ⟨c.uuid, s, under_random.mpr ⟨c, possible, rfl, rfl⟩, ?_⟩
  simp only [made]
  refine runs_run_bind_ok.mpr ⟨(), _, runs_adapt_ok.mpr ?_, runs_run_pure.mpr ⟨rfl, rfl⟩⟩
  apply under_query.mpr
  exact Or.inl ⟨c, possible, clean, by simp [Db.enable2fa, Db.updateUser, there], rfl⟩

/-- The code is right for the secret at a time. -/
def ValidCode (totp : Totp) (now : Nat) (secret : Bytes) (code : String) : Prop :=
  ∃ text, Utf8.fromUtf8 secret = some text ∧ verifyTotp totp now text code = .ok true

theorem secondFactor_of_find {user : Db.User}
    (found : s.db.users.find? (fun row => row.id = u) = some user) :
    s.secondFactor u = some ⟨user.id, user.has2faEnabled, user.totpSecret⟩ := by
  unfold Server.secondFactor Server.secondFactors
  rw [List.find?_map]
  have same : s.db.users.find? ((fun factor : SecondFactor => decide (factor.userId = u)) ∘
      fun row => ⟨row.id, row.has2faEnabled, row.totpSecret⟩) = some user := found
  rw [same]
  rfl

theorem find_of_secondFactor {factor : SecondFactor} (found : s.secondFactor u = some factor) :
    ∃ user, s.db.users.find? (fun row => row.id = u) = some user ∧
    user.totpSecret = factor.secret := by
  cases there : s.db.users.find? fun row => row.id = u with
  | none =>
      rw [Server.secondFactor, Server.secondFactors, List.find?_map,
        Option.map_eq_some_iff] at found
      obtain ⟨user, other, -⟩ := found
      cases there.symm.trans other
  | some user =>
      obtain rfl := Option.some.inj ((secondFactor_of_find there).symm.trans found)
      exact ⟨user, rfl, rfl⟩

theorem checkCode_unset {missing : String} {request : TwoFactorVerifyRequest}
    {factor : SecondFactor}
    (found : s.secondFactor auth.userId = some factor) (unset : factor.secret = none) :
    Runs Any (checkCode totp missing auth request).run s (.error (.validationError missing)) s := by
  obtain ⟨user, found, same⟩ := find_of_secondFactor found
  refine runs_run_bind.mpr (Or.inl ⟨some user, s, ?_, ?_⟩)
  · exact runs_adapt_ok.mpr (runs_query_ok.mpr ⟨congrArg Except.ok found, rfl⟩)
  · simp only [same, unset]
    exact runs_run_throw.mpr ⟨rfl, rfl⟩

theorem checkCode_right {missing : String} {request : TwoFactorVerifyRequest}
    {factor : SecondFactor}
    {secret : Bytes} (found : s.secondFactor auth.userId = some factor)
    (held : factor.secret = some secret) (right : ValidCode totp s.redis.now secret request.code) :
    Runs Any (checkCode totp missing auth request).run s (.ok ()) s := by
  obtain ⟨user, found, same⟩ := find_of_secondFactor found
  obtain ⟨text, is, checked⟩ := right
  refine runs_run_bind_ok.mpr ⟨some user, s, ?_, ?_⟩
  · exact runs_adapt_ok.mpr (runs_query_ok.mpr ⟨congrArg Except.ok found, rfl⟩)
  · simp only [same, held, is]
    refine runs_run_bind_ok.mpr ⟨_, s, runs_timestamp.mpr ⟨rfl, rfl⟩, ?_⟩
    refine runs_run_bind_ok.mpr ⟨true, s, runs_ofResult.mpr ⟨?_, rfl⟩, runs_run_pure.mpr ⟨rfl, rfl⟩⟩
    rw [checked]
    rfl

/-- A check leaves the state alone, and passes only with a code that is right for the secret. -/
theorem runs_checkCode {missing : String} {request : TwoFactorVerifyRequest}
    {r : Except HysjError Unit}
    (run : Runs Any (checkCode totp missing auth request).run s r s') :
    s = s' ∧ (r = .ok () → ∃ factor secret, s.secondFactor auth.userId = some factor ∧
      factor.secret = some secret ∧ ValidCode totp s.redis.now secret request.code) := by
  constructor
  · refine run.keeps ?_ (fun _ => rfl) fun _ _ _ => Eq.trans
    refine Keeps.run_bind (Keeps.adapt (keeps_query (fun _ => rfl) fun _ => rfl)) fun found => ?_
    cases found with
    | none => exact keeps_pure _
    | some user =>
        dsimp only
        split
        · exact keeps_pure _
        · split
          · exact keeps_pure _
          · refine Keeps.run_bind (keeps_timestamp fun _ => rfl) fun now => ?_
            refine Keeps.run_bind (keeps_ofResult _) fun right => ?_
            split <;> exact keeps_pure _
  · rintro rfl
    simp only [checkCode, runs_run_bind_ok, runs_adapt_ok, runs_query_ok] at run
    obtain ⟨found, _, ⟨answer, rfl⟩, run⟩ := run
    have found := Except.ok.inj answer
    split at run
    · cases (runs_run_throw.mp run).1
    · rename_i user
      split at run
      · cases (runs_run_throw.mp run).1
      · rename_i totpSecret holds
        split at run
        · cases (runs_run_throw.mp run).1
        · rename_i text is
          simp only [runs_run_bind_ok, runs_timestamp, runs_ofResult, Except.ok.injEq] at run
          obtain ⟨_, _, ⟨rfl, rfl⟩, right, _, ⟨checked, rfl⟩, run⟩ := run
          rw [Result.mapError_eq_ok] at checked
          split at run
          · rename_i passes
            subst passes
            exact ⟨_, totpSecret, secondFactor_of_find found, holds, text, is, checked⟩
          · cases (runs_run_throw.mp run).1

theorem runs_verify2fa {request : TwoFactorVerifyRequest} {r : Except HysjError Json.Value}
    (run : Runs Any (verify2fa totp auth request).run s r s') : s = s' := by
  rcases runs_run_bind.mp run with ⟨_, m, checked, rest⟩ | ⟨e, -, checked⟩
  · exact (runs_checkCode checked).1.trans (runs_run_pure.mp rest).2
  · exact (runs_checkCode checked).1

/-- An endpoint that ends with a statement has run it, or it failed. -/
theorem runs_statement {α β : Type} {f : DbError → HysjError} {statement : Db.Statement α} {b : β}
    {r : Except HysjError β}
    (run : Runs Any (do
      let _ ← ExceptT.adapt f (query fun _ => statement)
      return b : Task HysjError β).run s r s') : s' = s ∨ s' = s.after statement := by
  have wrote {r : Except DbError α} {m : Server}
      (run : Runs Any (query fun _ => statement).run s r m) : m = s ∨ m = s.after statement := by
    rcases under_query.mp run with ⟨c, -, -, -, rfl⟩ | ⟨c, text, -, -, -, rfl⟩
    · exact Or.inr rfl
    · exact Or.inl rfl
  rw [runs_run_bind] at run
  simp only [runs_adapt, runs_run_pure] at run
  rcases run with ⟨_, m, ⟨r, ran, -⟩, -, rfl⟩ | ⟨e, -, r, ran, -⟩
  · exact wrote ran
  · exact wrote ran

/-- Disabling changes something only with a code that is right for the secret. -/
theorem runs_disable2fa {request : TwoFactorVerifyRequest} {r : Except HysjError Json.Value}
    (run : Runs Any (disable2fa totp auth request).run s r s') :
    s' = s ∨ s' = s.after (Db.disable2fa auth.userId) ∧
      ∃ factor secret, s.secondFactor auth.userId = some factor ∧ factor.secret = some secret ∧
        ValidCode totp s.redis.now secret request.code := by
  rcases runs_run_bind.mp run with ⟨_, m, checked, rest⟩ | ⟨e, -, checked⟩
  swap
  · exact Or.inl (runs_checkCode checked).1.symm
  obtain ⟨rfl, right⟩ := runs_checkCode checked
  exact (runs_statement rest).imp_right fun done => ⟨done, right rfl⟩

/-- Setting up enables the second factor of the user, or does nothing. -/
theorem runs_setup2fa {r : Except HysjError TwoFactorSetupResponse}
    (run : Runs Any (setup2fa totp auth).run s r s') :
    s' = s ∨ ∃ secret, s' = s.after (Db.enable2fa auth.userId secret) := by
  rw [setup2fa, runs_run_bind] at run
  rcases run with ⟨id, m, drawn, run⟩ | ⟨e, -, drawn⟩
  swap
  · exact Or.inl (runs_random drawn).symm
  obtain rfl := runs_random drawn
  dsimp only at run
  split at run
  · cases run
  · exact (runs_statement run).imp_right fun done => ⟨_, done⟩

theorem runs_deleteAccount_any {r : Except HysjError Json.Value}
    (run : Runs Any (deleteAccount auth).run s r s') :
    s' = s ∨ s' = s.after (Db.deleteUser auth.userId) := runs_statement run

/-- A request about accounts, tokens and devices changes no second factor, adds a user without
one, or removes the user of the token it presents. -/
theorem factors_account {request : AuthRequest} {r : Except HysjError (Option LoginResponse)}
    (run : Runs Any (request.handle jwt argon2 b64 config).run s r s') :
    s'.secondFactors = s.secondFactors ∨
    (∃ id, (∀ factor ∈ s.secondFactors, factor.userId ≠ id) ∧
      s'.secondFactors = s.secondFactors ++ [⟨id, false, none⟩]) ∨
    ∃ token ∈ request.token, ∃ u d, Names jwt config s.redis.now token u d ∧
      s'.secondFactors = s.secondFactors.filter fun factor => factor.userId ≠ u := by
  have same {α : Type} {t : Task HysjError α} {a : α → Option LoginResponse}
      (keeps : Keeps SameFactors t.run)
      (run : Runs Any (t >>= fun response => pure (a response)).run s r s') :
      s'.secondFactors = s.secondFactors :=
    (run.keeps (keeps.run_bind fun _ => keeps_pure _) sameFactors_refl
      fun _ _ _ => sameFactors_trans).1
  cases request with
  | register headers request =>
      have registered :
          ∃ r, Runs Any (register jwt argon2 b64 config headers request).run s r s' := by
        rcases runs_run_bind.mp run with ⟨response, _, ran, rest⟩ | ⟨e, -, ran⟩
        · obtain ⟨-, rfl⟩ := runs_run_pure.mp rest
          exact ⟨_, ran⟩
        · exact ⟨_, ran⟩
      obtain ⟨r, ran⟩ := registered
      rcases factors_register ran with ⟨-, kept⟩ | ⟨id, new, -, added, -⟩
      · exact Or.inl kept.1
      · exact Or.inr (Or.inl ⟨id, new, added⟩)
  | login headers request => exact Or.inl (same (sameFactors_loginWrites.login headers request) run)
  | refresh request => exact Or.inl (same (keeps_refresh sameFactors_refl request) run)
  | deleteDevice headers d =>
      rcases runs_authorised run with ⟨-, rfl⟩ | ⟨token, -, auth, -, run⟩
      · exact Or.inl rfl
      · exact Or.inl (same (sameFactors_deleteDevice d) run)
  | deleteAccount headers =>
      rcases runs_authorised run with ⟨-, rfl⟩ | ⟨token, presented, auth, named, run⟩
      · exact Or.inl rfl
      · have deleted : s' = s ∨ s' = s.after (Db.deleteUser auth.userId) := by
          rcases runs_run_bind.mp run with ⟨_, _, ran, rest⟩ | ⟨e, -, ran⟩
          · obtain ⟨-, rfl⟩ := runs_run_pure.mp rest
            exact runs_deleteAccount_any ran
          · exact runs_deleteAccount_any ran
        rcases deleted with rfl | rfl
        · exact Or.inl rfl
        · refine secondFactors_deleteUser.imp_right fun removed => Or.inr ?_
          exact ⟨token, presented, auth.userId, auth.deviceId, named, removed⟩

end

end Hysj.Api
