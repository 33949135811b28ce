import Hysj.Api.SenderCertificate
import Hysj.Api.State
import Hysj.Auth.Credentials

set_option autoImplicit false

/- Registration, login and tokens, the two places that accept a token, and the requests that
delete devices. -/
namespace Hysj.Shared

def LOGIN_MAX : Nat := 100

def LOGIN_WINDOW_SECONDS : Nat := 60

def LOGIN_LOCKOUT_SECONDS : Nat := 60

def REGISTER_MAX : Nat := 100

def REGISTER_WINDOW_SECONDS : Nat := 60

structure RegisterRequest where
  username : Option String
  phoneNumber : String
  password : String
  /-- Base64-encoded identity public key -/
  identityPublicKey : String
  signedPreKey : String
  signedPreKeySignature : String
  kyberPublicKey : String
  oneTimePreKeys : List String
  deviceName : String

structure LoginRequest where
  phoneNumber : String
  password : String
  deviceId : Option Uuid

structure LoginResponse where
  accessToken : String
  refreshToken : String
  userId : Uuid
  deviceId : Uuid
  requires2fa : Bool

structure RefreshRequest where
  refreshToken : String

/-- `Uuid::nil()` -/
def Uuid.nil : Uuid := .replicate 16 0

end Hysj.Shared

namespace Hysj.Api

open Crypto Shared Auth Messaging Program

/-- The text of the first value under a name, if there is one and it is plain text. -/
abbrev HeaderMap := String → Option String

def trim (text : List Char) : List Char :=
  ((text.dropWhile Char.isWhitespace).reverse.dropWhile Char.isWhitespace).reverse

/-- Extract client IP from headers (proxy-aware) or connection info. -/
def extractIp (headers : HeaderMap) : String :=
  match headers "cf-connecting-ip" with
  | some cf => cf
  | none =>
      match headers "x-forwarded-for" with
      | some xff => String.ofList (trim (xff.toList.takeWhile fun c => c ≠ ','))
      | none => (headers "x-real-ip").getD "unknown"

section

variable {ε α : Type}

/-- A result that is known without a step. -/
def ofResult (result : Except ε α) : Task ε α := ExceptT.mk (pure result)

/-- `Utc::now().timestamp()` -/
def timestamp : Task ε Nat := atomically fun s => (s.redis.now, s)

/-- Sixteen random bytes. -/
def random : Task ε Uuid := liftM (.act fun c s => (c.uuid, s) : Program Chance Server Uuid)

end

section

variable (jwt : Jwt) (argon2 : Argon2) (b64 : Base64Engine) (config : AppConfig)

/-- The user and device a valid token names. -/
def authenticate (token : String) : Task HysjError AuthUser := do
  let now ← timestamp
  let claims ← ofResult ((validateToken jwt now token config.jwtSecret).mapError .ofAuth)
  match Uuid.parseStr claims.sub, Uuid.parseStr claims.deviceId with
  | some userId, some deviceId => return ⟨userId, deviceId, claims.username⟩
  | _, _ => throw .invalidToken

/-- `strip_prefix("Bearer ")` -/
def bearer (header : String) : Option String :=
  if hasPrefix "Bearer " header then some (stripPrefix "Bearer " header) else none

/-- `AuthUser::from_request_parts` -/
def fromRequestParts (headers : HeaderMap) : Task HysjError AuthUser :=
  match headers "authorization" with
  | none => throw (.authFailed "Missing Authorization header")
  | some header =>
      match bearer header with
      | none => throw (.authFailed "Invalid Authorization format")
      | some token => authenticate jwt config token

/-- `GET /ws?token=JWT`, up to the socket of the device. -/
def wsUpgrade (params : String → Option String) : Task HysjError AuthUser :=
  match params "token" with
  | none => throw (.authFailed "Missing token query parameter")
  | some token => authenticate jwt config token

/-- An access token and a refresh token. -/
def createTokens (userId deviceId : Uuid) (username : String) :
    Task HysjError (String × String) := do
  let now ← timestamp
  let accessToken ← ofResult
    ((createAccessToken jwt now userId deviceId username config.jwtSecret).mapError .ofAuth)
  let now ← timestamp
  let refreshToken ← ofResult
    ((createRefreshToken jwt now userId deviceId username config.jwtSecret).mapError .ofAuth)
  return (accessToken, refreshToken)

/-- The user name of a request whose lengths are right. -/
def checkLengths (request : RegisterRequest) : Except HysjError String :=
  let username := request.username.getD ""
  if username ≠ "" ∧ (username.utf8ByteSize < 3 ∨ 32 < username.utf8ByteSize) then
    .error (.validationError "Username must be 3-32 characters")
  else if request.deviceName = "" ∨ 64 < request.deviceName.utf8ByteSize then
    .error (.validationError "Device name must be 1-64 characters")
  else if request.password.utf8ByteSize < 8 then
    .error (.validationError "Password must be at least 8 characters")
  else .ok username

/-- A field in base64. -/
def decodeField (message text : String) : Except HysjError Bytes :=
  (b64.decode text).mapError fun e => .validationError (message ++ e)

/-- The user of a registration, with the fields it needs decoded. -/
def createUser (request : RegisterRequest) (username : String) : Task HysjError Db.User := do
  let salt ← random
  let (passwordHash, salt) ← ofResult ((hashPassword argon2 salt request.password).mapError
    fun e => .authFailed e.display)
  let identityPk ← ofResult
    (decodeField b64 "Invalid identity_public_key base64: " request.identityPublicKey)
  let id ← random
  ExceptT.adapt .ofDb (query fun now => Db.createUser
    ⟨id, username, request.phoneNumber, none, passwordHash, salt, identityPk,
    identityPk, none, false,
      now, now, none, "online"⟩)

/-- The device of a registration. -/
def registerDevice (request : RegisterRequest) (userId : Uuid) : Task HysjError Db.Device := do
  let signedPreKey ← ofResult (decodeField b64 "Invalid signed_pre_key: " request.signedPreKey)
  let signedPreKeySig ← ofResult
    (decodeField b64 "Invalid signature: " request.signedPreKeySignature)
  let kyberPk ← ofResult (decodeField b64 "Invalid kyber key: " request.kyberPublicKey)
  let id ← random
  ExceptT.adapt .ofDb (query fun now => Db.registerDevice
    ⟨id, userId, request.deviceName, signedPreKey, signedPreKeySig, kyberPk, false, now, now⟩)

/-- The one-time keys of a registration. -/
def storePreKeys (request : RegisterRequest) (deviceId : Uuid) : Task HysjError Unit := do
  let preKeys ← ofResult (request.oneTimePreKeys.mapM (decodeField b64 "Invalid pre-key: "))
  ExceptT.adapt .ofDb (forM preKeys fun key => query fun _ => Db.storePreKey deviceId key)

/-- `POST /api/auth/register` -/
def register (headers : HeaderMap) (request : RegisterRequest) : Task HysjError LoginResponse := do
  if ← checkRateLimit ("register:" ++ extractIp headers) REGISTER_MAX REGISTER_WINDOW_SECONDS then
    let username ← ofResult (checkLengths request)
    let user ← createUser argon2 b64 request username
    let device ← registerDevice b64 request user.id
    storePreKeys b64 request device.id
    let tokens ← createTokens jwt config user.id device.id user.username
    return ⟨tokens.1, tokens.2, user.id, device.id, false⟩
  else throw .rateLimited

/-- The device that a login is for. -/
def loginDevice (request : LoginRequest) (user : Db.User) : Task HysjError Db.Device :=
  match request.deviceId with
  | some deviceId =>
      ExceptT.adapt (fun _ => .deviceNotFound deviceId) (query fun _ => Db.findDeviceById deviceId)
  | none =>
      ExceptT.adapt (fun _ => .authFailed "No device registered")
        (query fun _ => Db.findOneDeviceForUser user.id)

/-- A login of a user who is known by the phone number. -/
def loginUser (ip : String) (request : LoginRequest) (user : Db.User) :
    Task HysjError LoginResponse := do
  if ← ofResult ((verifyPassword argon2 request.password user.passwordHash).mapError
      fun e => .authFailed e.display) then
    ExceptT.adapt .ofDb (query fun now => Db.recordAttempt ip (some user.id) true now)
    if user.has2faEnabled then return ⟨"", "", user.id, .nil, true⟩
    else
      let device ← loginDevice request user
      let tokens ← createTokens jwt config user.id device.id user.username
      ExceptT.adapt .ofDb (query fun now => Db.updateLastSeen user.id now)
      return ⟨tokens.1, tokens.2, user.id, device.id, false⟩
  else
    ExceptT.adapt .ofDb (query fun now => Db.recordAttempt ip (some user.id) false now)
    throw .invalidCredentials

/-- `POST /api/auth/login` -/
def login (headers : HeaderMap) (request : LoginRequest) : Task HysjError LoginResponse := do
  let ip := extractIp headers
  if ← checkRateLimit ("login:" ++ ip) LOGIN_MAX LOGIN_WINDOW_SECONDS then
    let failures ← ExceptT.adapt .ofDb
      (query fun now => Db.countRecentFailures ip LOGIN_LOCKOUT_SECONDS now)
    if LOGIN_MAX ≤ failures then throw .rateLimited
    else
      match ← ExceptT.adapt .ofDb (query fun _ => Db.findByPhoneNumber request.phoneNumber) with
      | some user => loginUser jwt argon2 config ip request user
      | none => throw .invalidCredentials
  else throw .rateLimited

/-- `POST /api/auth/refresh` -/
def refresh (request : RefreshRequest) : Task HysjError LoginResponse := do
  let auth ← authenticate jwt config request.refreshToken
  let tokens ← createTokens jwt config auth.userId auth.deviceId auth.username
  return ⟨tokens.1, tokens.2, auth.userId, auth.deviceId, false⟩

/-- `DELETE /api/devices/:device_id` -/
def deleteDevice (auth : AuthUser) (deviceId : Uuid) : Task HysjError Json.Value := do
  if deviceId = auth.deviceId then
    throw (.validationError "Cannot delete the device you are currently using")
  else
    if ← ExceptT.adapt .ofDb (query fun _ => Db.deleteDevice deviceId auth.userId) then
      liftM (disconnect deviceId)
      return .obj [("deleted", .bool true)]
    else throw (.deviceNotFound deviceId)

/-- `DELETE /api/auth/account` -/
def deleteAccount (auth : AuthUser) : Task HysjError Json.Value := do
  ExceptT.adapt .ofDb (query fun _ => Db.deleteUser auth.userId)
  return .obj [("status", .str "account_deleted")]

end

end Hysj.Api
