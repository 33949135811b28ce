import Hysj.Base.Result
import Hysj.Base.Serde
import Hysj.Shared.Uuid

set_option autoImplicit false

/- Passwords, and access and refresh tokens. -/
namespace Hysj.Shared

def AuthError.display : AuthError → String
  | .hashingFailed message => "password hashing failed: " ++ message
  | .tokenCreationFailed message => "token creation failed: " ++ message
  | .tokenValidationFailed message => "token validation failed: " ++ message
  | .invalidToken => "invalid token"
  | .expired => "token or certificate has expired"
  | .totpError message => "TOTP error: " ++ message
  | .certificateError message => "certificate error: " ++ message

/-- `AppError::from` at an authentication error. -/
def HysjError.ofAuth : AuthError → HysjError
  | .expired => .tokenExpired
  | .invalidToken => .invalidToken
  | .tokenValidationFailed message => .authFailed message
  | other => .authFailed other.display

end Hysj.Shared

namespace Hysj.Auth

open Crypto Shared

/-- The `argon2` crate: the text of a random salt, the hash of a password with it, and whether
a hash is one of a password. -/
structure Argon2 where
  saltString : ByteArr 16 → String
  hashPassword : String → String → Except String String
  verifyPassword : String → String → Except String Bool

/-- Hash a password with Argon2id. Returns the hash string and the raw salt bytes. -/
def hashPassword (argon2 : Argon2) (random : ByteArr 16) (password : String) :
    Except AuthError (String × Bytes) := do
  let salt := argon2.saltString random
  let hash ← (argon2.hashPassword password salt).mapError .hashingFailed
  return (hash, strBytes salt)

/-- Verify a password against a hash string. -/
def verifyPassword (argon2 : Argon2) (password hash : String) : Except AuthError Bool :=
  (argon2.verifyPassword password hash).mapError .hashingFailed

/-- The password in place of its hash. -/
def Argon2.sample : Argon2 where
  saltString _ := "salt"
  hashPassword password _ := .ok password
  verifyPassword password hash := .ok (password = hash)

/-- JWT access token expiry (15 minutes) -/
def ACCESS_TOKEN_EXPIRY_SECONDS : Nat := 15 * 60

/-- JWT refresh token expiry (30 days) -/
def REFRESH_TOKEN_EXPIRY_SECONDS : Nat := 30 * 24 * 60 * 60

structure Claims where
  /-- User ID (subject) -/
  sub : String
  /-- Device UUID -/
  deviceId : String
  username : String
  /-- Expiry timestamp (seconds since epoch) -/
  exp : Nat
  /-- Issued-at timestamp (seconds since epoch) -/
  iat : Nat
  deriving DecidableEq

/-- Why `jsonwebtoken` rejects a token. -/
inductive ErrorKind where
  | expiredSignature
  | invalidToken
  | other (message : String)

/-- `encode` and `decode` of `jsonwebtoken` with HS256 and the default validation, at a time. -/
structure Jwt where
  encode : Claims → String → Except String String
  decode : Nat → String → String → Except ErrorKind Claims

/-- For so many seconds after its expiry the default validation lets a token pass. -/
def LEEWAY : Nat := 60

/-- A token is read as it was written until it has expired, and the empty text is no token. -/
structure Jwt.Lawful (jwt : Jwt) : Prop where
  decode_encode : ∀ {claims secret token}, jwt.encode claims secret = .ok token → ∀ now,
    jwt.decode now token secret =
      if now ≤ claims.exp + LEEWAY then .ok claims else .error .expiredSignature
  decode_empty : ∀ now secret claims, jwt.decode now "" secret ≠ .ok claims

variable (jwt : Jwt)

/-- Create a token with a lifetime. -/
def createToken (lifetime now : Nat) (userId deviceId : Uuid) (username secret : String) :
    Except AuthError String :=
  (jwt.encode
    { sub := userId.display
      deviceId := deviceId.display
      username := username
      exp := now + lifetime
      iat := now } secret).mapError .tokenCreationFailed

/-- Create a short-lived access token (15 minutes). -/
def createAccessToken := createToken jwt ACCESS_TOKEN_EXPIRY_SECONDS

/-- Create a long-lived refresh token (30 days). -/
def createRefreshToken := createToken jwt REFRESH_TOKEN_EXPIRY_SECONDS

/-- Validate and decode a JWT token, returning the claims if valid. -/
def validateToken (now : Nat) (token secret : String) : Except AuthError Claims :=
  (jwt.decode now token secret).mapError fun kind =>
    match kind with
    | .expiredSignature => .expired
    | .invalidToken => .invalidToken
    | .other message => .tokenValidationFailed message

variable {jwt} {lifetime now : Nat} {u d : Uuid} {username secret token : String} {claims : Claims}

theorem createToken_eq_ok : createToken jwt lifetime now u d username secret = .ok token ↔
    jwt.encode ⟨u.display, d.display, username, now + lifetime, now⟩ secret = .ok token :=
  Result.mapError_eq_ok

theorem validateToken_eq_ok :
    validateToken jwt now token secret = .ok claims ↔ jwt.decode now token secret = .ok claims :=
  Result.mapError_eq_ok

theorem Jwt.Lawful.decode_eq_ok (lawful : jwt.Lawful) {claims' : Claims}
    (encoded : jwt.encode claims secret = .ok token) :
    jwt.decode now token secret = .ok claims' ↔ now ≤ claims.exp + LEEWAY ∧ claims = claims' := by
  rw [lawful.decode_encode encoded]
  by_cases current : now ≤ claims.exp + LEEWAY
  · rw [if_pos current, Except.ok.injEq]
    exact (and_iff_right current).symm
  · rw [if_neg current]
    simp [current]

/-- Tokens that carry their secret, in place of signed ones. -/
def Jwt.sample : Jwt where
  encode claims secret :=
    .ok (String.ofList (Json.render (.arr
      [.str claims.sub, .str claims.deviceId, .str claims.username, .num claims.exp,
        .num claims.iat, .str secret])))
  decode now token secret :=
    match SerdeJson.sample.fromSlice (Json.utf8 token.toList) with
    | .ok (.arr [.str sub, .str deviceId, .str username, .num exp, .num iat, .str signed]) =>
        if signed ≠ secret then .error (.other "InvalidSignature")
        else if now ≤ exp.toNat + LEEWAY then
          .ok ⟨sub, deviceId, username, exp.toNat, iat.toNat⟩
        else .error .expiredSignature
    | _ => .error .invalidToken

theorem Jwt.sample_lawful : sample.Lawful := by
  constructor
  · intro claims secret token encoded now
    obtain rfl := Except.ok.inj encoded
    have read := SerdeJson.sample_fromSlice (.arr
      [.str claims.sub, .str claims.deviceId, .str claims.username, .num claims.exp,
        .num claims.iat, .str secret])
    rw [Json.toVec] at read
    simp [sample, read]
  · intro now secret claims decoded
    have rejects : sample.decode now "" secret = .error .invalidToken := rfl
    rw [rejects] at decoded
    cases decoded

end Hysj.Auth
