import Hysj.Crypto.Primitives

set_option autoImplicit false

/- Identifiers and errors that the server's crates share. -/
namespace Hysj.Shared

open Crypto (Bytes ByteArr)

abbrev Uuid := ByteArr 16

instance : LawfulBEq Uuid := inferInstance

/-- `to_string`: lower-case digits in five groups. -/
def Uuid.display (id : Uuid) : String :=
  String.ofList (group 0 4 ++ '-' :: group 4 2 ++ '-' :: group 6 2 ++ '-' :: group 8 2 ++
    '-' :: group 10 6)
where
  group (first count : Nat) : List Char :=
    ((id.toList.drop first).take count).flatMap fun b =>
      [Json.hexChar (b.toNat / 16), Json.hexChar (b.toNat % 16)]

inductive HysjError where
  | authFailed (message : String)
  | invalidCredentials
  | userNotFound (id : Uuid)
  | deviceNotFound (id : Uuid)
  | groupNotFound (id : Uuid)
  | preKeyExhausted (id : Uuid)
  | rateLimited
  | twoFactorRequired
  | invalidTwoFactorCode
  | tokenExpired
  | invalidToken
  | wipeFailed (message : String)
  | cryptoError (message : String)
  | databaseError (message : String)
  | redisError (message : String)
  | validationError (message : String)
  | forbidden (message : String)
  | notFound (message : String)
  | internalError (message : String)
  | internal
  deriving DecidableEq

inductive DbError where
  | queryFailed (message : String)
  | notFound
  | conflict (message : String)
  deriving DecidableEq

/-- `AppError::from` at a database error. -/
def HysjError.ofDb : DbError → HysjError
  | .notFound => .internal
  | .conflict message => .validationError message
  | .queryFailed message => .databaseError message

inductive AuthError where
  | hashingFailed (message : String)
  | tokenCreationFailed (message : String)
  | tokenValidationFailed (message : String)
  | invalidToken
  | expired
  | totpError (message : String)
  | certificateError (message : String)
  deriving DecidableEq

end Hysj.Shared
