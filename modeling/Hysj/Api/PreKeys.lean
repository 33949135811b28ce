import Hysj.Api.Registration
import Hysj.Base.PoolRuns
import Hysj.Db.PreKeys

set_option autoImplicit false

/- The endpoints over one-time pre-keys, and calls of them in progress. -/
namespace Hysj.Shared

/-- Max one-time pre-keys per device -/
def MAX_PRE_KEYS_PER_DEVICE : Nat := 100

def PREKEY_FETCH_MAX : Nat := 30

def PREKEY_FETCH_WINDOW_SECONDS : Nat := 60

structure PreKeyBundleResponse where
  deviceId : String
  identityPublicKey : String
  signedPreKey : String
  signedPreKeySignature : String
  oneTimePreKey : Option String
  kyberPublicKey : String

structure ReplenishPreKeysRequest where
  preKeys : List String

end Hysj.Shared

namespace Hysj.Db

structure PreKeyBundleData where
  identityPublicKey : Crypto.Bytes
  identityDhPublicKey : Crypto.Bytes
  deviceId : Shared.Uuid
  signedPreKey : Crypto.Bytes
  signedPreKeySig : Crypto.Bytes
  oneTimePreKey : Option Crypto.Bytes
  kyberPublicKey : Crypto.Bytes

end Hysj.Db

namespace Hysj.Api

open Crypto Shared Auth Messaging Program

namespace Keys

/-- The end of `claim_one_time_pre_key`, with the row that it has locked. A statement that fails
leaves no lock behind. -/
def useClaimed (id : Nat) : Task DbError (Option Db.PreKey) :=
  ExceptT.mk <| .act fun c s =>
    match c.fault with
    | some e => (.error (.queryFailed e), { s with db := s.db.unlocked id })
    | none => ((Db.usePreKey id s.db).1, { s with db := (Db.usePreKey id s.db).2 })

/-- Atomically claim the oldest unused pre-key: between its subselect and its end other statements
may run, but none that gets the row. -/
def claimOneTimePreKey (deviceId : Uuid) : Task DbError (Option Db.PreKey) := do
  match ← query fun _ => Db.lockPreKey deviceId with
  | some id => useClaimed id
  | none => return none

/-- What a bundle has of a user, of the device and of the key that was claimed. -/
def bundleOf (identity : Bytes × Bytes) (device : Db.Device) (otpk : Option Db.PreKey) :
    Db.PreKeyBundleData :=
  ⟨identity.1, identity.2, device.id, device.signedPreKey, device.signedPreKeySig,
    otpk.map Db.PreKey.publicKey, device.kyberPublicKey⟩

/-- The keys of the user and the most recently active device. -/
def findDevice (userId : Uuid) : Task DbError ((Bytes × Bytes) × Db.Device) := do
  let identity ← query fun _ => Db.findIdentityKeys userId
  let device ← query fun _ => Db.findOneDeviceForUser userId
  return (identity, device)

/-- `hysj_db::keys::get_pre_key_bundle`, with the row whose key is in the bundle. -/
def findBundle (userId : Uuid) : Task DbError (Db.PreKeyBundleData × Option Db.PreKey) := do
  let (identity, device) ← findDevice userId
  let otpk ← claimOneTimePreKey device.id
  return (bundleOf identity device otpk, otpk)

def bundleError (userId : Uuid) : DbError → HysjError
  | .notFound => .userNotFound userId
  | other => .ofDb other

section

variable (b64 : Base64Engine)

def bundleResponse (bundle : Db.PreKeyBundleData) : PreKeyBundleResponse :=
  ⟨bundle.deviceId.display, b64.encode bundle.identityPublicKey, b64.encode bundle.signedPreKey,
    b64.encode bundle.signedPreKeySig, bundle.oneTimePreKey.map b64.encode,
    b64.encode bundle.kyberPublicKey⟩

/-- A bundle for a user, with the row whose key is in it. -/
def fetchBundle (auth : AuthUser) (userId : Uuid) :
    Task HysjError (PreKeyBundleResponse × Option Db.PreKey) := do
  if ← checkRateLimit ("prekey:" ++ auth.userId.display) PREKEY_FETCH_MAX
      PREKEY_FETCH_WINDOW_SECONDS then
    let (bundle, otpk) ← ExceptT.adapt (bundleError userId) (findBundle userId)
    return (bundleResponse b64 bundle, otpk)
  else throw .rateLimited

/-- `GET /api/keys/:user_id` -/
def getPreKeyBundle (auth : AuthUser) (userId : Uuid) : Task HysjError PreKeyBundleResponse :=
  Prod.fst <$> fetchBundle b64 auth userId

/-- `hysj_db::keys::store_pre_keys` -/
def storeKeys (deviceId : Uuid) (publicKeys : List Bytes) : Task DbError Nat := do
  forM publicKeys fun key => query fun _ => Db.storePreKey deviceId key
  return publicKeys.length

/-- `POST /api/keys/replenish` -/
def replenishPreKeys (auth : AuthUser) (request : ReplenishPreKeysRequest) :
    Task HysjError Json.Value := do
  if request.preKeys = [] then throw (.validationError "Must provide at least one pre-key")
  else
    let current ← ExceptT.adapt .ofDb (query fun _ => Db.countAvailablePreKeys auth.deviceId)
    if MAX_PRE_KEYS_PER_DEVICE < current + request.preKeys.length then
      throw (.validationError ("Would exceed max pre-keys (" ++
        toString (current + request.preKeys.length) ++ "/" ++
        toString MAX_PRE_KEYS_PER_DEVICE ++ ")"))
    else
      let keys ← ofResult (request.preKeys.mapM (decodeField b64 "Invalid pre-key base64: "))
      let stored ← ExceptT.adapt .ofDb (storeKeys auth.deviceId keys)
      return .obj [("stored", .num stored)]

end

end Keys

/-- The calls that add one-time pre-keys or hand them out. -/
inductive KeyCall where
  | register (headers : HeaderMap) (request : RegisterRequest)
  | replenish (auth : AuthUser) (request : ReplenishPreKeysRequest)
  | fetch (auth : AuthUser) (userId : Uuid)

inductive KeyAnswer where
  | login (response : LoginResponse)
  | stored (response : Json.Value)
  | bundle (response : PreKeyBundleResponse) (row : Option Db.PreKey)

abbrev KeyCalls := Pool Chance Server KeyCall (Except HysjError KeyAnswer)

abbrev KeyEvent := Pool.Event Chance KeyCall

section

variable (jwt : Jwt) (argon2 : Argon2) (b64 : Base64Engine) (config : AppConfig)

def KeyCall.program : KeyCall → Program Chance Server (Except HysjError KeyAnswer)
  | .register headers request =>
      Except.map KeyAnswer.login <$> (Api.register jwt argon2 b64 config headers request).run
  | .replenish auth request =>
      Except.map KeyAnswer.stored <$> (Keys.replenishPreKeys b64 auth request).run
  | .fetch auth userId =>
      Except.map (fun answer => KeyAnswer.bundle answer.1 answer.2) <$>
        (Keys.fetchBundle b64 auth userId).run

/-- A call is made, a call takes its next step, or time passes. -/
def KeyCalls.step (p : KeyCalls) (e : KeyEvent) : Option KeyCalls :=
  Pool.step (KeyCall.program jwt argon2 b64 config) (fun n s => s.wait n) p e

/-- Calls of a server, from a time when none was in progress. -/
abbrev KeyRun (first : Server) (steps : List (KeyCalls × KeyEvent × KeyCalls))
    (p : KeyCalls) : Prop :=
  Trail (fun p e p' => KeyCalls.step jwt argon2 b64 config p e = some p') ⟨first, []⟩ steps p

variable {jwt argon2 b64 config}

theorem KeyRun.of_follow {first : Server} (events : List KeyEvent) {p : KeyCalls}
    (followed : Pool.follow (KeyCall.program jwt argon2 b64 config) (fun n s => s.wait n)
      ⟨first, []⟩ events = some p) : ∃ steps, KeyRun jwt argon2 b64 config first steps p :=
  Pool.trail_of_follow events followed

end

end Hysj.Api
