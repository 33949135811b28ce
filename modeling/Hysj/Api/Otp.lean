import Hysj.Api.Tokens
import Hysj.Messaging.Otp

set_option autoImplicit false

/- The endpoints for one-time codes, and what a registration has to do with them. -/
namespace Hysj.Shared

def OTP_CODE_LENGTH : Nat := 6

/-- OTP expiry (5 minutes) -/
def OTP_EXPIRY_SECONDS : UInt64 := 5 * 60

/-- OTP verification token expiry (10 minutes) -/
def OTP_VERIFICATION_TOKEN_EXPIRY_SECONDS : UInt64 := 10 * 60

structure SendOtpRequest where
  phoneNumber : String

structure SendOtpResponse where
  message : String
  /-- Seconds until OTP expires -/
  expiresIn : UInt64
  /-- DEV ONLY: the OTP code (only set when Twilio is not configured) -/
  devCode : Option String

structure VerifyOtpRequest where
  phoneNumber : String
  code : String

structure VerifyOtpResponse where
  verified : Bool
  /-- Short-lived token proving phone ownership (used in register) -/
  verificationToken : Option String

end Hysj.Shared

namespace Hysj.Messaging

/-- A numeric code, each digit from one of sixteen random bytes. -/
def generateOtp (random : Shared.Uuid) (length : Nat) : String :=
  String.join ((random.toList.take length).map fun byte => toString (byte.toNat % 10))

end Hysj.Messaging

namespace Hysj.Api

open Crypto Shared Auth Messaging Program

structure TwilioConfig where
  accountSid : String
  authToken : String
  fromNumber : String

/-- A request to send a text message. -/
structure SmsRequest where
  url : String
  basicAuth : String × String
  form : List (String × String)

/-- `extract_ip` of these endpoints, which does not look at `x-real-ip`. -/
def extractOtpIp (headers : HeaderMap) : String :=
  match headers "cf-connecting-ip" with
  | some cf => cf
  | none =>
      match headers "x-forwarded-for" with
      | some xff => String.ofList (trim (xff.toList.takeWhile fun c => c ≠ ','))
      | none => "unknown"

/-- Basic: must start with + and be 8-15 digits. -/
def validPhoneNumber (phoneNumber : String) : Bool :=
  let digits := phoneNumber.toList.countP fun c => '0' ≤ c ∧ c ≤ '9'
  8 ≤ digits && digits ≤ 15 && hasPrefix "+" phoneNumber

section

/- Whether a request for a text message is answered with success. -/
variable (accepts : SmsRequest → Bool) (twilio : Option TwilioConfig)

/-- Send SMS via Twilio REST API. -/
def sendSmsTwilio (config : TwilioConfig) (number code : String) : Task HysjError Unit :=
  ExceptT.mk <| .act fun c s =>
    match c.fault with
    | some e => (.error (.internalError ("Twilio request failed: " ++ e)), s)
    | none =>
        if accepts
            { url := "https://api.twilio.com/2010-04-01/Accounts/" ++
              config.accountSid ++ "/Messages.json"
              basicAuth := (config.accountSid, config.authToken)
              form :=
                [("To", number), ("From", config.fromNumber),
                  ("Body", "Hysj verification code: " ++ code ++
                  ". This code expires in 5 minutes.")] }
        then (.ok (), s)
        else (.error (.internalError "Failed to send SMS"), s)

/-- `POST /api/auth/otp/send` -/
def sendOtp (headers : HeaderMap) (request : SendOtpRequest) : Task HysjError SendOtpResponse := do
  if ← checkRateLimit ("otp:" ++ request.phoneNumber) 3 3600 then
    if ← checkRateLimit ("otp_ip:" ++ extractOtpIp headers) 10 3600 then
      if validPhoneNumber request.phoneNumber then
        let code := generateOtp (← random) OTP_CODE_LENGTH
        ExceptT.adapt (fun e => .internalError e.display)
          (onRedis (storeOtp request.phoneNumber code OTP_EXPIRY_SECONDS))
        match twilio with
        | some config =>
            sendSmsTwilio accepts config request.phoneNumber code
            return ⟨"Verification code sent", OTP_EXPIRY_SECONDS, none⟩
        | none => return ⟨"Verification code sent", OTP_EXPIRY_SECONDS, some code⟩
      else
        throw (.validationError
          "Invalid phone number format. Use international format: +47XXXXXXXX")
    else throw .rateLimited
  else throw .rateLimited

/-- `POST /api/auth/otp/verify` -/
def verifyOtpCode (request : VerifyOtpRequest) : Task HysjError VerifyOtpResponse := do
  if request.code.utf8ByteSize ≠ OTP_CODE_LENGTH then
    throw (.validationError s!"Code must be {OTP_CODE_LENGTH} digits")
  else
    if ← ExceptT.adapt (fun e => .internalError e.display)
        (onRedis (verifyOtp request.phoneNumber request.code)) then
      let token := (← random).display
      ExceptT.adapt (fun e => .internalError e.display)
        (onRedis (storeVerificationToken token request.phoneNumber
          OTP_VERIFICATION_TOKEN_EXPIRY_SECONDS))
      return ⟨true, some token⟩
    else return ⟨false, none⟩

end

/-- What the history keeps: a phone number that was verified, and the states around a
registration. -/
inductive Milestone where
  | verified (phoneNumber token : String)
  | registration (before after : Server)

/-- The token can be read before, and no more after. -/
def Consumes (before after : Server) (token : String) : Prop :=
  before.redis.get? (verifiedKey token) ≠ none ∧ after.redis.get? (verifiedKey token) = none

/-- The user is there only after. -/
def Creates (before after : Server) (row : Db.User) : Prop :=
  (∀ old ∈ before.db.users, old.id ≠ row.id) ∧ ∃ new ∈ after.db.users, new.id = row.id

/-- Every user was created by a registration that consumed the token of an earlier verification
of the phone number, and no two registrations consumed the same token. -/
structure Verified (history : List Milestone) (s : Server) : Prop where
  rows : ∀ row ∈ s.db.users, ∃ (i j : Nat) (token : String) (before after : Server), i < j ∧
    history[i]? = some (Milestone.verified row.phoneNumber token) ∧
    history[j]? = some (Milestone.registration before after) ∧ Creates before after row ∧
    Consumes before after token
  once : ∀ (i j : Nat) before after before' after' token,
    history[i]? = some (Milestone.registration before after) →
    history[j]? = some (Milestone.registration before' after') → Consumes before after token →
    Consumes before' after' token → i = j

def verifiedBy (request : VerifyOtpRequest) :
    Except HysjError VerifyOtpResponse → List Milestone
  | .ok ⟨true, some token⟩ => [.verified request.phoneNumber token]
  | _ => []

section

variable (accepts : SmsRequest → Bool) (twilio : Option TwilioConfig) (jwt : Jwt) (argon2 : Argon2)
variable (b64 : Base64Engine) (config : AppConfig)

/-- Requests one after the other, from a server without users. Of requests to other endpoints and
of time that passes nothing is known here. -/
inductive Onboards : List Milestone → Server → Prop where
  | start (now : Nat) : Onboards [] (.start now {})
  | sendOtp {history : List Milestone} {s s' : Server} {result : Except HysjError SendOtpResponse}
      (before : Onboards history s) (headers : HeaderMap) (request : SendOtpRequest)
      (run : Runs Any (sendOtp accepts twilio headers request).run s result s') :
      Onboards history s'
  | verifyOtp {history : List Milestone} {s s' : Server}
      {result : Except HysjError VerifyOtpResponse} (before : Onboards history s)
      (request : VerifyOtpRequest) (run : Runs Any (verifyOtpCode request).run s result s') :
      Onboards (history ++ verifiedBy request result) s'
  | register {history : List Milestone} {s s' : Server} {result : Except HysjError LoginResponse}
      (before : Onboards history s) (headers : HeaderMap) (request : RegisterRequest)
      (run : Runs Any (register jwt argon2 b64 config headers request).run s result s') :
      Onboards (history ++ [.registration s s']) s'
  | other {history : List Milestone} {s : Server} (before : Onboards history s) (s' : Server) :
      Onboards history s'

end

section

variable {accepts : SmsRequest → Bool} {twilio : Option TwilioConfig} {jwt : Jwt} {argon2 : Argon2}
variable {b64 : Base64Engine} {config : AppConfig} {history : List Milestone}
    {s before after : Server}

theorem redis_register {headers : HeaderMap} {request : RegisterRequest}
    {result : Except HysjError LoginResponse}
    (run : Runs Any (register jwt argon2 b64 config headers request).run before result after) :
    after.redis = before.redis := by
  have spares := run.keeps (spares_register headers request)
    (fun s => ((sameRows_refl s).spares : Spares (fun _ => True) s s)) fun _ _ _ => Spares.trans
  exact spares.redis

theorem Onboards.redis (run : Onboards accepts twilio jwt argon2 b64 config history s)
    (member : .registration before after ∈ history) : after.redis = before.redis := by
  induction run with
  | start now => cases member
  | sendOtp _ headers request run ih => exact ih member
  | @verifyOtp history s s' result _ request run ih =>
      rcases List.mem_append.mp member with old | new
      · exact ih old
      · unfold verifiedBy at new
        split at new
        · cases List.mem_singleton.mp new
        · cases new
  | register _ headers request run ih =>
      rcases List.mem_append.mp member with old | new
      · exact ih old
      · cases List.mem_singleton.mp new
        exact redis_register run
  | other _ s' ih => exact ih member

theorem Onboards.not_consumes (run : Onboards accepts twilio jwt argon2 b64 config history s)
    (member : .registration before after ∈ history) (token : String) :
    ¬ Consumes before after token := by
  rintro ⟨present, absent⟩
  rw [run.redis member] at absent
  exact present absent

end

/-- The phone numbers of all users are verified only as long as there is no user. -/
theorem verified_iff_empty (accepts : SmsRequest → Bool) (twilio : Option TwilioConfig) (jwt : Jwt)
    (argon2 : Argon2) (b64 : Base64Engine) (config : AppConfig)
    (history : List Milestone) (s : Server)
    (run : Onboards accepts twilio jwt argon2 b64 config history s) :
    Verified history s ↔ s.db.users = [] := by
  constructor
  · intro verified
    apply List.eq_nil_iff_forall_not_mem.mpr
    intro row member
    obtain ⟨i, j, token, before, after, -, -, registered, -, consumes⟩ := verified.rows row member
    exact run.not_consumes (List.mem_of_getElem? registered) token consumes
  · intro empty
    constructor
    · intro row member
      rw [empty] at member
      cases member
    · intro i j before after before' after' token registered _ consumes
      exact (run.not_consumes (List.mem_of_getElem? registered) token consumes).elim

/-- A code is sent and verified, and Alice registers with the phone number. -/
theorem verified_iff_empty_registered : ∃ history s token before after,
    Onboards (fun _ => true) none .sample .sample .sample ⟨none, "secret"⟩ history s ∧
      history = [.verified "+4711111111" token, .registration before after] ∧
      s.db.users.map Db.User.phoneNumber = ["+4711111111"] ∧
      (Verified history s ↔ s.db.users = []) := by
  have start :
      Onboards (fun _ => true) none .sample .sample .sample ⟨none, "secret"⟩ [] _ := .start 0
  have sent :=
    start.sendOtp (fun _ => none) ⟨"+4711111111"⟩ (runs_of_exec (may_any (drawing 1)) rfl)
  have verified := sent.verifyOtp ⟨"+4711111111", "111111"⟩ (runs_of_exec (may_any (drawing 1)) rfl)
  have run := verified.register (fun _ => none) (registration "alice" "+4711111111" "password1")
    (runs_of_exec (may_any (drawing 1)) rfl)
  exact ⟨_, _, _, _, _, run, rfl, rfl, verified_iff_empty _ _ _ _ _ _ _ _ run⟩

/-- Alice registers with a phone number for which no code was ever sent. -/
theorem unverified_registration : ∃ history s,
    Onboards (fun _ => true) none .sample .sample .sample ⟨none, "secret"⟩ history s ∧
      ¬ Verified history s := by
  have start :
      Onboards (fun _ => true) none .sample .sample .sample ⟨none, "secret"⟩ [] _ := .start 0
  have run := start.register (fun _ => none) (registration "alice" "+4711111111" "password1")
    (runs_of_exec (may_any (drawing 1)) rfl)
  refine ⟨_, _, run, ?_⟩
  intro verified
  obtain ⟨i, j, token, before, after, -, -, registered, -, consumes⟩ :=
    verified.rows _ List.mem_cons_self
  exact run.not_consumes (List.mem_of_getElem? registered) token consumes

end Hysj.Api
