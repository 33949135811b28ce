import Hysj.Base.Utf8
import Hysj.Messaging.Redis

set_option autoImplicit false

/- One-time codes and the tokens that prove a phone number. -/
namespace Hysj.Messaging

open Crypto Shared Program

/-- `format!("otp:{}", phone_number)` -/
def otpKey (phoneNumber : String) : String := "otp:" ++ phoneNumber

/-- `format!("otp_verified:{}", token)` -/
def verifiedKey (token : String) : String := "otp_verified:" ++ token

/-- `GET` of a text. A value that is no UTF-8 is an error. -/
def getText (key : String) : Command (Option String) :=
  command fun _ r =>
    match r.get? key with
    | none => (.ok none, r)
    | some bytes =>
        match Utf8.fromUtf8 bytes with
        | some text => (.ok (some text), r)
        | none => (.error "Invalid UTF-8- TypeError", r)

/-- `SETEX key ttl value`; a lifetime of zero is an error. -/
def setText (key value : String) (ttl : UInt64) : Command Unit :=
  command fun _ r =>
    if ttl = 0 then (.error (signalled "invalid expire time in 'setex' command"), r)
    else (.ok (), r.set key (strBytes value) (some ttl.toNat))

/-- Store an OTP code in Redis with TTL. -/
def storeOtp (phoneNumber code : String) (ttlSeconds : UInt64) : Command Unit :=
  setText (otpKey phoneNumber) code ttlSeconds

/-- Verify an OTP code. Returns true if valid, and deletes the OTP on success. -/
def verifyOtp (phoneNumber code : String) : Command Bool := do
  let key := otpKey phoneNumber
  match ← getText key with
  | some storedCode =>
      if storedCode = code then
        let _ ← del key
        return true
      else return false
  | none => return false

/-- Store a verification token (proof of phone ownership) in Redis. -/
def storeVerificationToken (token phoneNumber : String) (ttlSeconds : UInt64) : Command Unit :=
  setText (verifiedKey token) phoneNumber ttlSeconds

/-- Validate a verification token. Returns the phone number if valid, and deletes the token. -/
def validateVerificationToken (token : String) : Command (Option String) := do
  let key := verifiedKey token
  match ← getText key with
  | some phone => do
      let _ ← del key
      return some phone
  | none => return none

@[simp] theorem otpKey_inj {phone phone' : String} :
    otpKey phone = otpKey phone' ↔ phone = phone' :=
  String.append_right_inj _

@[simp] theorem verifiedKey_inj {token token' : String} :
    verifiedKey token = verifiedKey token' ↔ token = token' :=
  String.append_right_inj _

end Hysj.Messaging
