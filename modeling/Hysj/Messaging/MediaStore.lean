import Hysj.Messaging.Otp
import Hysj.Shared.Messages

set_option autoImplicit false

/- Encrypted media in Redis. -/
namespace Hysj.Messaging

open Crypto Shared Program

/-- `format!("media:{}", media_id)` -/
def mediaKey (mediaId : String) : String := "media:" ++ mediaId

/-- `format!("media:{}:meta", media_id)` -/
def mediaMetaKey (mediaId : String) : String := mediaKey mediaId ++ ":meta"

structure MediaMeta where
  recipientDeviceId : String
  durationSeconds : UInt32
  blobSize : UInt64
  deriving DecidableEq

/-- `json!` puts the members in the order of their names. -/
def MediaMeta.toJson (info : MediaMeta) : Json.Value :=
  .obj
    [("blob_size", .num info.blobSize.toNat),
      ("duration_seconds", Serde.word info.durationSeconds),
      ("recipient_device_id", .str info.recipientDeviceId)]

/-- A `u64`. -/
def readSize : Json.Value → Option UInt64
  | .num i => if 0 ≤ i ∧ i < 18446744073709551616 then some (UInt64.ofNat i.toNat) else none
  | _ => none

def MediaMeta.ofJson (value : Json.Value) : Option MediaMeta := do
  match ← Serde.fields ["recipient_device_id", "duration_seconds", "blob_size"] value with
  | [recipientDeviceId, durationSeconds, blobSize] =>
      some
        { recipientDeviceId := ← Serde.required Serde.readStr recipientDeviceId
          durationSeconds := ← Serde.required Serde.readWord durationSeconds
          blobSize := ← Serde.required readSize blobSize }
  | _ => none

/-- Store an encrypted media blob in Redis with TTL. -/
def storeBlob (mediaId : String) (encryptedBlob : Bytes) (ttlSeconds : UInt64) : Command Unit :=
  setEx (mediaKey mediaId) encryptedBlob ttlSeconds

/-- Store metadata for a media blob (duration, size, recipient). -/
def storeMeta (mediaId : String) (recipientDeviceId : Uuid) (durationSeconds : UInt32)
    (blobSize ttlSeconds : UInt64) : Command Unit :=
  let info : MediaMeta := ⟨recipientDeviceId.display, durationSeconds, blobSize⟩
  setEx (mediaMetaKey mediaId) (Json.toVec info.toJson) ttlSeconds

/-- Retrieve an encrypted media blob and set a short TTL for auto-delete. -/
def retrieveAndExpire (mediaId : String) (seenTtlSeconds : UInt64) : Command (Option Bytes) := do
  let blob ← get (mediaKey mediaId)
  if blob.isSome then
    expire (mediaKey mediaId) seenTtlSeconds
    expire (mediaMetaKey mediaId) seenTtlSeconds
  return blob

/-- Retrieve a media blob without deleting it. -/
def retrieve (mediaId : String) : Command (Option Bytes) := get (mediaKey mediaId)

/-- `serde_json::from_str::<MediaMeta>` -/
def MediaMeta.fromStr (serde : SerdeJson) (json : String) : Except String MediaMeta := do
  let value ← serde.fromSlice (strBytes json)
  match MediaMeta.ofJson value with
  | some info => .ok info
  | none => .error (serde.mismatch (strBytes json))

/-- Get metadata for a media blob. -/
def getMeta (serde : SerdeJson) (mediaId : String) : Command (Option MediaMeta) := do
  match ← getText (mediaMetaKey mediaId) with
  | some json =>
      match MediaMeta.fromStr serde json with
      | .ok info => return some info
      | .error e => throw (.serializationError e)
  | none => return none

/-- `DEL` of two keys at once; how many it removed. -/
def delBoth (key key' : String) : Command Nat :=
  command fun _ r =>
    (.ok ((if (r.get? key).isSome then 1 else 0) +
      if ((r.del key).get? key').isSome then 1 else 0), (r.del key).del key')

/-- Delete a media blob (for wipe commands or sender cancel). -/
def deleteBlob (mediaId : String) : Command Bool := do
  let deleted ← delBoth (mediaKey mediaId) (mediaMetaKey mediaId)
  return 0 < deleted

/-- Whatever the id, the key of the metadata is not the key of the blob. -/
theorem mediaKey_ne_mediaMetaKey (mediaId : String) : mediaKey mediaId ≠ mediaMetaKey mediaId := by
  intro same
  have long := congrArg (fun key => key.toList.length) same
  simp [mediaMetaKey] at long

end Hysj.Messaging
