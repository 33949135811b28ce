import Hysj.Api.Effects
import Hysj.Api.SenderCertificate

set_option autoImplicit false

/- The endpoints for wipes, and whose devices a wipe can reach. -/
namespace Hysj.Shared

/-- `AppError::from` at a messaging error. -/
def HysjError.ofMessaging (e : Messaging.MessagingError) : HysjError := .redisError e.display

end Hysj.Shared

namespace Hysj.Api

open Crypto Shared Messaging Program

section

variable (serde : SerdeJson) (chrono : Chrono)

/-- The devices a wipe is for, as the endpoint finds them. -/
def issueTargets (userId : Uuid) (request : WipeRequest) : Task HysjError (List Uuid) :=
  match request.wipeType with
  | .all => do
      let devices ← ExceptT.adapt HysjError.ofDb (query fun _ => Db.listByUser userId)
      return devices.map Db.Device.id
  | .device =>
      match request.targetDeviceId with
      | none => throw (.validationError "target_device_id required for Device wipe")
      | some deviceId => return [deviceId]
  | .conversation =>
      match request.conversationPartnerId with
      | none => throw (.validationError "conversation_partner_id required for Conversation wipe")
      | some partnerId => do
          let devices ← ExceptT.adapt HysjError.ofDb (query fun _ => Db.listByUser partnerId)
          let own ← ExceptT.adapt HysjError.ofDb (query fun _ => Db.listByUser userId)
          return devices.map Db.Device.id ++ own.map Db.Device.id

/-- Issue a wipe for devices that were found, and tell those that are online. -/
def issueFor (request : WipeRequest) (targets : List Uuid) : Task HysjError WipeStatusResponse := do
  let wipeId ← ExceptT.adapt HysjError.ofMessaging
    (onRedis (Messaging.issueWipe chrono targets request))
  liftM (sendToEach targets (.wipeCommand request))
  return ⟨wipeId, targets, []⟩

/-- `POST /api/wipe` -/
def issueWipe (auth : AuthUser) (request : WipeRequest) : Task HysjError WipeStatusResponse := do
  if ← checkRateLimit ("wipe:" ++ auth.userId.display) WIPE_MAX WIPE_WINDOW_SECONDS then
    let targets ← issueTargets auth.userId request
    if targets = [] then throw (.validationError "No target devices found")
    else issueFor chrono request targets
  else throw .rateLimited

/-- A device counts as pending when one of its pending wipes has the id, else as confirmed. -/
def wipeStatuses (pages : Nat) (wipeId : String) :
    List Db.Device → List Uuid → List Uuid → Task HysjError (List Uuid × List Uuid)
  | [], pending, confirmed => return (pending, confirmed)
  | device :: devices, pending, confirmed => do
      let wipes ← ExceptT.adapt HysjError.ofMessaging
        (onRedis (getPendingWipes serde chrono pages device.id))
      if wipes.any fun wipe => wipe.wipeId = wipeId then
        wipeStatuses pages wipeId devices (pending ++ [device.id]) confirmed
      else wipeStatuses pages wipeId devices pending (confirmed ++ [device.id])

/-- `GET /api/wipe/:wipe_id` -/
def wipeStatus (pages : Nat) (auth : AuthUser) (wipeId : String) :
    Task HysjError WipeStatusResponse := do
  let devices ← ExceptT.adapt HysjError.ofDb (query fun _ => Db.listByUser auth.userId)
  let (pending, confirmed) ← wipeStatuses serde chrono pages wipeId devices [] []
  return ⟨wipeId, pending, confirmed⟩

end

end Hysj.Api
