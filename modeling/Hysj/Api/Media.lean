import Hysj.Api.Operations
import Hysj.Api.Tokens

set_option autoImplicit false

/- The endpoints for encrypted audio and files. -/
namespace Hysj.Shared

/-- Maximum file size (100 MB) -/
def MAX_FILE_SIZE : UInt64 := 100 * 1024 * 1024

/-- Maximum audio message duration (5 minutes) -/
def MAX_AUDIO_DURATION_SECONDS : UInt32 := 5 * 60

/-- Maximum audio message size (10 MB) -/
def MAX_AUDIO_SIZE : UInt64 := 10 * 1024 * 1024

def AUDIO_TTL_SECONDS : UInt64 := MESSAGE_TTL_SECONDS

/-- Audio auto-delete after played/seen (3 minutes) -/
def AUDIO_SEEN_TTL_SECONDS : UInt64 := 3 * 60

def AUDIO_UPLOAD_MAX : Nat := 20

def AUDIO_UPLOAD_WINDOW_SECONDS : Nat := 60

def FILE_UPLOAD_MAX : Nat := 10

def FILE_UPLOAD_WINDOW_SECONDS : Nat := 60

structure AudioUploadRequest where
  recipientDeviceId : Uuid
  durationSeconds : UInt32
  blobSize : UInt64

structure AudioMeta where
  audioId : String
  durationSeconds : UInt32
  blobSize : UInt64

structure FileUploadInitRequest where
  fileName : String
  fileSize : UInt64
  chunkCount : UInt32
  recipientDeviceId : Uuid

structure FileMetaResponse where
  fileId : String
  fileName : String
  fileSize : UInt64
  chunkCount : UInt32
  uploadedAt : Nat

/-- The id of an upload and the URL for its bytes. -/
structure UploadInitResponse where
  id : String
  uploadUrl : String

end Hysj.Shared

namespace Hysj.Api

open Crypto Shared Auth Messaging Program

/-- What the endpoints for audio and those for files differ in. -/
structure MediaKind where
  maxSize : UInt64
  ttlSeconds : UInt64
  uninitialized : String
  tooLarge : String
  blobMissing : String
  metaMissing : String
  nothingDeleted : String

def MediaKind.audio : MediaKind where
  maxSize := MAX_AUDIO_SIZE
  ttlSeconds := AUDIO_TTL_SECONDS
  uninitialized := "Audio upload not initialized or expired"
  tooLarge := "Audio blob exceeds maximum size"
  blobMissing := "Audio not found or expired"
  metaMissing := "Audio metadata not found"
  nothingDeleted := "Audio not found"

def MediaKind.file : MediaKind where
  maxSize := MAX_FILE_SIZE
  ttlSeconds := MESSAGE_TTL_SECONDS
  uninitialized := "File upload not initialized or expired"
  tooLarge := "File exceeds maximum size"
  blobMissing := "File not found or expired"
  metaMissing := "File metadata not found"
  nothingDeleted := "File not found"

section

variable {α : Type}

/-- `.map_err(|e| AppError(HysjError::InternalError(e.to_string())))` -/
def onMedia (t : Command α) : Task HysjError α :=
  ExceptT.adapt (fun e => .internalError e.display) (onRedis t)

end

section

variable (serde : SerdeJson)

/-- What both `PUT …/:id/upload` do. -/
def uploadMedia (kind : MediaKind) (mediaId : String) (body : Bytes) : Task HysjError Unit := do
  match ← onMedia (getMeta serde mediaId) with
  | none => throw (.validationError kind.uninitialized)
  | some info =>
      if UInt64.ofNat body.length > info.blobSize + 1024 then
        throw (.validationError s!"Upload size {body.length} exceeds declared size {info.blobSize}")
      else if UInt64.ofNat body.length > kind.maxSize then
        throw (.validationError kind.tooLarge)
      else onMedia (storeBlob mediaId body kind.ttlSeconds)

/-- What both `GET …/:id` do. -/
def downloadMedia (kind : MediaKind) (mediaId : String) : Task HysjError Bytes := do
  match ← onMedia (retrieveAndExpire mediaId AUDIO_SEEN_TTL_SECONDS) with
  | some data => return data
  | none => throw (.notFound kind.blobMissing)

/-- What both `GET …/:id/meta` read. -/
def mediaInfo (kind : MediaKind) (mediaId : String) : Task HysjError MediaMeta := do
  match ← onMedia (getMeta serde mediaId) with
  | some info => return info
  | none => throw (.notFound kind.metaMissing)

/-- What both `DELETE …/:id` do. -/
def deleteMedia (kind : MediaKind) (mediaId : String) : Task HysjError Unit := do
  if ← onMedia (deleteBlob mediaId) then return ()
  else throw (.notFound kind.nothingDeleted)

namespace Audio

/-- `POST /api/audio/upload-init` -/
def uploadInit (auth : AuthUser) (request : AudioUploadRequest) :
    Task HysjError UploadInitResponse := do
  if ← checkRateLimit ("audio:" ++ auth.userId.display) AUDIO_UPLOAD_MAX
      AUDIO_UPLOAD_WINDOW_SECONDS then
    if request.durationSeconds = 0 ∨ request.durationSeconds > MAX_AUDIO_DURATION_SECONDS then
      throw (.validationError
        s!"Audio duration must be 1–{MAX_AUDIO_DURATION_SECONDS} seconds, got {request.durationSeconds}")
    else if request.blobSize = 0 ∨ request.blobSize > MAX_AUDIO_SIZE then
      throw (.validationError
        s!"Audio size must be 1–{MAX_AUDIO_SIZE} bytes, got {request.blobSize}")
    else do
      let audioId := (← random).display
      onMedia (storeMeta audioId request.recipientDeviceId request.durationSeconds request.blobSize
        AUDIO_TTL_SECONDS)
      return ⟨audioId, "/api/audio/" ++ audioId ++ "/upload"⟩
  else throw .rateLimited

/-- `PUT /api/audio/:audio_id/upload` -/
def uploadBlob (audioId : String) (body : Bytes) : Task HysjError Unit :=
  uploadMedia serde .audio audioId body

/-- `GET /api/audio/:audio_id` -/
def downloadBlob (audioId : String) : Task HysjError Bytes := downloadMedia .audio audioId

/-- `GET /api/audio/:audio_id/meta` -/
def audioMeta (audioId : String) : Task HysjError AudioMeta := do
  let info ← mediaInfo serde .audio audioId
  return ⟨audioId, info.durationSeconds, info.blobSize⟩

/-- `DELETE /api/audio/:audio_id` -/
def deleteAudio (audioId : String) : Task HysjError Unit := deleteMedia .audio audioId

end Audio

namespace Files

/-- `POST /api/files/upload-init` -/
def uploadInit (auth : AuthUser) (request : FileUploadInitRequest) :
    Task HysjError UploadInitResponse := do
  if ← checkRateLimit ("file:" ++ auth.userId.display) FILE_UPLOAD_MAX
      FILE_UPLOAD_WINDOW_SECONDS then
    if request.fileSize > MAX_FILE_SIZE then
      throw (.validationError
        s!"File too large: {request.fileSize} bytes (max {MAX_FILE_SIZE} bytes)")
    else if request.fileName = "" then throw (.validationError "File name cannot be empty")
    else do
      let fileId := (← random).display
      -- no duration for generic files
      onMedia (storeMeta fileId request.recipientDeviceId 0 request.fileSize MESSAGE_TTL_SECONDS)
      return ⟨fileId, "/api/files/" ++ fileId ++ "/upload"⟩
  else throw .rateLimited

/-- `PUT /api/files/:file_id/upload` -/
def uploadBlob (fileId : String) (body : Bytes) : Task HysjError Unit :=
  uploadMedia serde .file fileId body

/-- `GET /api/files/:file_id` -/
def downloadBlob (fileId : String) : Task HysjError Bytes := downloadMedia .file fileId

/-- `GET /api/files/:file_id/meta` -/
def fileMeta (fileId : String) : Task HysjError FileMetaResponse := do
  let info ← mediaInfo serde .file fileId
  let now ← timestamp
  return ⟨fileId, "", info.blobSize, 1, now⟩

/-- `DELETE /api/files/:file_id` -/
def deleteFile (fileId : String) : Task HysjError Unit := deleteMedia .file fileId

end Files

/-- A request to one of the ten endpoints. -/
inductive MediaCall where
  | initAudio (auth : AuthUser) (request : AudioUploadRequest)
  | uploadAudio (audioId : String) (body : Bytes)
  | downloadAudio (audioId : String)
  | audioMeta (audioId : String)
  | deleteAudio (audioId : String)
  | initFile (auth : AuthUser) (request : FileUploadInitRequest)
  | uploadFile (fileId : String) (body : Bytes)
  | downloadFile (fileId : String)
  | fileMeta (fileId : String)
  | deleteFile (fileId : String)

/-- What a request is answered with. -/
inductive MediaReply where
  | opened (result : Except HysjError UploadInitResponse)
  | uploaded (result : Except HysjError Unit)
  | blob (result : Except HysjError Bytes)
  | audioInfo (result : Except HysjError AudioMeta)
  | fileInfo (result : Except HysjError FileMetaResponse)
  | deleted (result : Except HysjError Unit)

def MediaCall.program : MediaCall → Program Chance Server MediaReply
  | .initAudio auth request => .opened <$> (Audio.uploadInit auth request).run
  | .uploadAudio id body => .uploaded <$> (Audio.uploadBlob serde id body).run
  | .downloadAudio id => .blob <$> (Audio.downloadBlob id).run
  | .audioMeta id => .audioInfo <$> (Audio.audioMeta serde id).run
  | .deleteAudio id => .deleted <$> (Audio.deleteAudio id).run
  | .initFile auth request => .opened <$> (Files.uploadInit auth request).run
  | .uploadFile id body => .uploaded <$> (Files.uploadBlob serde id body).run
  | .downloadFile id => .blob <$> (Files.downloadBlob id).run
  | .fileMeta id => .fileInfo <$> (Files.fileMeta serde id).run
  | .deleteFile id => .deleted <$> (Files.deleteFile id).run

end

/-- The id that a request names in its path. -/
def MediaCall.pathId : MediaCall → Option String
  | .initAudio _ _ | .initFile _ _ => none
  | .uploadAudio id _ | .downloadAudio id | .audioMeta id | .deleteAudio id => some id
  | .uploadFile id _ | .downloadFile id | .fileMeta id | .deleteFile id => some id

end Hysj.Api
