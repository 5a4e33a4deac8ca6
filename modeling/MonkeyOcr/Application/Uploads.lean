import MonkeyOcr.Application.Services
import Mathlib.Data.List.Infix

namespace MonkeyOcr

open Calls

structure CreateUploadRequest where
  filename : String
  sizeBytes : Nat
  contentType : String
  sha256 : String

structure UploadPartDTO where
  partNumber : Nat
  uploadUrl : String

structure UploadDTO where
  uploadId : Id
  objectKey : ObjectKey
  uploadUrl : String
  uploadMethod : String
  uploadHeaders : List (String × String)
  multipartUploadId : Option String
  partSizeBytes : Option Nat
  parts : List UploadPartDTO
  status : UploadState
  expiresInSeconds : Nat := 900

structure CompleteUploadDTO where
  uploadId : Id
  status : UploadState
  detectedContentType : String

structure ArtifactDTO where
  kind : ArtifactKind
  objectKey : ObjectKey
  downloadUrl : String
  sha256 : String
  sizeBytes : Nat
  contentType : String
  pageNumber : Option Nat

def ArtifactDTO.fromDomain (artifact : Artifact) (downloadUrl : String) : ArtifactDTO where
  kind := artifact.kind
  objectKey := artifact.objectKey
  downloadUrl
  sha256 := artifact.sha256
  sizeBytes := artifact.sizeBytes
  contentType := artifact.contentType
  pageNumber := artifact.pageNumber

structure ArtifactListDTO where
  items : List ArtifactDTO

namespace MagicBytesFileValidator

def signatures : List (List (BitVec 8) × String) :=
  [([37, 80, 68, 70, 45], "application/pdf"), ([137, 80, 78, 71, 13, 10, 26, 10], "image/png"),
    ([255, 216, 255], "image/jpeg"), ([66, 77], "image/bmp"), ([73, 73, 42, 0], "image/tiff"),
    ([77, 77, 0, 42], "image/tiff"), ([82, 73, 70, 70], "image/webp")]

/-- `_detect` -/
def detect (data : List (BitVec 8)) : Option String :=
  (signatures.find? fun entry => entry.1.isPrefixOf data).map Prod.snd

/-- `b"WEBP"` and `b"/Encrypt"`. -/
def webp : List (BitVec 8) := [87, 69, 66, 80]

def encrypt : List (BitVec 8) := [47, 69, 110, 99, 114, 121, 112, 116]

def validate (upload : Upload) (data : List (BitVec 8)) : Except Exc String :=
  if data.length ≠ upload.sizeBytes then .error (.business .uploadHashMismatch "upload_size_mismatch")
  else
    match detect data with
    | none => .error (.business .uploadUnsupportedFileType "unknown_magic_bytes")
    | some detected =>
      if detected = "image/webp" ∧ (data.drop 8).take 4 ≠ webp then
        .error (.business .uploadSecurityRejected "invalid_webp_signature")
      else if detected ≠ upload.contentType then
        .error (.business .uploadSecurityRejected "content_type_mismatch")
      else if detected = "application/pdf" ∧ encrypt <:+: data.take (2 * 1024 * 1024) then
        .error (.business .uploadSecurityRejected "encrypted_pdf")
      else .ok detected

end MagicBytesFileValidator

/-- `PurePath(filename).name` -/
def pureName (filename : String) : String :=
  (((filename.splitOn "/").filter fun part => part ≠ "" ∧ part ≠ ".").getLast?).getD ""

namespace OCRApplicationService

/-- `_storage` of the service. -/
def storageError : Exc → Exc
  | .business code reason => .business code reason
  | e => if e.isDependencyError ∨ e = .fileNotFound then e else .storageUnavailable

def storage (op : Op) : Program op.Val := (await op).mapError storageError

/-- The same inside a `try` that reports a missing object. -/
def storageOrMissing (op : Op) (code : InternalStatusCode) (reason : String) : Program op.Val :=
  (storage op).mapError fun e => if e = .fileNotFound then .business code reason else e

def uploadContentTypes : List String :=
  ["application/pdf", "image/jpeg", "image/png", "image/webp", "image/bmp", "image/tiff"]

def createUpload (maxUploadBytes : Nat) (request : CreateUploadRequest) (ownerId : Id) : Program UploadDTO := do
  if maxUploadBytes < request.sizeBytes then
    .raise (.business .uploadFileTooLarge "upload_file_too_large")
  else if request.contentType ∉ uploadContentTypes then
    .raise (.business .uploadUnsupportedFileType "upload_unsupported_file_type")
  else
    let id ← await .uuid7
    let now ← await .utcNow
    let target ← storage (.createUploadTarget (.source id) request.contentType request.sizeBytes request.sha256)
    let upload : Upload :=
      { id, ownerId, filename := pureName request.filename, sizeBytes := request.sizeBytes
        contentType := request.contentType, sha256 := request.sha256, objectKey := .source id
        state := .uploading, createdAt := now, completedAt := none, detectedContentType := none
        multipartUploadId := target.uploadId }
    database (.addUpload upload)
    return {
      uploadId := upload.id, objectKey := upload.objectKey, uploadUrl := target.url
      uploadMethod := target.method, uploadHeaders := target.headers, multipartUploadId := target.uploadId
      partSizeBytes := target.partSizeBytes
      parts := target.partUrls.map fun part => ⟨part.1, part.2⟩, status := upload.state }

/-- The branches of `complete_upload` that found another document. -/
def rejectUpload (upload : Upload) (reason : String) : Program CompleteUploadDTO := do
  database (.saveUpload upload.reject)
  .raise (.business .uploadHashMismatch reason)

/-- `hashlib.sha256(data).hexdigest() != upload.sha256`, and what follows. -/
def verifyUpload (upload : Upload) (data : Content) : Program CompleteUploadDTO := do
  if data.sha256 ≠ upload.sha256 then rejectUpload upload "upload_hash_mismatch"
  else
    let detected ← Prog.ofExcept (MagicBytesFileValidator.validate upload data.bytes)
    let now ← await .utcNow
    let upload ← Prog.ofExcept (upload.complete detected now)
    database (.saveUpload upload)
    return ⟨upload.id, upload.state, detected⟩

/-- `info.size_bytes != upload.size_bytes or (info.sha256 and info.sha256 != upload.sha256)` -/
def mismatches (upload : Upload) (info : ObjectInfo) : Bool :=
  info.sizeBytes ≠ upload.sizeBytes ∨ info.sha256.any fun sha256 => sha256 ≠ "" ∧ sha256 ≠ upload.sha256

/-- `complete_upload` of a session that awaits its document. -/
def checkUpload (upload : Upload) (parts : List (Nat × String)) : Program CompleteUploadDTO := do
  storage (.completeUpload upload.objectKey upload.multipartUploadId parts)
  let info ← storage (.stat upload.objectKey)
  match info with
  | none => .raise (.business .uploadNotCompleted "upload_object_missing")
  | some info =>
    if mismatches upload info then rejectUpload upload "upload_hash_mismatch"
    else
      let data ← storageOrMissing (.getBytes upload.objectKey) .uploadNotCompleted "upload_object_missing"
      verifyUpload upload data

def completeUpload (uploadId ownerId : Id) (providedSha256 multipartUploadId : Option String)
    (parts : List (Nat × String)) : Program CompleteUploadDTO := do
  let upload ← ownedUpload uploadId ownerId
  if providedSha256.any (· ≠ upload.sha256) then
    .raise (.business .uploadHashMismatch "completion_hash_mismatch")
  else if (upload.multipartUploadId.any (· ≠ "")) ∧ multipartUploadId ≠ upload.multipartUploadId then
    .raise (.business .commonStateConflict "multipart_upload_id_mismatch")
  else
    match upload.state with
    | .completed =>
      return ⟨upload.id, upload.state, (upload.detectedContentType.filter (· ≠ "")).getD upload.contentType⟩
    | .rejected => .raise (.business .commonStateConflict "upload_state_conflict")
    | .uploading => checkUpload upload parts

def artifactItems : List Artifact → Program (List ArtifactDTO)
  | [] => return []
  | artifact :: rest => do
    let downloadUrl ←
      storageOrMissing (.createDownloadUrl artifact.objectKey) .jobResultNotReady "job_artifact_missing"
    let items ← artifactItems rest
    return ArtifactDTO.fromDomain artifact downloadUrl :: items

def listArtifacts (jobId ownerId : Id) : Program ArtifactListDTO := do
  let job ← ownedJob .api jobId ownerId
  if job.state ≠ .succeeded then .raise (.business .jobResultNotReady "job_result_not_ready")
  else
    let items ← artifactItems job.artifacts
    return ⟨items⟩

end OCRApplicationService
end MonkeyOcr
