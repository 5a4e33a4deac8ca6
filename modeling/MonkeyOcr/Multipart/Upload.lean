import MonkeyOcr.Application.Ports
import MonkeyOcr.Multipart.Slices
import MonkeyOcr.Text.Trim
import Mathlib.Data.String.Basic

namespace MonkeyOcr

namespace Multipart

inductive StorageServiceError where
  | bucketRequired
  | objectKeyRequired
  | invalidPartCount
  | uploadIdRequired
  | multipartPartsRequired
  | client (message : String)
  deriving DecidableEq

structure CreateMultipartRequest where
  bucket : String
  objectKey : String
  contentType : String
  metadata : List (String × String)
  partCount : Nat
  expiresIn : Int

structure MultipartPartURL where
  partNumber : Nat
  url : String

structure MultipartUpload where
  bucket : String
  objectKey : String
  uploadId : String
  parts : List MultipartPartURL

structure CompletedPart where
  partNumber : Nat
  etag : String
  deriving DecidableEq

structure CompleteMultipartRequest where
  bucket : String
  objectKey : String
  uploadId : String
  parts : List CompletedPart

/-- The clients of S3, which are no part of the repository. The part number of
a presigned address and the numbers of a completion are an `int32`. -/
structure S3Client where
  createMultipartUpload : CreateMultipartRequest → Except StorageServiceError String
  presignUploadPart : CreateMultipartRequest → String → Int32 → Except StorageServiceError String
  presignPutObject : String → String → String → Int → Except StorageServiceError String

def validateRef (bucket objectKey : String) : Except StorageServiceError Unit :=
  if bucket = "" then .error .bucketRequired
  else if objectKey = "" then .error .objectKeyRequired
  else .ok ()

def CreateMultipartRequest.validate (request : CreateMultipartRequest) : Except StorageServiceError Unit := do
  validateRef request.bucket request.objectKey
  if request.partCount ≤ 0 then throw .invalidPartCount

def CompleteMultipartRequest.validate (request : CompleteMultipartRequest) : Except StorageServiceError Unit := do
  validateRef request.bucket request.objectKey
  if request.uploadId = "" then throw .uploadIdRequired
  if request.parts.length = 0 then throw .multipartPartsRequired

/-- `CreateMultipartUpload` of the storage service and of its repository. -/
def createMultipartUpload (client : S3Client) (request : CreateMultipartRequest) :
    Except StorageServiceError MultipartUpload := do
  request.validate
  let uploadId ← client.createMultipartUpload request
  let parts ← (List.range' 1 request.partCount).mapM fun partNumber => do
    let url ← client.presignUploadPart request uploadId (Int32.ofNat partNumber)
    return { partNumber, url }
  return { bucket := request.bucket, objectKey := request.objectKey, uploadId, parts }

/-- `StorageServiceObjectStorage` -/
structure ObjectStorageSettings where
  bucket : String
  presignTtlSeconds : Int := 900
  multipartThresholdBytes : Nat := 16 * 1024 * 1024
  multipartPartSizeBytes : Nat := 8 * 1024 * 1024

def partCount (storage : ObjectStorageSettings) (sizeBytes : Nat) : Nat :=
  (sizeBytes + storage.multipartPartSizeBytes - 1) / storage.multipartPartSizeBytes

/-- `create_upload_target` together with the service it asks. -/
def createUploadTarget (storage : ObjectStorageSettings) (client : S3Client) (objectKey contentType : String)
    (sizeBytes : Nat) (sha256 : String) : Except StorageServiceError UploadTarget := do
  if storage.multipartThresholdBytes ≤ sizeBytes then
    let data ← createMultipartUpload client {
      bucket := storage.bucket, objectKey, contentType
      metadata := [("sha256", sha256), ("expected-size", toString sizeBytes)]
      partCount := partCount storage sizeBytes, expiresIn := storage.presignTtlSeconds }
    return {
      url := "", uploadId := some data.uploadId, partSizeBytes := some storage.multipartPartSizeBytes
      partUrls := data.parts.map fun part => (part.partNumber, part.url) }
  else
    validateRef storage.bucket objectKey
    let url ← client.presignPutObject storage.bucket objectKey contentType storage.presignTtlSeconds
    return { url, headers := [("Content-Type", contentType)] }

structure UploadPartDescriptor where
  partNumber : Nat
  uploadUrl : String
  startByte : Option Nat := none
  endByte : Option Nat := none

/-- What the browser reads of the answer to `POST /v1/uploads`. -/
structure UploadSession where
  uploadUrl : String
  multipartUploadId : Option String
  partSizeBytes : Option Nat
  parts : List UploadPartDescriptor

/-- The parts of an `UploadPartDTO` have a number and an address only. -/
def UploadSession.fromTarget (target : UploadTarget) : UploadSession where
  uploadUrl := target.url
  multipartUploadId := target.uploadId
  partSizeBytes := target.partSizeBytes
  parts := target.partUrls.map fun (partNumber, uploadUrl) => { partNumber, uploadUrl }

/-- `configured` is the part size of the environment, or eight MiB. -/
def partBounds (configured : Nat) (descriptor : UploadPartDescriptor) (index : Nat) (session : UploadSession)
    (size : Nat) : Nat × Nat :=
  let defaultPartSize := match session.partSizeBytes with
    | some (bytes + 1) => bytes + 1
    | _ => configured
  let start := descriptor.startByte.getD (index * defaultPartSize)
  let stop := descriptor.endByte.getD (min size (start + defaultPartSize))
  (start, min size stop)

/-- `file.slice` -/
def fileSlice (file : List (BitVec 8)) (start stop : Nat) : List (BitVec 8) := (file.take stop).drop start

/-- A part as the browser put it, with what it reports for it. -/
structure UploadedPart where
  body : List (BitVec 8)
  completed : CompletedPart

/-- `uploadParts`. The object store answers a `PUT` of a body to an address with an
`ETag`, or with none at all. -/
def uploadParts (configured : Nat) (put : String → List (BitVec 8) → Option String) (file : List (BitVec 8))
    (session : UploadSession) : List UploadedPart :=
  session.parts.mapIdx fun index part =>
    let (start, stop) := partBounds configured part index session file.length
    let body := fileSlice file start stop
    let etag := (put part.uploadUrl body).getD ""
    { body, completed := { partNumber := part.partNumber, etag := String.ofList (etag.toList.filter (· ≠ '"')) } }

/-- The order of the pairs of number and tag. -/
def pairLe (first second : CompletedPart) : Bool :=
  first.partNumber < second.partNumber ∨ (first.partNumber = second.partNumber ∧ first.etag ≤ second.etag)

/-- The parts that `complete_upload` sends to the storage service. -/
def sentParts (parts : List CompletedPart) : List CompletedPart := parts.mergeSort pairLe

/-- `sort.Slice` by the part number. -/
def sortSlice (parts : List CompletedPart) : List CompletedPart :=
  parts.mergeSort fun first second => first.partNumber ≤ second.partNumber

/-- `strings.Trim(trimmed, "\"")`, between two quotation marks. -/
def normalizeETag (etag : String) : String :=
  let trimmed := trimSpace etag
  if trimmed.toList.head? = some '"' ∧ trimmed.toList.getLast? = some '"' then trimmed
  else "\"" ++ String.ofList (trim (· = '"') trimmed.toList) ++ "\""

/-- The parts the repository names to S3, for a request of `complete_upload` that is read. -/
def completeMultipartUpload (bucket objectKey uploadId : String) (parts : List CompletedPart) :
    Except StorageServiceError (List (Int32 × String)) := do
  let request : CompleteMultipartRequest := { bucket, objectKey, uploadId, parts := sentParts parts }
  request.validate
  return (sortSlice request.parts).map fun part => (Int32.ofNat part.partNumber, normalizeETag part.etag)

/-- What a `CompleteUploadPart` may be. -/
def CompletedPart.Valid (part : CompletedPart) : Prop :=
  1 ≤ part.partNumber ∧ 1 ≤ part.etag.length ∧ part.etag.length ≤ 256

instance (part : CompletedPart) : Decidable part.Valid := inferInstanceAs (Decidable (_ ∧ _))

def defaultJSONBodyLimit : Nat := 2 ^ 20

inductive CompletionError where
  | invalidArgument
  | bodyTooLarge
  | service (error : StorageServiceError)

/-- The parts that are named to S3 for what the browser reports: the backend checks each,
and the storage service reads a body of limited length. -/
def completeReported (bodyLength : CompleteMultipartRequest → Nat) (bucket objectKey uploadId : String)
    (parts : List CompletedPart) : Except CompletionError (List (Int32 × String)) :=
  if ¬ ∀ part ∈ parts, part.Valid then .error .invalidArgument
  else if defaultJSONBodyLimit < bodyLength { bucket, objectKey, uploadId, parts := sentParts parts } then
    .error .bodyTooLarge
  else (completeMultipartUpload bucket objectKey uploadId parts).mapError .service

end Multipart

end MonkeyOcr
