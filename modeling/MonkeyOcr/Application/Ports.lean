import MonkeyOcr.Calls.Program
import MonkeyOcr.Codec.Sha256
import MonkeyOcr.Domain.Models
import Mathlib.Data.Rat.Init

namespace MonkeyOcr

open Calls
open Codec (Json)

/-- The bytes of a stored object, kept as what was encoded into them. -/
inductive Content
  | json (value : Json)
  | text (value : String)
  | raw (bytes : List (BitVec 8))

namespace Content

def bytes : Content → List (BitVec 8)
  | json value => value.dumps.toUTF8.toList.map UInt8.toBitVec
  | text value => value.toUTF8.toList.map UInt8.toBitVec
  | raw bytes => bytes

def sizeBytes (content : Content) : Nat := content.bytes.length

def sha256 (content : Content) : String := Codec.Sha256.hexDigest content.bytes

end Content

structure ObjectInfo where
  objectKey : ObjectKey
  sizeBytes : Nat
  sha256 : Option String
  contentType : String

structure StoredObject where
  objectKey : ObjectKey
  sizeBytes : Nat
  sha256 : String
  contentType : String

structure UploadTarget where
  url : String
  method : String := "PUT"
  headers : List (String × String) := []
  uploadId : Option String := none
  partSizeBytes : Option Nat := none
  partUrls : List (Nat × String) := []

/-- An object with what the store keeps beside its bytes. -/
structure StoredContent where
  data : Content
  contentType : String
  metadataSha256 : Option String

structure PreparedPage where
  pageNumber : Nat
  objectKey : ObjectKey

structure OCRResult where
  markdown : String
  structured : List (String × Json)
  visualization : Option (List (BitVec 8)) := none
  visualizationContentType : String := "image/png"
  engineMetadata : List (String × Json) := []

structure JobWorkMessage where
  jobId : Id
  attempt : Nat
  requestId : String
  schemaVersion : Nat := 1
  deriving DecidableEq

structure OutboxEvent where
  id : Id
  aggregateId : Id
  eventType : String
  payload : List (String × Json)
  requestId : String
  createdAt : Time
  publishedAt : Option Time := none

inductive AggregateKind
  | job | upload
  deriving DecidableEq, Repr

def AggregateKind.text : AggregateKind → String
  | job => "job"
  | upload => "upload"

structure RetentionCandidate where
  aggregateKind : AggregateKind
  aggregateId : Id
  claimToken : Id
  objectKeys : List ObjectKey
  multipartUploadId : Option String := none

/-- A record of the jobs topic. -/
structure Record where
  partition : Nat
  offset : Nat
  key : String
  value : Json

/-- Where in the source a job is read. The database does not see it. -/
inductive Site
  | entry | cancelCheck | pageLoop | beforeSuccess | conflict | failure
  | pageTurn (pageIndex : Nat)
  | recognized (pageIndex : Nat)
  | exhausted (pageIndex : Nat)
  | api | stream (heartbeat : Bool)
  deriving DecidableEq, Repr

inductive LogLevel
  | info | error
  deriving DecidableEq, Repr

/-- What the code awaits: repositories, object storage, preprocessor, engine,
Kafka, clock, logger and the SSE client; and the requests a browser makes to
the object store by itself. -/
inductive Op
  | addUpload (upload : Upload)
  | getUpload (uploadId : Id)
  | saveUpload (upload : Upload)
  | getJob (site : Site) (jobId : Id)
  | saveWithEvent (job : Job) (event : JobEvent)
  | addWithOutboxAndEvent (job : Job) (outboxEvent : OutboxEvent) (jobEvent : JobEvent)
  | saveWithOutboxAndEvent (job : Job) (outboxEvent : OutboxEvent) (jobEvent : JobEvent)
  | findIdByIdempotencyKey (ownerId : Id) (key : String)
  | listIds (ownerId : Id) (offset limit : Nat)
  | countJobs (ownerId : Id)
  | appendEvent (event : JobEvent)
  | listAfter (jobId : Id) (sequence : Nat)
  | pendingOutbox (limit : Nat)
  | markPublished (eventId : Id)
  | claimExpired (now : Time) (limit leaseSeconds : Nat)
  | complete (candidate : RetentionCandidate)
  | defer (candidate : RetentionCandidate) (retryAt : Time)
  | createUploadTarget (objectKey : ObjectKey) (contentType : String) (sizeBytes : Nat) (sha256 : String)
  | completeUpload (objectKey : ObjectKey) (uploadId : Option String) (parts : List (Nat × String))
  | createDownloadUrl (objectKey : ObjectKey)
  | presignedPut (uploadId : Id) (object : StoredContent)
  | getBytes (objectKey : ObjectKey)
  | putBytes (objectKey : ObjectKey) (data : Content) (contentType : String)
  | stat (objectKey : ObjectKey)
  | deleteObject (objectKey : ObjectKey)
  | abortMultipartUpload (objectKey : ObjectKey) (uploadId : String)
  | prepare (upload : Upload) (job : Job)
  | recognize (image : Content) (pageNumber : Nat) (options : List (String × Json))
      (requestId : String)
  | sendAndWait (key : String) (value : Json)
  | sendToDlq (key : String) (value : Json)
  | getMany
  | commit (partition offset : Nat)
  | utcNow
  | loopTime
  | uuid7
  | sleep (seconds : Rat)
  | log (level : LogLevel) (event : String) (fields : List (String × Json))
  | stopRequested
  | isDisconnected
  | yieldEvent (event : JobEvent)
  | yieldHeartbeat

/-- What a call returns when it does not raise. A save also raises the
revision of the job object it is given; the new revision is returned. -/
abbrev Op.Val : Op → Type
  | getUpload _ => Option Upload
  | getJob _ _ => Option Job
  | saveWithEvent _ _ => Nat × JobEvent
  | addWithOutboxAndEvent _ _ _ => JobEvent
  | saveWithOutboxAndEvent _ _ _ => Nat × JobEvent
  | findIdByIdempotencyKey _ _ => Option Id
  | listIds _ _ _ => List Id
  | countJobs _ => Nat
  | appendEvent _ => JobEvent
  | listAfter _ _ => List JobEvent
  | pendingOutbox _ => List OutboxEvent
  | claimExpired _ _ _ => List RetentionCandidate
  | complete _ => Bool
  | createUploadTarget _ _ _ _ => UploadTarget
  | createDownloadUrl _ => String
  | getBytes _ => Content
  | putBytes _ _ _ => StoredObject
  | stat _ => Option ObjectInfo
  | prepare _ _ => List PreparedPage
  | recognize _ _ _ _ => OCRResult
  | getMany => Option Record
  | utcNow => Time
  | loopTime => Time
  | uuid7 => Id
  | stopRequested => Bool
  | isDisconnected => Bool
  | addUpload _ | saveUpload _ | completeUpload _ _ _ | presignedPut _ _
  | markPublished _ | defer _ _ | deleteObject _ | abortMultipartUpload _ _ | sendAndWait _ _
  | sendToDlq _ _ | commit _ _ | sleep _ | log _ _ _ | yieldEvent _ | yieldHeartbeat => Unit

/-- The calls of the system; each may raise instead of returning. -/
def Sig : Signature := ⟨Op, fun op => Except Exc op.Val⟩

abbrev Program := Prog Sig Exc

def await (op : Op) : Program op.Val := .call op fun result => .ofExcept result

/-- `_database` of the worker: what is no conflict and no dependency error
becomes `DatabaseUnavailableError`. -/
def databaseError (e : Exc) : Exc :=
  if e = .concurrentJobUpdate ∨ e.isDependencyError then e else .databaseUnavailable

/-- `_storage` of the worker. -/
def storageError (e : Exc) : Exc :=
  if e.isDependencyError ∨ e = .fileNotFound then e else .storageUnavailable

def logInfo (event : String) (fields : List (String × Json)) : Program Unit :=
  await (.log .info event fields)

def logError (event : String) (fields : List (String × Json)) : Program Unit :=
  await (.log .error event fields)

def textOf (id : Id) : String := toString id

end MonkeyOcr
