import MonkeyOcr.Application.Exceptions
import MonkeyOcr.Codec.Binary64
import MonkeyOcr.Codec.Json

namespace MonkeyOcr

open Codec (Json)

/-- A UUID. Only its identity and its text matter, so it is a number. -/
abbrev Id := Nat

/-- A moment, in microseconds. -/
abbrev Time := Nat

def days (n : Nat) : Time := n * 86400000000

def seconds (n : Nat) : Time := n * 1000000

inductive UploadState
  | uploading | completed | rejected
  deriving DecidableEq, Repr

inductive JobState
  | queued | preprocessing | running | assembling | cancelRequested | cancelled | retrying
  | succeeded | failed
  deriving DecidableEq, Repr

def JobState.text : JobState → String
  | queued => "queued"
  | preprocessing => "preprocessing"
  | running => "running"
  | assembling => "assembling"
  | cancelRequested => "cancel_requested"
  | cancelled => "cancelled"
  | retrying => "retrying"
  | succeeded => "succeeded"
  | failed => "failed"

inductive PageState
  | pending | running | succeeded | failed
  deriving DecidableEq, Repr

inductive ArtifactKind
  | markdown | json | pageImage | visualization | manifest
  deriving DecidableEq, Repr

def ArtifactKind.text : ArtifactKind → String
  | markdown => "markdown"
  | json => "json"
  | pageImage => "page_image"
  | visualization => "visualization"
  | manifest => "manifest"

inductive DocumentFile
  | markdown | json | manifest
  deriving DecidableEq, Repr

/-- The keys of the object store: a source document, what lies under
`jobs/<job>/attempts/<attempt>/pages/` and the three documents of an attempt. -/
inductive ObjectKey
  | source (upload : Id)
  | page (job : Id) (attempt : Nat) (name : String)
  | document (job : Id) (attempt : Nat) (file : DocumentFile)
  deriving DecidableEq, Repr

namespace ObjectKey

def text : ObjectKey → String
  | source upload => s!"uploads/{upload}/source"
  | page job attempt name => s!"jobs/{job}/attempts/{attempt}/pages/{name}"
  | document job attempt .markdown => s!"jobs/{job}/attempts/{attempt}/document.md"
  | document job attempt .json => s!"jobs/{job}/attempts/{attempt}/document.json"
  | document job attempt .manifest => s!"jobs/{job}/attempts/{attempt}/manifest.json"

/-- The job whose prefix `jobs/<job>/` the key has. -/
def job? : ObjectKey → Option Id
  | source _ => none
  | page job _ _ => some job
  | document job _ _ => some job

end ObjectKey

structure Upload where
  id : Id
  ownerId : Id
  filename : String
  sizeBytes : Nat
  contentType : String
  sha256 : String
  objectKey : ObjectKey
  state : UploadState
  createdAt : Time
  completedAt : Option Time
  detectedContentType : Option String
  multipartUploadId : Option String

namespace Upload

def complete (upload : Upload) (detectedContentType : String) (now : Time) : Except Exc Upload :=
  if upload.state ≠ .uploading then .error (.valueError "upload is not awaiting completion")
  else
    .ok { upload with
      state := .completed
      detectedContentType := some detectedContentType
      completedAt := some now }

def reject (upload : Upload) : Upload := { upload with state := .rejected }

end Upload

structure Page where
  pageNumber : Nat
  inputObjectKey : ObjectKey
  state : PageState := .pending
  processingAttempts : Nat := 0
  markdown : Option String := none
  structured : Option (List (String × Json)) := none
  resultObjectKey : Option ObjectKey := none
  resultSha256 : Option String := none
  visualizationObjectKey : Option ObjectKey := none
  internalCode : Nat := 0
  errorReason : Option String := none

namespace Page

def start (page : Page) : Page :=
  if page.state = .succeeded then page
  else
    { page with
      state := .running
      processingAttempts := page.processingAttempts + 1
      internalCode := 0
      errorReason := none }

def succeed (page : Page) (markdown : String) (structured : List (String × Json))
    (resultObjectKey : ObjectKey) (resultSha256 : String)
    (visualizationObjectKey : Option ObjectKey) : Page :=
  { page with
    state := .succeeded
    markdown := some markdown
    structured := some structured
    resultObjectKey := some resultObjectKey
    resultSha256 := some resultSha256
    visualizationObjectKey
    internalCode := 0
    errorReason := none }

def fail (page : Page) (reason : String) (internalCode : Nat) : Page :=
  { page with state := .failed, internalCode, errorReason := some reason }

def prepareRetry (page : Page) : Page :=
  if page.state = .succeeded then page
  else
    { page with
      state := .pending
      processingAttempts := 0
      errorReason := none
      markdown := none
      structured := none
      resultObjectKey := none
      resultSha256 := none
      visualizationObjectKey := none
      internalCode := 0 }

end Page

structure Artifact where
  kind : ArtifactKind
  objectKey : ObjectKey
  sha256 : String
  sizeBytes : Nat
  contentType : String
  pageNumber : Option Nat := none
  deriving DecidableEq

structure Job where
  ownerId : Id
  uploadId : Id
  requestId : String
  options : List (String × Json)
  id : Id
  state : JobState := .queued
  attempt : Nat := 1
  revision : Nat := 0
  pages : List Page := []
  artifacts : List Artifact := []
  idempotencyKey : Option String
  engineName : Option String := none
  engineVersion : Option String := none
  modelName : Option String := none
  internalCode : Nat := 0
  errorReason : Option String := none
  createdAt : Time
  updatedAt : Time
  startedAt : Option Time := none
  completedAt : Option Time := none

namespace Job

def totalPages (job : Job) : Nat := job.pages.length

def completedPages (job : Job) : Nat := job.pages.countP (·.state = .succeeded)

/-- The progress in ten-thousandths. -/
def progress (job : Job) : Nat :=
  if job.pages.isEmpty then 0 else Codec.Binary64.round4 job.completedPages job.pages.length

def terminal (job : Job) : Bool :=
  job.state = .cancelled ∨ job.state = .succeeded ∨ job.state = .failed

/-- One reading `now` of the clock serves a whole transition. -/
def transition (job : Job) (target : JobState) (allowed : List JobState) (now : Time) :
    Except Exc Job :=
  if job.state ∈ allowed then .ok { job with state := target, updatedAt := now }
  else .error (.valueError s!"cannot transition job from {job.state.text} to {target.text}")

def beginPreprocessing (job : Job) (now : Time) : Except Exc Job := do
  let job ← job.transition .preprocessing [.queued, .retrying] now
  return { job with startedAt := job.startedAt <|> some now }

def setPages (job : Job) (pages : List Page) (now : Time) : Except Exc Job :=
  if job.state ≠ .preprocessing then
    .error (.valueError "pages may only be prepared while preprocessing")
  else if pages.isEmpty then .error (.valueError "document must contain at least one page")
  else .ok { job with pages, updatedAt := now }

def beginRunning (job : Job) (now : Time) : Except Exc Job :=
  job.transition .running [.preprocessing] now

def requestCancel (job : Job) (now : Time) : Except Exc Job :=
  job.transition .cancelRequested [.queued, .preprocessing, .running, .assembling, .retrying] now

def cancel (job : Job) (now : Time) : Except Exc Job := do
  let job ← job.transition .cancelled [.cancelRequested] now
  return { job with completedAt := some now }

def beginAssembling (job : Job) (now : Time) : Except Exc Job :=
  job.transition .assembling [.running] now

def succeed (job : Job) (artifacts : List Artifact) (now : Time) : Except Exc Job := do
  if job.pages.isEmpty || job.pages.any (·.state ≠ .succeeded) then
    throw (.valueError "all pages must be complete before job success")
  let job ← job.transition .succeeded [.assembling] now
  return { job with artifacts, completedAt := some now, internalCode := 0, errorReason := none }

def fail (job : Job) (reason : String) (internalCode : Nat) (now : Time) : Except Exc Job := do
  let job ← job.transition .failed
    [.queued, .preprocessing, .running, .assembling, .retrying, .cancelRequested] now
  return { job with internalCode, errorReason := some reason, completedAt := some now }

def retry (job : Job) (requestId : String) (now : Time) : Except Exc Job := do
  let job ← job.transition .retrying [.failed, .cancelled] now
  return { job with
    attempt := job.attempt + 1
    requestId
    internalCode := 0
    errorReason := none
    startedAt := none
    completedAt := none
    artifacts := []
    pages := job.pages.map Page.prepareRetry }

/-- The job after its page at `index` was changed in place. -/
def setPage (job : Job) (index : Nat) (page : Page) : Job :=
  { job with pages := job.pages.set index page }

end Job

inductive EventType
  | jobQueued | jobPreprocessing | jobPagesPrepared | jobRunning | pageRunning | pageRetryScheduled
  | pageSucceeded | pageFailed | jobAssembling | jobSucceeded | jobFailed | jobCancelRequested
  | jobCancelled | jobRetrying
  deriving DecidableEq, Repr

namespace EventType

def text : EventType → String
  | jobQueued => "job.queued"
  | jobPreprocessing => "job.preprocessing"
  | jobPagesPrepared => "job.pages_prepared"
  | jobRunning => "job.running"
  | pageRunning => "page.running"
  | pageRetryScheduled => "page.retry_scheduled"
  | pageSucceeded => "page.succeeded"
  | pageFailed => "page.failed"
  | jobAssembling => "job.assembling"
  | jobSucceeded => "job.succeeded"
  | jobFailed => "job.failed"
  | jobCancelRequested => "job.cancel_requested"
  | jobCancelled => "job.cancelled"
  | jobRetrying => "job.retrying"

/-- `{"job.cancelled", "job.failed", "job.succeeded"}`. -/
def terminal : EventType → Bool
  | jobCancelled | jobFailed | jobSucceeded => true
  | _ => false

end EventType

/-- The payload `{"attempt": ..., **data}` is kept as its two parts. -/
structure JobEvent where
  jobId : Id
  eventType : EventType
  state : JobState
  progress : Nat
  requestId : String
  attempt : Nat
  data : List (String × Json)
  sequence : Nat := 0
  occurredAt : Time

def JobEvent.withSequence (event : JobEvent) (sequence : Nat) : JobEvent := { event with sequence }

end MonkeyOcr
