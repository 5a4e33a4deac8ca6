import MonkeyOcr.Infrastructure.Execution

namespace MonkeyOcr

open Calls
open Codec (Json)

structure PageDTO where
  pageNumber : Nat
  status : PageState
  processingAttempts : Nat
  internalCode : Nat
  errorReason : Option String

structure JobDTO where
  jobId : Id
  uploadId : Id
  filename : String
  status : JobState
  attempt : Nat
  progress : Nat
  completedPages : Nat
  totalPages : Nat
  pages : List PageDTO
  options : List (String × Json)
  engineName : Option String
  engineVersion : Option String
  modelName : Option String
  internalCode : Nat
  errorReason : Option String
  createdAt : Time
  updatedAt : Time
  startedAt : Option Time
  completedAt : Option Time

def JobDTO.fromDomain (job : Job) (filename : String) : JobDTO where
  jobId := job.id
  uploadId := job.uploadId
  filename
  status := job.state
  attempt := job.attempt
  progress := job.progress
  completedPages := job.completedPages
  totalPages := job.totalPages
  pages := job.pages.map fun page =>
    ⟨page.pageNumber, page.state, page.processingAttempts, page.internalCode, page.errorReason⟩
  options := job.options
  engineName := job.engineName
  engineVersion := job.engineVersion
  modelName := job.modelName
  internalCode := job.internalCode
  errorReason := job.errorReason
  createdAt := job.createdAt
  updatedAt := job.updatedAt
  startedAt := job.startedAt
  completedAt := job.completedAt

structure JobListDTO where
  items : List JobDTO
  total : Nat
  page : Nat
  pageSize : Nat

structure CreateJobRequest where
  uploadId : Id
  options : List (String × Json)

namespace OCRApplicationService

/-- `_database` of the service. -/
def databaseError : Exc → Exc
  | .business code reason => .business code reason
  | .concurrentJobUpdate => .concurrentJobUpdate
  | .duplicateIdempotencyKey => .duplicateIdempotencyKey
  | e => if e.isDependencyError then e else .databaseUnavailable

def database (op : Op) : Program op.Val := (await op).mapError databaseError

/-- `_job_event` -/
def jobEvent (job : Job) (eventType : EventType) (now : Time) : JobEvent where
  jobId := job.id
  eventType
  state := job.state
  progress := job.progress
  requestId := job.requestId
  attempt := job.attempt
  data := []
  occurredAt := now

def ocrJobRequested : String := "ocr.job.requested.v1"

/-- The outbox event of a job's attempt, as `create_job` and `retry_job` write
it. -/
def requested (id : Id) (job : Job) (requestId : String) (now : Time) : OutboxEvent where
  id
  aggregateId := job.id
  eventType := ocrJobRequested
  payload := [("schema_version", .nat 1), ("job_id", .str (textOf job.id)),
    ("attempt", .nat job.attempt), ("request_id", .str requestId)]
  requestId
  createdAt := now

/-- `_owned_upload` -/
def ownedUpload (uploadId ownerId : Id) : Program Upload := do
  let upload ← database (.getUpload uploadId)
  match upload with
  | none => .raise (.business .uploadNotFound "upload_not_found")
  | some upload =>
    if upload.ownerId ≠ ownerId then .raise (.business .userUnauthorized "user_unauthorized")
    else return upload

/-- `_owned_job` -/
def ownedJob (site : Site) (jobId ownerId : Id) : Program Job := do
  let job ← database (.getJob site jobId)
  match job with
  | none => .raise (.business .jobNotFound "job_not_found")
  | some job =>
    if job.ownerId ≠ ownerId then .raise (.business .userUnauthorized "user_unauthorized")
    else return job

/-- `_to_job_dto` -/
def toJobDto (job : Job) : Program JobDTO := do
  let upload ← database (.getUpload job.uploadId)
  return .fromDomain job (upload.elim "" Upload.filename)

/-- `find_by_idempotency_key`, which selects the id and then gets the job. -/
def findByIdempotencyKey (ownerId : Id) (key : String) : Program (Option Job) := do
  let id ← database (.findIdByIdempotencyKey ownerId key)
  match id with
  | some id => database (.getJob .api id)
  | none => return none

/-- The reply to a request whose idempotency key is taken by `existing`. -/
def replayed (existing : Job) (upload : Upload) (request : CreateJobRequest) : Program JobDTO :=
  if existing.uploadId ≠ upload.id ∨ !(Json.obj existing.options).same (.obj request.options) then
    .raise (.business .commonIdempotencyConflict "idempotency_conflict")
  else toJobDto existing

/-- `create_job` from where no job with the key was found. -/
def insertJob (request : CreateJobRequest) (upload : Upload) (ownerId : Id) (requestId : String)
    (idempotencyKey : Option String) : Program JobDTO := do
  let id ← await .uuid7
  let now ← await .utcNow
  let job : Job :=
    { ownerId, uploadId := upload.id, requestId, options := request.options, id, idempotencyKey
      createdAt := now, updatedAt := now }
  let outboxId ← await .uuid7
  let now ← await .utcNow
  let outcome ← (database (.addWithOutboxAndEvent job (requested outboxId job requestId now)
    (jobEvent job .jobQueued now))).attempt
  match outcome with
  | .ok _ => toJobDto job
  | .error .duplicateIdempotencyKey =>
    match idempotencyKey.filter (· ≠ "") with
    | none => .raise .duplicateIdempotencyKey
    | some key =>
      let existing ← findByIdempotencyKey ownerId key
      match existing with
      | none => .raise .databaseUnavailable
      | some existing => replayed existing upload request
  | .error e => .raise e

def createJob (request : CreateJobRequest) (ownerId : Id) (requestId : String)
    (idempotencyKey : Option String) : Program JobDTO := do
  let upload ← ownedUpload request.uploadId ownerId
  if upload.state ≠ .completed then
    .raise (.business .uploadNotCompleted "upload_not_completed")
  else
    match idempotencyKey.filter (· ≠ "") with
    | none => insertJob request upload ownerId requestId idempotencyKey
    | some key =>
      let existing ← findByIdempotencyKey ownerId key
      match existing with
      | some existing => replayed existing upload request
      | none => insertJob request upload ownerId requestId idempotencyKey

/-- `get_job` -/
def getJob (jobId ownerId : Id) : Program JobDTO := do
  let job ← ownedJob .api jobId ownerId
  toJobDto job

/-- `get_job_domain` -/
def getJobDomain (site : Site) (jobId ownerId : Id) : Program Job := ownedJob site jobId ownerId

def getJobs : List Id → Program (List Job)
  | [] => return []
  | id :: rest => do
    let job ← database (.getJob .api id)
    let jobs ← getJobs rest
    return job.toList ++ jobs

def toJobDtos : List Job → Program (List JobDTO)
  | [] => return []
  | job :: rest => do
    let item ← toJobDto job
    let items ← toJobDtos rest
    return item :: items

def listJobs (ownerId : Id) (page pageSize : Nat) : Program JobListDTO := do
  let ids ← database (.listIds ownerId ((page - 1) * pageSize) pageSize)
  let total ← database (.countJobs ownerId)
  let jobs ← getJobs ids
  let items ← toJobDtos jobs
  return { items, total, page, pageSize }

/-- `request_cancel`, and `cancel` at once for a job no worker has begun. -/
def cancelTransitions (job : Job) (now : Time) : Except Exc Job := do
  let requested ← job.requestCancel now
  if job.state = .queued ∨ job.state = .retrying then requested.cancel now else return requested

/-- The `try` of `cancel_job`. -/
def requestCancel (job : Job) (requestId : String) : Program Job := do
  let now ← await .utcNow
  let job ← Prog.ofExcept (cancelTransitions { job with requestId } now)
  let now ← await .utcNow
  let eventType := if job.state = .cancelled then .jobCancelled else .jobCancelRequested
  let saved ← database (.saveWithEvent job (jobEvent job eventType now))
  return { job with revision := saved.1 }

/-- `cancel_job`, with the number of saves it may still attempt. -/
def cancelAttempts (jobId ownerId : Id) (requestId : String) : Nat → Program JobDTO
  | 0 => .raise (.other "AssertionError")
  | left + 1 => do
    let job ← ownedJob .api jobId ownerId
    if job.state = .cancelled ∨ job.state = .succeeded then
      .raise (.business .jobNotCancellable "job_not_cancellable")
    else if job.state = .cancelRequested then toJobDto job
    else
      let outcome ← (requestCancel job requestId).attempt
      match outcome with
      | .ok job => toJobDto job
      | .error .concurrentJobUpdate =>
        if left = 0 then .raise .databaseUnavailable else cancelAttempts jobId ownerId requestId left
      | .error (.valueError _) => .raise (.business .jobNotCancellable "job_not_cancellable")
      | .error e => .raise e

def cancelJob (jobId ownerId : Id) (requestId : String) : Program JobDTO :=
  cancelAttempts jobId ownerId requestId 3

/-- The save of `retry_job`. -/
def saveRetry (job : Job) (requestId : String) : Program Job := do
  let outboxId ← await .uuid7
  let now ← await .utcNow
  let saved ← database (.saveWithOutboxAndEvent job (requested outboxId job requestId now)
    (jobEvent job .jobRetrying now))
  return { job with revision := saved.1 }

/-- `retry_job`, with the number of saves attempted and still left. -/
def retryAttempts (jobId ownerId : Id) (requestId : String) (attempted : Nat) : Nat → Program JobDTO
  | 0 => .raise (.other "AssertionError")
  | left + 1 => do
    let job ← ownedJob .api jobId ownerId
    let now ← await .utcNow
    match job.retry requestId now with
    | .error _ =>
      if job.state = .retrying ∧ 0 < attempted then toJobDto job
      else .raise (.business .jobNotRetryable "job_not_retryable")
    | .ok job =>
      let outcome ← (saveRetry job requestId).attempt
      match outcome with
      | .ok job => toJobDto job
      | .error .concurrentJobUpdate =>
        if left = 0 then .raise .databaseUnavailable
        else retryAttempts jobId ownerId requestId (attempted + 1) left
      | .error e => .raise e

def retryJob (jobId ownerId : Id) (requestId : String) : Program JobDTO :=
  retryAttempts jobId ownerId requestId 0 3

end OCRApplicationService
end MonkeyOcr
