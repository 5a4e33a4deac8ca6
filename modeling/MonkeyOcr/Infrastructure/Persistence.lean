import MonkeyOcr.Application.Ports
import MonkeyOcr.Tables.Keyed
import Mathlib.Data.List.Dedup
import Mathlib.Data.List.Sort
import Mathlib.Logic.Function.Basic

namespace MonkeyOcr

open Codec (Json)

/-- `retention_claim_token` with `retention_lease_expires_at`; a check
constraint keeps both set or both null. -/
structure Claim where
  token : Id
  leaseExpiresAt : Time

structure UploadRow where
  upload : Upload
  expiresAt : Time
  claim : Option Claim := none

/-- A row of `ocr_job_pages`. The texts of a page are not stored. -/
structure PageRow where
  pageNumber : Nat
  status : PageState
  retryCount : Nat
  sourceObjectKey : ObjectKey
  resultObjectKey : Option ObjectKey
  visualizationObjectKey : Option ObjectKey
  resultSha256 : Option String
  lastInternalCode : Nat
  lastErrorReason : Option String

def Page.toRow (page : Page) : PageRow where
  pageNumber := page.pageNumber
  status := page.state
  retryCount := page.processingAttempts
  sourceObjectKey := page.inputObjectKey
  resultObjectKey := page.resultObjectKey
  visualizationObjectKey := page.visualizationObjectKey
  resultSha256 := page.resultSha256
  lastInternalCode := page.internalCode
  lastErrorReason := page.errorReason

def PageRow.toPage (row : PageRow) : Page where
  pageNumber := row.pageNumber
  inputObjectKey := row.sourceObjectKey
  state := row.status
  processingAttempts := row.retryCount
  resultObjectKey := row.resultObjectKey
  resultSha256 := row.resultSha256
  visualizationObjectKey := row.visualizationObjectKey
  internalCode := row.lastInternalCode
  errorReason := row.lastErrorReason

structure AttemptRow where
  status : JobState
  startedAt : Option Time
  finishedAt : Option Time
  engineName : Option String
  engineVersion : Option String
  modelName : Option String

/-- A row of `ocr_jobs` with the rows of other tables that belong to the job:
attempts, pages and artifacts by attempt number, events by sequence. -/
structure JobRow where
  apiKeyId : Id
  uploadId : Id
  idempotencyKey : Option String
  requestId : String
  status : JobState
  currentAttempt : Nat
  revision : Nat := 0
  totalPages : Option Nat
  completedPages : Nat
  progressPercent : Nat
  options : List (String × Json)
  finishedAt : Option Time := none
  expiresAt : Time
  claim : Option Claim := none
  lastInternalCode : Nat := 0
  lastErrorReason : Option String
  createdAt : Time
  updatedAt : Time
  attempts : Nat → Option AttemptRow
  pages : Nat → List PageRow := fun _ => []
  artifacts : Nat → List Artifact := fun _ => []
  events : List JobEvent := []

namespace AttemptRow

def ofJob (job : Job) : AttemptRow where
  status := job.state
  startedAt := job.startedAt
  finishedAt := job.completedAt
  engineName := job.engineName
  engineVersion := job.engineVersion
  modelName := job.modelName

/-- The `ON CONFLICT` branch of `_upsert_attempt`. -/
def merge (old new : AttemptRow) : AttemptRow where
  status := new.status
  startedAt := old.startedAt <|> new.startedAt
  finishedAt := new.finishedAt
  engineName := new.engineName <|> old.engineName
  engineVersion := new.engineVersion <|> old.engineVersion
  modelName := new.modelName <|> old.modelName

end AttemptRow

/-- The order of kinds by their text. -/
def ArtifactKind.rank : ArtifactKind → Nat
  | json => 0
  | manifest => 1
  | markdown => 2
  | pageImage => 3
  | visualization => 4

/-- `ORDER BY page_number NULLS FIRST, kind`. -/
def Artifact.before (a b : Artifact) : Bool :=
  let pageA := a.pageNumber.elim 0 (· + 1)
  let pageB := b.pageNumber.elim 0 (· + 1)
  pageA < pageB || (pageA == pageB && a.kind.rank ≤ b.kind.rank)

namespace JobRow

def upsertAttempt (attempts : Nat → Option AttemptRow) (job : Job) : Nat → Option AttemptRow :=
  let new := AttemptRow.ofJob job
  Function.update attempts job.attempt (some ((attempts job.attempt).elim new (·.merge new)))

/-- `_insert_job`. -/
def insert (job : Job) (retentionDays : Nat) : JobRow where
  apiKeyId := job.ownerId
  uploadId := job.uploadId
  idempotencyKey := job.idempotencyKey
  requestId := job.requestId
  status := job.state
  currentAttempt := job.attempt
  totalPages := if job.totalPages = 0 then none else some job.totalPages
  completedPages := job.completedPages
  progressPercent := job.progress
  options := job.options
  expiresAt := job.createdAt + days retentionDays
  lastErrorReason := job.errorReason
  createdAt := job.createdAt
  updatedAt := job.createdAt
  attempts := upsertAttempt (fun _ => none) job

/-- `uq_ocr_artifacts_logical`: no two artifacts of an attempt share kind and
page number; null page numbers are all distinct. -/
def artifactsUnique (artifacts : List Artifact) : Bool :=
  let logical := artifacts.filterMap fun a => a.pageNumber.map fun page => (a.kind, page)
  logical.Nodup

/-- `_save_job`: a compare-and-swap on the revision of an unclaimed row, then
the rows of the job's current attempt. -/
def save (row : JobRow) (job : Job) (retentionDays : Nat) : Except Exc JobRow :=
  if row.claim.isSome ∨ row.revision ≠ job.revision then .error .concurrentJobUpdate
  else if job.pages.any (·.pageNumber = 0) then .error (.other "CheckViolationError")
  else if !artifactsUnique job.artifacts then .error (.other "UniqueViolationError")
  else .ok { row with
    requestId := job.requestId
    status := job.state
    currentAttempt := job.attempt
    totalPages := if job.totalPages = 0 then none else some job.totalPages
    completedPages := job.completedPages
    progressPercent := job.progress
    options := job.options
    finishedAt := job.completedAt
    lastInternalCode := job.internalCode
    lastErrorReason := job.errorReason
    updatedAt := job.updatedAt
    expiresAt := job.completedAt.getD job.createdAt + days retentionDays
    revision := row.revision + 1
    attempts := upsertAttempt row.attempts job
    pages := Function.update row.pages job.attempt
      (Tables.upsertAll PageRow.pageNumber (row.pages job.attempt) (job.pages.map Page.toRow))
    artifacts :=
      if job.artifacts.isEmpty then row.artifacts
      else Function.update row.artifacts job.attempt job.artifacts }

/-- `_from_rows` on what `get` selects for the current attempt. -/
def toJob (row : JobRow) (id : Id) : Job :=
  let attempt := row.attempts row.currentAttempt
  { id
    ownerId := row.apiKeyId
    uploadId := row.uploadId
    requestId := row.requestId
    options := row.options
    state := row.status
    attempt := row.currentAttempt
    revision := row.revision
    pages := (row.pages row.currentAttempt).map PageRow.toPage
    artifacts := (row.artifacts row.currentAttempt).insertionSort (fun a b => a.before b)
    idempotencyKey := row.idempotencyKey
    engineName := attempt.bind AttemptRow.engineName
    engineVersion := attempt.bind AttemptRow.engineVersion
    modelName := attempt.bind AttemptRow.modelName
    internalCode := row.lastInternalCode
    errorReason := row.lastErrorReason
    createdAt := row.createdAt
    updatedAt := row.updatedAt
    startedAt := attempt.bind AttemptRow.startedAt
    completedAt := row.finishedAt }

/-- `COALESCE(max(sequence),0)+1`. -/
def nextSequence (row : JobRow) : Nat := (row.events.map JobEvent.sequence).foldl max 0 + 1

/-- The terminal event of a type that the log already holds for an attempt. -/
def terminalEvent? (row : JobRow) (type : EventType) (attempt : Nat) : Option JobEvent :=
  row.events.find? fun event => event.eventType = type ∧ event.attempt = attempt

/-- `append_with_connection`, under the advisory lock of the job. -/
def append (row : JobRow) (event : JobEvent) : JobEvent × JobRow :=
  match if event.eventType.terminal then row.terminalEvent? event.eventType event.attempt else none with
  | some existing => (event.withSequence existing.sequence, row)
  | none =>
    let event := event.withSequence row.nextSequence
    (event, { row with events := row.events ++ [event] })

/-- The objects under the job's prefix that its page and artifact rows name. -/
def referencedKeys (row : JobRow) (id : Id) : List ObjectKey :=
  let pages := (List.range (row.currentAttempt + 1)).flatMap row.pages
  let artifacts := (List.range (row.currentAttempt + 1)).flatMap row.artifacts
  let keys := pages.map PageRow.sourceObjectKey ++ pages.filterMap PageRow.resultObjectKey ++
    pages.filterMap PageRow.visualizationObjectKey ++ artifacts.map Artifact.objectKey
  (keys.filter fun key => key.job? = some id).dedup

end JobRow

structure OutboxRow where
  event : OutboxEvent
  published : Bool := false

structure Kafka where
  log : Nat → List (String × Json) := fun _ => []
  committed : Nat → Nat := fun _ => 0
  /-- The next offset of each partition assigned to a consumer. -/
  positions : Nat → Nat → Option Nat := fun _ _ => none

/-- The state the calls share. Every identifier below `nextId` may be in use. -/
structure World where
  nextId : Id
  uploads : Id → Option UploadRow
  jobs : Id → Option JobRow := fun _ => none
  outbox : List OutboxRow := []
  objects : ObjectKey → Option StoredContent
  kafka : Kafka := {}
  dlq : List (String × Json) := []

namespace World

def setJob (w : World) (id : Id) (row : Option JobRow) : World :=
  { w with jobs := Function.update w.jobs id row }

def setUpload (w : World) (id : Id) (row : Option UploadRow) : World :=
  { w with uploads := Function.update w.uploads id row }

def setObject (w : World) (key : ObjectKey) (object : Option StoredContent) : World :=
  { w with objects := Function.update w.objects key object }

/-- The `add` of uploads; a new session is neither checked nor completed. -/
def addUpload (w : World) (upload : Upload) (ttlSeconds : Nat) : Except Exc (Unit × World) :=
  if (w.uploads upload.id).isSome then .error (.other "UniqueViolationError")
  else
    .ok ((), w.setUpload upload.id (some
      { upload := { upload with completedAt := none, detectedContentType := none }
        expiresAt := upload.createdAt + seconds ttlSeconds }))

/-- The `save` of uploads, which updates a session that retention has not
claimed, whatever its status. -/
def saveUpload (w : World) (upload : Upload) : Except Exc (Unit × World) :=
  match w.uploads upload.id with
  | some row =>
    if row.claim.isSome then .error (.runtimeError "upload is unavailable for retention cleanup")
    else
      .ok ((), w.setUpload upload.id (some { row with
        upload := { row.upload with
          state := upload.state
          detectedContentType := upload.detectedContentType
          completedAt := upload.completedAt } }))
  | none => .error (.runtimeError "upload is unavailable for retention cleanup")

def getUpload (w : World) (uploadId : Id) : Option Upload :=
  match w.uploads uploadId with
  | some row => if row.claim.isSome then none else some row.upload
  | none => none

def getJob (w : World) (jobId : Id) : Option Job :=
  match w.jobs jobId with
  | some row => if row.claim.isSome then none else some (row.toJob jobId)
  | none => none

def saveJob (w : World) (job : Job) (retentionDays : Nat) : Except Exc JobRow :=
  match w.jobs job.id with
  | some row => row.save job retentionDays
  | none => .error .concurrentJobUpdate

def saveWithEvent (w : World) (job : Job) (event : JobEvent) (retentionDays : Nat) :
    Except Exc ((Nat × JobEvent) × World) := do
  let row ← w.saveJob job retentionDays
  let (event, row) := row.append event
  return ((row.revision, event), w.setJob job.id (some row))

def insertOutbox (w : World) (event : OutboxEvent) : World :=
  { w with outbox := w.outbox ++ [{ event }] }

def saveWithOutboxAndEvent (w : World) (job : Job) (outboxEvent : OutboxEvent) (jobEvent : JobEvent)
    (retentionDays : Nat) : Except Exc ((Nat × JobEvent) × World) := do
  let (saved, w) ← w.saveWithEvent job jobEvent retentionDays
  return (saved, w.insertOutbox outboxEvent)

/-- The rows with an identifier in use, in the order of identifiers. -/
def jobIds (w : World) (p : JobRow → Bool) : List Id :=
  (List.range w.nextId).filter fun id => (w.jobs id).any p

def findIdByIdempotencyKey (w : World) (ownerId : Id) (key : String) : Option Id :=
  (w.jobIds fun row => row.apiKeyId = ownerId ∧ row.idempotencyKey = some key).head?

def addWithOutboxAndEvent (w : World) (job : Job) (outboxEvent : OutboxEvent) (jobEvent : JobEvent)
    (retentionDays : Nat) : Except Exc (JobEvent × World) :=
  if (w.jobs job.id).isSome then .error (.other "UniqueViolationError")
  else if (w.uploads job.uploadId).isNone then .error (.other "ForeignKeyViolationError")
  else if job.idempotencyKey.any fun key => (w.findIdByIdempotencyKey job.ownerId key).isSome then
    .error .duplicateIdempotencyKey
  else
    let (event, row) := (JobRow.insert job retentionDays).append jobEvent
    .ok (event, (w.setJob job.id (some row)).insertOutbox outboxEvent)

def listIds (w : World) (ownerId : Id) (offset limit : Nat) : List Id :=
  let ids := w.jobIds fun row => row.apiKeyId = ownerId ∧ row.claim.isNone
  let createdAt := fun id => (w.jobs id).elim 0 JobRow.createdAt
  ((ids.insertionSort fun a b => createdAt b ≤ createdAt a).drop offset).take limit

def countJobs (w : World) (ownerId : Id) : Nat :=
  (w.jobIds fun row => row.apiKeyId = ownerId ∧ row.claim.isNone).length

/-- `append`; the foreign key of an event is its job. -/
def appendEvent (w : World) (event : JobEvent) : Except Exc (JobEvent × World) :=
  match w.jobs event.jobId with
  | some row =>
    let (saved, row) := row.append event
    .ok (saved, w.setJob event.jobId (some row))
  | none => .error (.other "ForeignKeyViolationError")

def events (w : World) (jobId : Id) : List JobEvent := (w.jobs jobId).elim [] JobRow.events

/-- Events are stored in the order of their sequence. -/
def listAfter (w : World) (jobId : Id) (sequence : Nat) : List JobEvent :=
  ((w.events jobId).filter fun event => sequence < event.sequence).take 100

/-- `pending`: the rows `SKIP LOCKED` leaves are some of the unpublished. -/
def pendingOutbox (w : World) (limit : Nat) (picked : List Id) : Option (List OutboxEvent) :=
  let rows := w.outbox.filter fun row => row.event.id ∈ picked ∧ ¬ row.published
  if rows.length = picked.length ∧ picked.length ≤ limit then
    some ((rows.map OutboxRow.event).insertionSort fun a b => a.createdAt ≤ b.createdAt)
  else none

def markPublished (w : World) (eventId : Id) : World :=
  { w with
    outbox := w.outbox.map fun row => if row.event.id = eventId then { row with published := true } else row }

/-! ### Retention -/

def claimFree (claim : Option Claim) (now : Time) : Bool :=
  claim.all fun claim => claim.leaseExpiresAt ≤ now

/-- The `WHERE` clause of the job claim. -/
def jobExpired (now : Time) (row : JobRow) : Bool :=
  (row.status = .succeeded ∨ row.status = .failed ∨ row.status = .cancelled) ∧
    row.expiresAt ≤ now ∧ claimFree row.claim now

/-- The `WHERE` clause of the upload claim. -/
def uploadExpired (w : World) (now : Time) (id : Id) (row : UploadRow) : Bool :=
  row.expiresAt ≤ now ∧ claimFree row.claim now ∧ (w.jobIds fun job => job.uploadId = id) = []

def claimJob (w : World) (id : Id) (claim : Claim) : World :=
  w.setJob id ((w.jobs id).map fun row => { row with claim := some claim })

def claimUpload (w : World) (id : Id) (claim : Claim) : World :=
  w.setUpload id ((w.uploads id).map fun row => { row with claim := some claim })

def jobCandidate (w : World) (token : Id) (id : Id) : RetentionCandidate where
  aggregateKind := .job
  aggregateId := id
  claimToken := token
  objectKeys := (w.jobs id).elim [] fun row => row.referencedKeys id

def uploadCandidate (w : World) (token : Id) (id : Id) : RetentionCandidate where
  aggregateKind := .upload
  aggregateId := id
  claimToken := token
  objectKeys := (w.uploads id).elim [] fun row => [row.upload.objectKey]
  multipartUploadId := (w.uploads id).bind fun row =>
    if row.upload.state = .uploading then row.upload.multipartUploadId else none

/-- `claim_expired`: `SKIP LOCKED` and `LIMIT` leave some of the rows that
meet the `WHERE` clauses, `jobs` and then `uploads`. -/
def claimExpired (w : World) (now : Time) (limit leaseSeconds : Nat) (jobs uploads : List Id) :
    Option (List RetentionCandidate × World) :=
  if limit < 1 then some ([], w)
  else if jobs.Nodup ∧ jobs.length ≤ limit ∧ (∀ id ∈ jobs, (w.jobs id).any (jobExpired now)) ∧
      uploads.Nodup ∧ uploads.length ≤ limit - jobs.length ∧
      (∀ id ∈ uploads, (w.uploads id).any (w.uploadExpired now id)) then
    let leaseExpiresAt := now + seconds leaseSeconds
    let candidates := jobs.map (w.jobCandidate w.nextId) ++
      uploads.map (w.uploadCandidate (w.nextId + 1))
    let claimed := jobs.foldl (fun v id => v.claimJob id ⟨w.nextId, leaseExpiresAt⟩) w
    let claimed := uploads.foldl (fun v id => v.claimUpload id ⟨w.nextId + 1, leaseExpiresAt⟩) claimed
    some (candidates, { claimed with nextId := w.nextId + 2 })
  else none

def holds (claim : Option Claim) (token : Id) : Bool := claim.any fun claim => claim.token = token

def complete (w : World) (candidate : RetentionCandidate) : Bool × World :=
  match candidate.aggregateKind with
  | .job =>
    if (w.jobs candidate.aggregateId).any fun row => holds row.claim candidate.claimToken then
      (true, { w.setJob candidate.aggregateId none with
        outbox := w.outbox.filter fun row => row.event.aggregateId ≠ candidate.aggregateId })
    else (false, w)
  | .upload =>
    if ((w.uploads candidate.aggregateId).any fun row => holds row.claim candidate.claimToken) ∧
        (w.jobIds fun job => job.uploadId = candidate.aggregateId) = [] then
      (true, w.setUpload candidate.aggregateId none)
    else (false, w)

def defer (w : World) (candidate : RetentionCandidate) (retryAt : Time) : World :=
  let lease := fun (claim : Option Claim) => claim.map fun claim =>
    if claim.token = candidate.claimToken then { claim with leaseExpiresAt := retryAt } else claim
  match candidate.aggregateKind with
  | .job =>
    w.setJob candidate.aggregateId
      ((w.jobs candidate.aggregateId).map fun row => { row with claim := lease row.claim })
  | .upload =>
    w.setUpload candidate.aggregateId
      ((w.uploads candidate.aggregateId).map fun row => { row with claim := lease row.claim })

end World
end MonkeyOcr
