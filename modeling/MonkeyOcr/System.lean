import MonkeyOcr.Application.EventStream
import MonkeyOcr.Application.Retention
import MonkeyOcr.Application.Uploads
import MonkeyOcr.Calls.Machine
import MonkeyOcr.Infrastructure.Messaging

namespace MonkeyOcr

open Calls

/-- The calls of the system: the consumer of one message, the worker process,
the HTTP requests, the outbox dispatcher, the retention cleaner and the event
stream; and the requests of a browser that holds a presigned URL. A loop without a bound of its own is given its number of turns. -/
inductive Task
  | process (turns : Nat) (message : JobWorkMessage)
  | runWorker (turns polls : Nat)
  | createJob (request : CreateJobRequest) (ownerId : Id) (requestId : String)
      (idempotencyKey : Option String)
  | getJob (jobId ownerId : Id)
  | listJobs (ownerId : Id) (page pageSize : Nat)
  | cancelJob (jobId ownerId : Id) (requestId : String)
  | retryJob (jobId ownerId : Id) (requestId : String)
  | dispatchOnce (limit : Nat)
  | runBatch (limit leaseSeconds : Nat) (now : Option Time)
  | streamJobEvents (turns : Nat) (jobId ownerId : Id) (lastEventId : Option String)
  | createUpload (request : CreateUploadRequest) (ownerId : Id)
  | completeUpload (uploadId ownerId : Id) (providedSha256 multipartUploadId : Option String)
      (parts : List (Nat × String))
  | listArtifacts (jobId ownerId : Id)
  | presignedPut (uploadId : Id) (object : StoredContent)

inductive Reply
  | upload (dto : UploadDTO)
  | completed (dto : CompleteUploadDTO)
  | artifacts (dto : ArtifactListDTO)
  | processed (job : Option Job)
  | job (dto : JobDTO)
  | jobs (dto : JobListDTO)
  | dispatched (published : Nat)
  | cleaned (result : RetentionBatchResult)
  | ended

def program (settings : Settings) : Task → Program Reply
  | .process turns message => do
    let job ← OCRWorker.process settings turns message
    return .processed job
  | .runWorker turns polls => do
    WorkerMain.runWorker settings turns polls
    return .ended
  | .createJob request ownerId requestId idempotencyKey => do
    let dto ← OCRApplicationService.createJob request ownerId requestId idempotencyKey
    return .job dto
  | .getJob jobId ownerId => do
    let dto ← OCRApplicationService.getJob jobId ownerId
    return .job dto
  | .listJobs ownerId page pageSize => do
    let dto ← OCRApplicationService.listJobs ownerId page pageSize
    return .jobs dto
  | .cancelJob jobId ownerId requestId => do
    let dto ← OCRApplicationService.cancelJob jobId ownerId requestId
    return .job dto
  | .retryJob jobId ownerId requestId => do
    let dto ← OCRApplicationService.retryJob jobId ownerId requestId
    return .job dto
  | .dispatchOnce limit => do
    let published ← OutboxDispatcher.dispatchOnce limit
    return .dispatched published
  | .runBatch limit leaseSeconds now => do
    let result ← RetentionCleanupService.runBatch settings limit leaseSeconds now
    return .cleaned result
  | .streamJobEvents turns jobId ownerId lastEventId => do
    EventStream.streamJobEvents settings turns jobId ownerId lastEventId
    return .ended
  | .createUpload request ownerId => do
    let dto ← OCRApplicationService.createUpload settings.maxUploadBytes request ownerId
    return .upload dto
  | .completeUpload uploadId ownerId providedSha256 multipartUploadId parts => do
    let dto ← OCRApplicationService.completeUpload uploadId ownerId providedSha256 multipartUploadId parts
    return .completed dto
  | .listArtifacts jobId ownerId => do
    let dto ← OCRApplicationService.listArtifacts jobId ownerId
    return .artifacts dto
  | .presignedPut uploadId object => do
    await (.presignedPut uploadId object)
    return .ended

abbrev State := Sys Sig World Task Exc Reply

abbrev Step := Action Task Choice Rebalance

/-- Every interleaving of every number of calls, at the granularity of what
they await. -/
def system (settings : Settings) : Machine Sig World Task Choice Rebalance Exc Reply where
  program := program settings
  exec consumer op choice w := w.exec settings consumer op choice
  env event w := some (w.rebalance event)

/-- A deployment before its first job. Any uploads may be there. -/
structure World.Initial (w : World) : Prop where
  jobs : ∀ id, w.jobs id = none
  uploads : ∀ id row, w.uploads id = some row →
    id < w.nextId ∧ row.upload.id = id ∧ row.upload.objectKey = .source id ∧ row.claim = none
  objects : ∀ key id, key.job? = some id → w.objects key = none
  outbox : w.outbox = []
  kafka : w.kafka = {}

/-- A state in which nothing has been called yet. -/
structure Initial (s : State) : Prop where
  world : s.world.Initial
  calls : s.calls = []

/-- The states that any steps lead to. -/
abbrev Reaches (settings : Settings) : State → State → Prop := (system settings).Run fun _ _ => True

/-! ### Runs from a deployment with one document -/

/-- One completed document of the user 7. -/
def oneDocument : State where
  world :=
    { nextId := 1
      uploads := fun id => if id = 0 then
        some { upload :=
                 { id := 0, ownerId := 7, filename := "scan.pdf", sizeBytes := 3
                   contentType := "application/pdf", sha256 := "", objectKey := .source 0
                   state := .completed, createdAt := 0, completedAt := some 0
                   detectedContentType := none, multipartUploadId := none }
               expiresAt := 100 } else none
      objects := fun key => if key = .source 0 then
        some ⟨.raw [37, 80, 68], "application/pdf", none⟩ else none }
  calls := []

theorem oneDocument_initial : Initial oneDocument where
  calls := rfl
  world :=
    { jobs := fun _ => rfl
      uploads := fun id row stored => by
        simp only [oneDocument] at stored
        split at stored
        · rename_i zero
          cases stored
          exact ⟨zero ▸ Nat.one_pos, zero.symm, by rw [zero], rfl⟩
        · cases stored
      objects := fun key id own => by
        cases key with
        | source => cases own
        | _ => rfl
      outbox := rfl
      kafka := rfl }

/-- The choice of a call that leaves nothing open. -/
def Choice.go : Choice := {}

/-- The clock of such a run stands still. -/
def Choice.now : Choice := { answer := .time 0 }

/-- The call `i` gets these answers. -/
def answered (i : Nat) (choices : List Choice) : List Step := choices.map fun choice => .resume i choice

/-- The message of the first attempt of the first job. -/
def firstMessage : JobWorkMessage := ⟨1, 1, "request", 1⟩

/-- `create_job` for the document, as the call `i`. -/
def createSteps (i : Nat) : List Step :=
  .start (.createJob ⟨0, []⟩ 7 "request" none) :: answered i [.go, .go, .now, .go, .now, .go, .go]

/-- `cancel_job`, as the call `i`. -/
def cancelSteps (i : Nat) : List Step :=
  .start (.cancelJob 1 7 "request") :: answered i [.go, .now, .now, .go, .go]

/-- The preprocessor finds one page, the document itself. -/
def Choice.onePage : Choice := { answer := .prepared [] (.ok [⟨1, .source 0⟩]) }

/-- A first delivery of the message, as the call `i`, up to where it awaits the
recognition of the page. -/
def deliverSteps (i : Nat) : List Step :=
  .start (.process 5 firstMessage) :: answered i
    [.go, .go, .now, .now, .go, .onePage, .now, .now, .go, .go, .now, .now, .go, .go, .go, .go, .go,
      .now, .go]

/-- Another delivery, which finds the job running. -/
def redeliverSteps (i : Nat) : List Step :=
  .start (.process 5 firstMessage) :: answered i [.go, .go, .go, .go, .go, .go, .go, .now, .go]

/-- The call `i` gets this recognition and saves the page. -/
def recognizeSteps (i : Nat) (result : OCRResult) : List Step :=
  answered i [{ answer := .recognized result }, .go, .go, .now, .go]

/-- `dispatch_once` of one event, as the call `i`. -/
def dispatchSteps (i : Nat) (event : Id) : List Step :=
  .start (.dispatchOnce 100) :: answered i
    [{ answer := .picked [event] [] }, { answer := .partition 0 }, .go]

/-- A worker process that is given the partition and polls, as the call `i`. -/
def pollSteps (i : Nat) : List Step :=
  .start (.runWorker 5 5) :: .env (.assign i 0) :: answered i
    [{ answer := .flag false }, { answer := .partition 0 }]

/-- An event stream of the job from its first event on, as the call `i`, up to
where it has sent one event and goes on. -/
def streamSteps (i : Nat) : List Step :=
  .start (.streamJobEvents 9 1 7 none) :: answered i [.go, .go, .go, .go]

/-- `retry_job`, as the call `i`. -/
def retrySteps (i : Nat) : List Step :=
  .start (.retryJob 1 7 "request") :: answered i [.go, .now, .go, .now, .go, .go]

end MonkeyOcr
