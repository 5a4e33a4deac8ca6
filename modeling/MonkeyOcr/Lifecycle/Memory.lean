import MonkeyOcr.Lifecycle.Transitions
import MonkeyOcr.System

namespace MonkeyOcr

open Calls

/-- What a call remembers of the job table: the versions it has read (with the
place of the read) or saved itself, the jobs a read did not find, those among
them it had read before, the identifiers it has drawn, the record it works on,
and the outbox events it has listed and the values it has sent. -/
structure Memory where
  record : Option Record := none
  message : Option JobWorkMessage := none
  seen : List (Option Site × Job) := []
  missing : List Id := []
  lost : List Id := []
  ids : List Id := []
  listed : List OutboxEvent := []
  sent : List Codec.Json := []

namespace Memory

def next (s : Memory) : (op : Op) → Except Exc op.Val → Memory
  | .getJob site _, .ok (some job) => { s with seen := (some site, job) :: s.seen }
  | .getJob _ id, .ok none =>
    { s with
      missing := id :: s.missing
      lost := if s.seen.any fun entry => entry.2.id = id then id :: s.lost else s.lost }
  | .saveWithEvent job _, .ok saved =>
    { s with seen := (none, { job with revision := saved.1 }) :: s.seen }
  | .saveWithOutboxAndEvent job outboxEvent _, .ok saved =>
    { s with
      seen := (none, { job with revision := saved.1 }) :: s.seen
      ids := s.ids.filter (· ≠ outboxEvent.id) }
  | .saveWithOutboxAndEvent _ outboxEvent _, .error _ =>
    { s with ids := s.ids.filter (· ≠ outboxEvent.id) }
  | .addWithOutboxAndEvent job outboxEvent _, _ =>
    { s with ids := s.ids.filter fun id => id ≠ job.id ∧ id ≠ outboxEvent.id }
  | .uuid7, .ok id => { s with ids := id :: s.ids }
  | .addUpload upload, _ => { s with ids := s.ids.filter (· ≠ upload.id) }
  | .pendingOutbox _, .ok events => { s with listed := events }
  | .sendAndWait _ value, .ok _ => { s with sent := value :: s.sent }
  | .getMany, .ok (some record) =>
    { s with
      record := some record, message := (decodeJobMessage record.value).toOption
      seen := [], missing := [], lost := [] }
  | _, _ => s

def Sees (s : Memory) (id : Id) : Prop := ∃ origin job, (origin, job) ∈ s.seen ∧ job.id = id

/-- A job the call has read is gone. -/
def Lost (s : Memory) (id : Id) : Prop := id ∈ s.lost ∧ id ∈ s.missing ∧ s.Sees id

/-- The reads whose result becomes the working copy of a call: checks adopt
what they find only if there is something to do about it, and the page loop
reads once more before it saves. -/
def Adopts (s : Memory) : Option Site → Job → Prop
  | some .entry, job => ∀ message ∈ s.message, job.attempt = message.attempt
  | some .cancelCheck, job | some .conflict, job => job.state = .cancelRequested
  | some .failure, job => job.terminal = false
  | some .beforeSuccess, job =>
    job.state = .assembling ∧ ∀ page ∈ job.pages, page.state = .succeeded
  | some .pageLoop, _ => False
  | _, _ => True

instance (s : Memory) : ∀ origin job, Decidable (s.Adopts origin job)
  | some .entry, job => inferInstanceAs (Decidable (∀ message ∈ s.message, job.attempt = message.attempt))
  | some .cancelCheck, job | some .conflict, job =>
    inferInstanceAs (Decidable (job.state = .cancelRequested))
  | some .failure, job => inferInstanceAs (Decidable (job.terminal = false))
  | some .beforeSuccess, job =>
    inferInstanceAs (Decidable (job.state = .assembling ∧ ∀ page ∈ job.pages, page.state = .succeeded))
  | some .pageLoop, _ => isFalse id
  | none, _ | some (.pageTurn _), _ | some (.recognized _), _ | some (.exhausted _), _ | some .api, _
  | some (.stream _), _ => isTrue trivial

/-- The call works on `job`, as it was read at `origin`, or on the last copy of
a job that is gone. -/
def Works (s : Memory) (origin : Option Site) (job : Job) : Prop :=
  (origin, job) ∈ s.seen ∧ s.Adopts origin job ∨ s.Lost job.id

/-- `job` is one edit away from a version the call works on. -/
def Derived (s : Memory) (type : EventType) (job : Job) : Prop :=
  s.Lost job.id ∨ ∃ origin v, (origin, v) ∈ s.seen ∧ s.Adopts origin v ∧ v.Edits origin type job

/-- The call knows that nothing is left to do for the message. -/
def Settled (s : Memory) (message : JobWorkMessage) : Prop :=
  message.jobId ∈ s.missing ∨ ∃ origin job, (origin, job) ∈ s.seen ∧ job.id = message.jobId ∧
    (job.terminal = true ∨ job.attempt ≠ message.attempt)

/-- The record at hand needs no further processing. -/
def Done (s : Memory) : Prop :=
  ∀ message, s.message = some message → message.schemaVersion = 1 → s.Settled message

end Memory

/-- The event reports the version of the job it is saved with. -/
structure JobEvent.Reports (event : JobEvent) (job : Job) : Prop where
  jobId : event.jobId = job.id
  state : event.state = job.state
  progress : event.progress = job.progress
  attempt : event.attempt = job.attempt

/-- The terminal event of a terminal state. -/
def JobState.terminalEvent? : JobState → Option EventType
  | .cancelled => some .jobCancelled
  | .failed => some .jobFailed
  | .succeeded => some .jobSucceeded
  | _ => none

/-- The events the worker saves a job with. -/
def EventType.ofWorker : EventType → Bool
  | .jobQueued | .jobRetrying | .jobCancelRequested => false
  | _ => true

/-- The outbox event of the job's attempt, under an identifier just drawn. -/
def OutboxEvent.Requests (outboxEvent : OutboxEvent) (s : Memory) (job : Job) : Prop :=
  outboxEvent.id ∈ s.ids ∧
    ∃ requestId now, outboxEvent = OCRApplicationService.requested outboxEvent.id job requestId now

/-- A job as `create_job` makes it. -/
structure Job.New (job : Job) : Prop where
  state : job.state = .queued
  attempt : job.attempt = 1
  revision : job.revision = 0
  pages : job.pages = []
  artifacts : job.artifacts = []

/-- What may be relied on of an answer, whoever asks. -/
def Memory.answer : (op : Op) → Except Exc op.Val → Prop
  | .getJob _ id, .ok (some job) => job.id = id
  | .prepare _ _, .ok pages => pages.map PreparedPage.pageNumber = List.range' 1 pages.length
  | _, _ => True

namespace Memory

/-- The calls of `process`, for the message at hand. -/
def workerCalls (s : Memory) (message : JobWorkMessage) : Op → Prop
  | .getJob site id => id = message.jobId ∧ site ≠ .api
  | .saveWithEvent job event =>
    job.id = message.jobId ∧ s.Derived event.eventType job ∧ event.Reports job ∧
      event.eventType.ofWorker = true
  | .appendEvent event =>
    ∃ job, (some .entry, job) ∈ s.seen ∧ job.id = message.jobId ∧ job.attempt = message.attempt ∧
      job.state.terminalEvent? = some event.eventType ∧ event.Reports job
  | .getUpload _ | .getBytes _ | .putBytes .. | .stat _ | .prepare .. | .recognize .. | .utcNow
  | .sleep _ | .log .. => True
  | _ => False

/-- The calls `run_worker` makes around `process`. -/
def consumerCalls (s : Memory) : Op → Prop
  | .stopRequested | .log .. | .sendToDlq .. => True
  | .getMany => s.record = none ∨ s.Done
  | .commit partition offset =>
    ∃ record, s.record = some record ∧ record.partition = partition ∧ record.offset + 1 = offset ∧ s.Done
  | _ => False

/-- `job` was made from a version that no delivery has begun. -/
def Waited (s : Memory) (job : Job) : Prop :=
  ∃ v, (some .api, v) ∈ s.seen ∧ v.id = job.id ∧ v.revision = job.revision ∧
    (v.state = .queued ∨ v.state = .retrying)

/-- The calls of the HTTP requests. -/
def serviceCalls (s : Memory) : Op → Prop
  | .getJob site _ => site = .api
  | .saveWithEvent job event =>
    s.Derived event.eventType job ∧ event.Reports job ∧
      (event.eventType = .jobCancelRequested ∨ event.eventType = .jobCancelled ∧ s.Waited job)
  | .saveWithOutboxAndEvent job outboxEvent event =>
    s.Derived event.eventType job ∧ event.Reports job ∧ event.eventType = .jobRetrying ∧
      outboxEvent.Requests s job
  | .addWithOutboxAndEvent job outboxEvent event =>
    job.New ∧ job.id ∈ s.ids ∧ outboxEvent.Requests s job ∧ event.Reports job ∧
      event.eventType = .jobQueued
  | .addUpload upload => upload.id ∈ s.ids ∧ upload.objectKey = .source upload.id
  | .getUpload _ | .saveUpload _ | .findIdByIdempotencyKey .. | .listIds .. | .countJobs _
  | .createUploadTarget .. | .completeUpload .. | .createDownloadUrl _ | .getBytes _ | .stat _ | .utcNow
  | .uuid7 => True
  | _ => False

/-- The calls of a browser to the object store. -/
def browserCalls : Op → Prop
  | .presignedPut .. => True
  | _ => False

/-- The calls of `dispatch_once`: an event is marked once its message is sent. -/
def dispatcherCalls (s : Memory) : Op → Prop
  | .pendingOutbox _ => True
  | .sendAndWait _ value =>
    ∃ event ∈ s.listed, ∃ message, messageOf event.payload = .ok message ∧
      value = KafkaJobPublisher.encode message
  | .markPublished id =>
    ∃ event ∈ s.listed, event.id = id ∧ ∃ message, messageOf event.payload = .ok message ∧
      KafkaJobPublisher.encode message ∈ s.sent
  | _ => False

def cleanerCalls : Op → Prop
  | .claimExpired .. | .complete _ | .defer .. | .deleteObject _ | .abortMultipartUpload ..
  | .utcNow | .log .. => True
  | _ => False

def streamCalls : Op → Prop
  | .getJob .. | .listAfter .. | .loopTime | .sleep _ | .isDisconnected | .yieldEvent _
  | .yieldHeartbeat => True
  | _ => False

def ghost : Ghost Sig Memory := ⟨next⟩

def worker : Contract Sig Memory where
  allow s op := ∃ message, s.message = some message ∧ s.workerCalls message op
  answer _ op r := answer op r

def consumer : Contract Sig Memory where
  allow s op := worker.allow s op ∨ s.consumerCalls op
  answer _ op r := answer op r

def service : Contract Sig Memory where
  allow s op := s.serviceCalls op
  answer _ op r := answer op r

def dispatcher : Contract Sig Memory where
  allow s op := s.dispatcherCalls op
  answer _ op r := answer op r

def cleaner : Contract Sig Memory where
  allow _ op := cleanerCalls op
  answer _ op r := answer op r

def stream : Contract Sig Memory where
  allow _ op := streamCalls op
  answer _ op r := answer op r

def browser : Contract Sig Memory where
  allow _ op := browserCalls op
  answer _ op r := answer op r

/-- What a later memory of one and the same message keeps. -/
structure Grows (s s' : Memory) : Prop where
  message : s'.message = s.message
  record : s'.record = s.record
  seen : ∀ entry ∈ s.seen, entry ∈ s'.seen
  missing : ∀ id ∈ s.missing, id ∈ s'.missing
  lost : ∀ id ∈ s.lost, id ∈ s'.lost

theorem Grows.refl {s : Memory} : s.Grows s := ⟨rfl, rfl, fun _ h => h, fun _ h => h, fun _ h => h⟩

theorem Grows.trans {s s' s'' : Memory} (first : s.Grows s') (rest : s'.Grows s'') : s.Grows s'' where
  message := rest.message.trans first.message
  record := rest.record.trans first.record
  seen entry member := rest.seen entry (first.seen entry member)
  missing id member := rest.missing id (first.missing id member)
  lost id member := rest.lost id (first.lost id member)

/-- One more version seen. -/
theorem Grows.cons {s : Memory} (entry : Option Site × Job) : s.Grows { s with seen := entry :: s.seen } :=
  ⟨rfl, rfl, fun _ member => List.mem_cons_of_mem _ member, fun _ member => member, fun _ member => member⟩

/-- A job not found. -/
theorem Grows.absent {s : Memory} (id : Id) (site : Site) : s.Grows (s.next (.getJob site id) (.ok none)) := by
  refine ⟨rfl, rfl, fun _ member => member, fun _ member => List.mem_cons_of_mem _ member, ?_⟩
  intro other member
  simp only [next]
  split
  · exact List.mem_cons_of_mem _ member
  · exact member

/-- A job not found that was read before. -/
theorem Sees.lost {s : Memory} {id : Id} (sees : s.Sees id) (site : Site) :
    (s.next (.getJob site id) (.ok none)).Lost id := by
  refine ⟨?_, List.mem_cons_self, sees⟩
  obtain ⟨origin, job, member, same⟩ := sees
  have seen : (s.seen.any fun entry => decide (entry.2.id = id)) = true :=
    List.any_eq_true.mpr ⟨_, member, by simpa using same⟩
  simp only [next, seen, if_true]
  exact List.mem_cons_self

/-- The calls of `process` stay with their message. -/
theorem workerCalls_grows {s : Memory} {message : JobWorkMessage} {op : Op}
    (allowed : s.workerCalls message op) (r : Except Exc op.Val) : s.Grows (s.next op r) := by
  cases op with
  | getJob site id =>
    rcases r with e | _ | job
    · exact .refl
    · exact .absent id site
    · exact .cons _
  | saveWithEvent job event =>
    cases r with
    | error e => exact .refl
    | ok saved => exact .cons _
  | addWithOutboxAndEvent => exact allowed.elim
  | saveWithOutboxAndEvent => exact allowed.elim
  | addUpload => exact allowed.elim
  | uuid7 => exact allowed.elim
  | getMany => exact allowed.elim
  | pendingOutbox => exact allowed.elim
  | sendAndWait => exact allowed.elim
  | _ => cases r <;> exact .refl

section Grows

variable {s s' : Memory} {origin : Option Site} {job : Job} {type : EventType} {id : Id}
  {message : JobWorkMessage}

theorem Grows.sees (grows : s.Grows s') (sees : s.Sees id) : s'.Sees id := by
  obtain ⟨origin, job, member, same⟩ := sees
  exact ⟨origin, job, grows.seen _ member, same⟩

theorem Grows.lost_sees (grows : s.Grows s') (lost : s.Lost id) : s'.Lost id :=
  ⟨grows.lost _ lost.1, grows.missing _ lost.2.1, grows.sees lost.2.2⟩

theorem Grows.adopts (grows : s.Grows s') (adopts : s.Adopts origin job) : s'.Adopts origin job := by
  unfold Adopts at *
  rw [grows.message]
  exact adopts

theorem Grows.works (grows : s.Grows s') (works : s.Works origin job) : s'.Works origin job :=
  works.imp (fun ⟨member, adopts⟩ => ⟨grows.seen _ member, grows.adopts adopts⟩) grows.lost_sees

theorem Grows.derived (grows : s.Grows s') (derived : s.Derived type job) : s'.Derived type job := by
  refine derived.imp grows.lost_sees ?_
  rintro ⟨origin, v, member, adopts, edits⟩
  exact ⟨origin, v, grows.seen _ member, grows.adopts adopts, edits⟩

theorem Grows.settled (grows : s.Grows s') (settled : s.Settled message) : s'.Settled message := by
  refine settled.imp (grows.missing _) ?_
  rintro ⟨origin, job, member, rest⟩
  exact ⟨origin, job, grows.seen _ member, rest⟩

theorem Works.derived (works : s.Works origin job) {job' : Job} (edits : job.Edits origin type job') :
    s.Derived type job' := by
  rcases works with ⟨member, adopts⟩ | lost
  · exact .inr ⟨origin, job, member, adopts, edits⟩
  · exact .inl (edits.id ▸ lost)

theorem Works.sees (works : s.Works origin job) : s.Sees job.id := by
  rcases works with ⟨member, -⟩ | lost
  · exact ⟨origin, job, member, rfl⟩
  · exact lost.2.2

end Grows
end Memory
end MonkeyOcr
