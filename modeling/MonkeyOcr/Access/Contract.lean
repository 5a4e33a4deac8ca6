import MonkeyOcr.Calls.Trace
import MonkeyOcr.Lifecycle.Births

namespace MonkeyOcr

open Calls

/-- All that a call has done, with the answers it got. -/
abbrev Past := List ((op : Op) × Except Exc op.Val)

/-- The owner on whose behalf a request is made. -/
def Task.owner? : Task → Option Id
  | .createJob _ ownerId _ _ | .getJob _ ownerId | .listJobs ownerId _ _ | .cancelJob _ ownerId _
  | .retryJob _ ownerId _ | .streamJobEvents _ _ ownerId _ | .createUpload _ ownerId
  | .completeUpload _ ownerId _ _ _ | .listArtifacts _ ownerId => some ownerId
  | _ => none

/-- The request completes an upload. -/
def Task.completes : Task → Bool
  | .completeUpload .. => true
  | _ => false

namespace Past

def ghost : Ghost Sig Past := Trace.ghost

/-- A job that a call has read, or has stored itself. -/
inductive Has (past : Past) (job : Job) : Prop
  | read {site : Site} {id : Id} (done : ⟨.getJob site id, .ok (some job)⟩ ∈ past)
  | added {outboxEvent : OutboxEvent} {event saved : JobEvent}
      (done : ⟨.addWithOutboxAndEvent job outboxEvent event, .ok saved⟩ ∈ past)
  | saved {v : Job} {event : JobEvent} {result : Nat × JobEvent}
      (done : ⟨.saveWithEvent v event, .ok result⟩ ∈ past) (same : job = { v with revision := result.1 })
  | retried {v : Job} {outboxEvent : OutboxEvent} {event : JobEvent} {result : Nat × JobEvent}
      (done : ⟨.saveWithOutboxAndEvent v outboxEvent event, .ok result⟩ ∈ past)
      (same : job = { v with revision := result.1 })

/-- A job of the owner that the call has read or stored. -/
structure Owns (past : Past) (ownerId : Id) (job : Job) : Prop where
  has : past.Has job
  owner : job.ownerId = ownerId

/-- An upload of the owner that the call has read. -/
structure OwnsUpload (past : Past) (ownerId : Id) (upload : Upload) : Prop where
  read : ⟨.getUpload upload.id, .ok (some upload)⟩ ∈ past
  owner : upload.ownerId = ownerId

/-- The identifier is one that a query for the jobs of the owner has returned. -/
inductive Listed (past : Past) (ownerId id : Id) : Prop
  | page {offset limit : Nat} {ids : List Id} (done : ⟨.listIds ownerId offset limit, .ok ids⟩ ∈ past)
      (member : id ∈ ids)
  | key {key : String} (done : ⟨.findIdByIdempotencyKey ownerId key, .ok (some id)⟩ ∈ past)

/-- `job` is a later version of a job of the owner. -/
def Edits (past : Past) (ownerId : Id) (job : Job) : Prop :=
  ∃ v, past.Owns ownerId v ∧ job.id = v.id ∧ job.birth = v.birth

/-- The object of the upload was seen not to be the document. -/
def Refutes (past : Past) (upload : Upload) : Prop :=
  (∃ info, ⟨.stat upload.objectKey, .ok (some info)⟩ ∈ past ∧ OCRApplicationService.mismatches upload info = true) ∨
    ∃ data : Content, ⟨.getBytes upload.objectKey, .ok data⟩ ∈ past ∧ data.sha256 ≠ upload.sha256

/-- The object of the upload was seen to be the document. -/
structure Verifies (past : Past) (upload : Upload) : Prop where
  info : ∃ info, ⟨.stat upload.objectKey, .ok (some info)⟩ ∈ past ∧
    OCRApplicationService.mismatches upload info = false
  data : ∃ data : Content, ⟨.getBytes upload.objectKey, .ok data⟩ ∈ past ∧ data.sha256 = upload.sha256

/-- An upload of the owner that waited for its document when it was read. -/
structure Checks (past : Past) (ownerId : Id) (upload : Upload) : Prop extends past.OwnsUpload ownerId upload where
  state : upload.state = .uploading

/-- The upload as its check leaves it. -/
def Concludes (past : Past) (ownerId : Id) (upload' : Upload) : Prop :=
  ∃ upload, past.Checks ownerId upload ∧
    (upload' = upload.reject ∧ past.Refutes upload ∨
      ∃ detected now, upload.complete detected now = .ok upload' ∧ past.Verifies upload)

/-- The object has not been looked at. -/
def Unseen (past : Past) (key : ObjectKey) : Prop :=
  (∀ info, ⟨.stat key, .ok info⟩ ∉ past) ∧ ∀ data, ⟨.getBytes key, .ok data⟩ ∉ past

/-- The event is one that the call has listed for a job of the owner. -/
def Tells (past : Past) (ownerId : Id) (event : JobEvent) : Prop :=
  ∃ job sequence events, past.Owns ownerId job ∧ ⟨.listAfter job.id sequence, .ok events⟩ ∈ past ∧ event ∈ events

/-- The calls of a request on behalf of the owner, which `completing` says to
be a `complete_upload`. -/
def requests (completing : Bool) (ownerId : Id) (past : Past) : Op → Prop
  | .getUpload _ | .getJob .. | .createUploadTarget .. | .utcNow | .uuid7 | .loopTime | .sleep _
  | .isDisconnected | .yieldHeartbeat => True
  | .listIds owner _ _ | .countJobs owner | .findIdByIdempotencyKey owner _ => owner = ownerId
  | .addUpload upload => upload.ownerId = ownerId
  | .saveUpload upload => completing = true ∧ past.Concludes ownerId upload
  | .addWithOutboxAndEvent job outboxEvent event =>
    job.ownerId = ownerId ∧ (∃ upload, past.OwnsUpload ownerId upload ∧ upload.state = .completed ∧
      upload.id = job.uploadId) ∧ outboxEvent.aggregateId = job.id ∧ event.jobId = job.id
  | .saveWithEvent job event => past.Edits ownerId job ∧ event.jobId = job.id
  | .saveWithOutboxAndEvent job outboxEvent event =>
    past.Edits ownerId job ∧ outboxEvent.aggregateId = job.id ∧ event.jobId = job.id
  | .listAfter jobId _ => ∃ job, past.Owns ownerId job ∧ job.id = jobId
  | .yieldEvent event => past.Tells ownerId event
  | .createDownloadUrl key => ∃ job, past.Owns ownerId job ∧ ∃ artifact ∈ job.artifacts, artifact.objectKey = key
  | .completeUpload key _ _ =>
    completing = true ∧ (∃ upload, past.Checks ownerId upload ∧ upload.objectKey = key) ∧ past.Unseen key
  | .stat key | .getBytes key => completing = true ∧ ∃ upload, past.Checks ownerId upload ∧ upload.objectKey = key
  | _ => False

/-- What a request relies on: an upload that is joined to a job has the owner of
the job, and a job that was found by a query for an owner is the owner's. -/
def answers (ownerId : Id) (past : Past) : (op : Op) → Except Exc op.Val → Prop
  | .getUpload id, .ok (some upload) =>
    upload.id = id ∧ ∀ job, past.Has job → job.uploadId = id → upload.ownerId = job.ownerId
  | .getJob _ id, .ok (some job) => job.id = id ∧ (past.Listed ownerId id → job.ownerId = ownerId)
  | _, _ => True

def access (completing : Bool) (ownerId : Id) : Contract Sig Past := ⟨requests completing ownerId, answers ownerId⟩

/-- The job and the filename of the reply are the owner's. -/
def Shows (past : Past) (ownerId : Id) (dto : JobDTO) : Prop :=
  ∃ job filename, past.Owns ownerId job ∧ dto = .fromDomain job filename ∧
    (filename = "" ∨ ∃ upload, past.OwnsUpload ownerId upload ∧ upload.id = job.uploadId ∧
      filename = upload.filename)

/-- The upload of the reply is one that the call has added for the owner, at
the target that was made for its object. -/
def ShowsUpload (past : Past) (ownerId : Id) (dto : UploadDTO) : Prop :=
  ∃ upload target contentType sizeBytes sha256, ⟨.addUpload upload, .ok ()⟩ ∈ past ∧ upload.ownerId = ownerId ∧
    ⟨.createUploadTarget upload.objectKey contentType sizeBytes sha256, .ok target⟩ ∈ past ∧
    dto = {
      uploadId := upload.id, objectKey := upload.objectKey, uploadUrl := target.url
      uploadMethod := target.method, uploadHeaders := target.headers, multipartUploadId := target.uploadId
      partSizeBytes := target.partSizeBytes
      parts := target.partUrls.map fun part => ⟨part.1, part.2⟩, status := upload.state }

/-- The upload of the reply is the owner's: as it was read, or as the call has
completed it. -/
def ShowsCompletion (past : Past) (ownerId : Id) (dto : CompleteUploadDTO) : Prop :=
  ∃ upload, past.OwnsUpload ownerId upload ∧ dto.uploadId = upload.id ∧
    (dto.status = upload.state ∧
        dto.detectedContentType = (upload.detectedContentType.filter (· ≠ "")).getD upload.contentType ∨
      ∃ upload', ⟨.saveUpload upload', .ok ()⟩ ∈ past ∧ upload'.id = upload.id ∧ dto.status = upload'.state ∧
        upload'.detectedContentType = some dto.detectedContentType)

/-- The items are the artifacts of one job of the owner. -/
def ShowsArtifacts (past : Past) (ownerId : Id) (dto : ArtifactListDTO) : Prop :=
  ∃ job, past.Owns ownerId job ∧ List.Forall₂ (fun artifact item => ∃ url,
    ⟨.createDownloadUrl artifact.objectKey, .ok url⟩ ∈ past ∧ item = ArtifactDTO.fromDomain artifact url)
      job.artifacts dto.items

/-- All that a reply tells is of the owner's uploads, jobs and artifacts. -/
def Confines (past : Past) (ownerId : Id) : Reply → Prop
  | .job dto => past.Shows ownerId dto
  | .jobs dto => (∀ item ∈ dto.items, past.Shows ownerId item) ∧ ⟨.countJobs ownerId, .ok dto.total⟩ ∈ past
  | .upload dto => past.ShowsUpload ownerId dto
  | .completed dto => past.ShowsCompletion ownerId dto
  | .artifacts dto => past.ShowsArtifacts ownerId dto
  | _ => True

end Past
end MonkeyOcr
