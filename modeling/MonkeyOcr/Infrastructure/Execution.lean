import MonkeyOcr.Infrastructure.Persistence

namespace MonkeyOcr

open Codec (Json)

/-- The two adapters of the object store. -/
inductive StorageAdapter
  | s3 | storageService
  deriving DecidableEq, Repr

structure Settings where
  maxPageRetries : Nat := 3
  retryBaseSeconds : Rat := 1
  jobRetentionDays : Nat := 30
  storage : StorageAdapter := .storageService
  sseHeartbeat : Time := seconds 15
  retryDelaySeconds : Nat := 30
  maxUploadBytes : Nat := 104857600
  uploadTtlSeconds : Nat := 3600

/-- An object a preprocessor puts under the prefix of the attempt it works
for. -/
structure PageObject where
  name : String
  data : Content
  contentType : String
  metadataSha256 : Option String

/-- What a call leaves open: times, the answers of the outside world, and which
rows or records a query that may skip some returns. -/
inductive Answer
  | none
  | time (t : Time)
  | flag (value : Bool)
  | picked (jobs uploads : List Id)
  | prepared (written : List PageObject) (result : Except Exc (List PreparedPage))
  | recognized (result : OCRResult)
  | partition (partition : Nat)
  | target (target : UploadTarget)
  | url (url : String)
  | assembled (object : StoredContent)

/-- A dependency may fail before it did anything, or do its work and fail to
say so. -/
inductive Failure
  | none
  | before (e : Exc)
  | after (e : Exc)

structure Choice where
  answer : Answer := .none
  failure : Failure := .none

/-- The exceptions an adapter raises when the call fails. Conflicts are not
among them, they are part of what the database does. -/
def Op.mayRaise : Op → Exc → Bool
  | .recognize .., e => e.isEngineError || e.isOther
  | .getBytes _, e | .putBytes .., e | .stat _, e | .deleteObject _, e | .abortMultipartUpload .., e
  | .createUploadTarget .., e | .completeUpload .., e | .createDownloadUrl _, e =>
    e.isOther || e = .fileNotFound
  | .prepare .., _ | .utcNow, _ | .loopTime, _ | .uuid7, _ | .sleep _, _ | .log .., _
  | .stopRequested, _ | .isDisconnected, _ | .yieldEvent _, _ | .yieldHeartbeat, _ => false
  | _, e => e.isOther

/-- The call may fail after it did its work. A poll that fails has not moved on. -/
def Op.failsLate : Op → Bool
  | .getMany => false
  | _ => true

namespace World

/-- The outcome of a transaction: what raises is rolled back. -/
def transact {α : Type} (w : World) : Except Exc (α × World) → Except Exc α × World
  | .ok (a, w') => (.ok a, w')
  | .error e => (.error e, w)

def underAttempt (job : Job) : ObjectKey → Bool
  | .page id attempt _ => id = job.id ∧ attempt = job.attempt
  | _ => false

/-- Preprocessors number pages from one without gaps and name only objects of
the attempt or the document itself; what a successful one wrote is named. -/
def preparedBy (upload : Upload) (job : Job) (written : List PageObject) :
    Except Exc (List PreparedPage) → Bool
  | .error e => e = .preprocessing || e = .fileNotFound || e.isOther
  | .ok pages =>
    pages.map PreparedPage.pageNumber = List.range' 1 pages.length ∧
      (∀ page ∈ pages, page.objectKey = upload.objectKey ∨ underAttempt job page.objectKey) ∧
      ∀ object ∈ written, ∃ page ∈ pages, page.objectKey = .page job.id job.attempt object.name

def putPageObject (job : Job) (w : World) (object : PageObject) : World :=
  w.setObject (.page job.id job.attempt object.name)
    (some ⟨object.data, object.contentType, object.metadataSha256⟩)

def put (w : World) (storage : StorageAdapter) (key : ObjectKey) (data : Content)
    (contentType : String) : World :=
  w.setObject key (some ⟨data, contentType, if storage = .s3 then some data.sha256 else none⟩)

/-- One call against the shared state, when the dependency does not fail.
`none`: the answer does not fit the call. `consumer` is the calling process. -/
def perform (settings : Settings) (consumer : Nat) (w : World) :
    (op : Op) → Answer → Option (Except Exc op.Val × World)
  | .addUpload upload, _ => some (w.transact (w.addUpload upload settings.uploadTtlSeconds))
  | .getUpload id, _ => some (.ok (w.getUpload id), w)
  | .saveUpload upload, _ => some (w.transact (w.saveUpload upload))
  | .getJob _ id, _ => some (.ok (w.getJob id), w)
  | .saveWithEvent job event, _ =>
    some (w.transact (w.saveWithEvent job event settings.jobRetentionDays))
  | .addWithOutboxAndEvent job outboxEvent jobEvent, _ =>
    some (w.transact (w.addWithOutboxAndEvent job outboxEvent jobEvent settings.jobRetentionDays))
  | .saveWithOutboxAndEvent job outboxEvent jobEvent, _ =>
    some (w.transact (w.saveWithOutboxAndEvent job outboxEvent jobEvent settings.jobRetentionDays))
  | .findIdByIdempotencyKey ownerId key, _ => some (.ok (w.findIdByIdempotencyKey ownerId key), w)
  | .listIds ownerId offset limit, _ => some (.ok (w.listIds ownerId offset limit), w)
  | .countJobs ownerId, _ => some (.ok (w.countJobs ownerId), w)
  | .appendEvent event, _ => some (w.transact (w.appendEvent event))
  | .listAfter id sequence, _ => some (.ok (w.listAfter id sequence), w)
  | .pendingOutbox limit, .picked ids _ => (w.pendingOutbox limit ids).map fun events => (.ok events, w)
  | .markPublished id, _ => some (.ok (), w.markPublished id)
  | .claimExpired now limit leaseSeconds, .picked jobs uploads =>
    (w.claimExpired now limit leaseSeconds jobs uploads).map fun (candidates, w) => (.ok candidates, w)
  | .complete candidate, _ =>
    let (deleted, w) := w.complete candidate
    some (.ok deleted, w)
  | .defer candidate retryAt, _ => some (.ok (), w.defer candidate retryAt)
  | .getBytes key, _ =>
    match w.objects key with
    | some object => some (.ok object.data, w)
    | none => some (.error (if settings.storage = .s3 then .other "ClientError" else .fileNotFound), w)
  | .putBytes key data contentType, _ =>
    some (.ok ⟨key, data.sizeBytes, data.sha256, contentType⟩, w.put settings.storage key data contentType)
  | .stat key, _ =>
    some (.ok ((w.objects key).map fun object =>
      ⟨key, object.data.sizeBytes, object.metadataSha256, object.contentType⟩), w)
  | .deleteObject key, _ => some (.ok (), w.setObject key none)
  | .abortMultipartUpload _ _, _ => some (.ok (), w)
  | .createUploadTarget .., .target target => some (.ok target, w)
  | .createDownloadUrl _, .url url => some (.ok url, w)
  | .presignedPut uploadId object, _ => some (.ok (), w.setObject (.source uploadId) (some object))
  | .completeUpload _ none _, _ => some (.ok (), w)
  | .completeUpload key (some _) parts, .assembled object =>
    if settings.storage = .s3 ∧ parts = [] then
      some (.error (.valueError "multipart completion requires parts"), w)
    else some (.ok (), w.setObject key (some object))
  | .prepare upload job, .prepared written result =>
    if preparedBy upload job written result then some (result, written.foldl (putPageObject job) w)
    else none
  | .recognize .., .recognized result => some (.ok result, w)
  | .sendAndWait key value, .partition p =>
    let kafka := w.kafka
    some (.ok (), { w with kafka :=
      { kafka with log := Function.update kafka.log p (kafka.log p ++ [(key, value)]) } })
  | .sendToDlq key value, _ => some (.ok (), { w with dlq := w.dlq ++ [(key, value)] })
  | .getMany, .none => some (.ok none, w)
  | .getMany, .partition p =>
    match w.kafka.positions consumer p with
    | none => none
    | some offset =>
      match (w.kafka.log p)[offset]? with
      | none => none
      | some (key, value) =>
        let positions := w.kafka.positions
        let own := Function.update (positions consumer) p (some (offset + 1))
        some (.ok (some ⟨p, offset, key, value⟩),
          { w with kafka := { w.kafka with positions := Function.update positions consumer own } })
  | .commit p offset, _ =>
    let kafka := w.kafka
    some (.ok (), { w with kafka :=
      { kafka with committed := Function.update kafka.committed p offset } })
  | .utcNow, .time t => some (.ok t, w)
  | .loopTime, .time t => some (.ok t, w)
  | .uuid7, _ => some (.ok w.nextId, { w with nextId := w.nextId + 1 })
  | .stopRequested, .flag value => some (.ok value, w)
  | .isDisconnected, .flag value => some (.ok value, w)
  | .sleep _, _ => some (.ok (), w)
  | .log _ _ _, _ => some (.ok (), w)
  | .yieldEvent _, _ => some (.ok (), w)
  | .yieldHeartbeat, _ => some (.ok (), w)
  | _, _ => none

def exec (settings : Settings) (consumer : Nat) (op : Op) (choice : Choice) (w : World) :
    Option (Except Exc op.Val × World) :=
  match choice.failure with
  | .none => w.perform settings consumer op choice.answer
  | .before e => if op.mayRaise e then some (.error e, w) else none
  | .after e =>
    if op.mayRaise e ∧ op.failsLate then
      (w.perform settings consumer op choice.answer).map fun (_, w) => (.error e, w)
    else none

end World

/-- The steps no call makes: the group coordinator gives a partition to a
consumer, at the committed offset, or takes it away. -/
inductive Rebalance
  | assign (consumer partition : Nat)
  | revoke (consumer partition : Nat)

def World.rebalance (w : World) (event : Rebalance) : World :=
  let position := fun consumer partition (offset : Option Nat) =>
    { w with kafka := { w.kafka with
      positions := Function.update w.kafka.positions consumer
        (Function.update (w.kafka.positions consumer) partition offset) } }
  match event with
  | .assign consumer partition => position consumer partition (some (w.kafka.committed partition))
  | .revoke consumer partition => position consumer partition none

end MonkeyOcr
