import MonkeyOcr.Lifecycle.WorkerContract

namespace MonkeyOcr

open Calls Memory

section

variable {s : Memory} {α : Type} {E : Exc → Memory → Prop}

/-- Nothing is promised of how a request ends. -/
abbrev Keeps (c : Contract Sig Memory) (p : Prog Sig Exc α) (s : Memory) : Prop :=
  p.Meets ghost c (fun _ _ => True) (fun _ _ => True) s

namespace OCRApplicationService

variable {job : Job} {upload : Upload} {ownerId jobId : Id} {requestId : String}

theorem cancelTransitions_edits (origin : Option Site) {now : Time} {job' : Job}
    (done : cancelTransitions { job with requestId } now = .ok job') :
    job.Edits origin (if job'.state = .cancelled then .jobCancelled else .jobCancelRequested) job' ∧
      (job'.state = .cancelled → job.state = .queued ∨ job.state = .retrying) := by
  unfold cancelTransitions at done
  cases moved : ({ job with requestId } : Job).requestCancel now with
  | error e => rw [moved] at done; cases done
  | ok requested =>
    obtain ⟨permitted, rfl⟩ := Job.requestCancel_ok moved
    rw [moved] at done
    by_cases waiting : job.state = .queued ∨ job.state = .retrying
    · simp only [bind, Except.bind, waiting, if_true] at done
      obtain ⟨-, rfl⟩ := Job.cancel_ok done
      exact ⟨⟨rfl, rfl, rfl, .cancelled (.inr waiting)⟩, fun _ => waiting⟩
    · simp only [bind, Except.bind, waiting, if_false] at done
      cases done
      refine ⟨⟨rfl, rfl, rfl, .cancelRequested ?_⟩, nofun⟩
      simp only [List.mem_cons, List.not_mem_nil, or_false] at permitted
      simp only [Job.version]
      tauto

theorem database_spec (op : Op) (allowed : s.serviceCalls op) {Q : op.Val → Memory → Prop}
    (returns : ∀ a, answer op (.ok a) → Q a (s.next op (.ok a)))
    (raises : ∀ e, E (databaseError e) (s.next op (.error e))) :
    (database op).Meets ghost service Q E s := by
  refine Prog.meets_mapError.mpr ⟨allowed, fun r reliable => ?_⟩
  cases r with
  | ok a => exact returns a reliable
  | error e => exact raises e

/-- A call whose answer does not matter to the contract. -/
theorem database_any (op : Op) (allowed : s.serviceCalls op) : Keeps service (database op) s :=
  database_spec op allowed (fun _ _ => trivial) fun _ => trivial

theorem utcNow_spec (raises : ∀ e, E e s) :
    (await .utcNow).Meets ghost service (fun _ s' => s' = s) E s :=
  ⟨trivial, fun r _ => by cases r with
    | ok now => rfl
    | error e => exact raises e⟩

theorem uuid7_spec (raises : ∀ e, E e s) :
    (await .uuid7).Meets ghost service (fun id s' => s' = { s with ids := id :: s.ids }) E s :=
  ⟨trivial, fun r _ => by cases r with
    | ok id => rfl
    | error e => exact raises e⟩

theorem toJobDto_spec : Keeps service (toJobDto job) s :=
  (database_any (.getUpload _) trivial).bind fun _ _ _ => trivial

theorem ownedUpload_spec {uploadId : Id} :
    (ownedUpload uploadId ownerId).Meets ghost service (fun _ s' => s' = s) (fun _ _ => True) s := by
  refine Prog.Meets.bind (Q := fun _ s' => s' = s)
    (database_spec (.getUpload uploadId) trivial (fun _ _ => rfl) fun _ => trivial) ?_
  rintro (_ | upload) _ rfl
  · trivial
  · dsimp only
    split
    · trivial
    · rfl

/-- A job that `_owned_job` returns is one that was read. -/
theorem ownedJob_spec :
    (ownedJob .api jobId ownerId).Meets ghost service
      (fun job s' => (some .api, job) ∈ s'.seen) (fun _ _ => True) s := by
  refine Prog.Meets.bind (Q := fun found s' => ∀ job, found = some job → (some .api, job) ∈ s'.seen)
    (database_spec (.getJob .api jobId) rfl ?_ fun _ => trivial) ?_
  · rintro (_ | job) _
    · simp
    · rintro _ ⟨⟩
      exact List.mem_cons_self
  · rintro (_ | job) s' found
    · trivial
    · dsimp only
      split
      · trivial
      · exact found job rfl

theorem findByIdempotencyKey_spec {key : String} : Keeps service (findByIdempotencyKey ownerId key) s := by
  refine (database_any (.findIdByIdempotencyKey ownerId key) trivial).bind ?_
  rintro (_ | id) s' -
  · trivial
  · exact database_any (.getJob .api id) rfl

theorem replayed_spec {request : CreateJobRequest} : Keeps service (replayed job upload request) s := by
  unfold replayed
  split
  · trivial
  · exact toJobDto_spec

theorem insertJob_spec {request : CreateJobRequest} {idempotencyKey : Option String} :
    Keeps service (insertJob request upload ownerId requestId idempotencyKey) s := by
  refine (uuid7_spec fun _ => trivial).bind ?_
  rintro id _ rfl
  refine (utcNow_spec fun _ => trivial).bind ?_
  rintro created _ rfl
  refine (uuid7_spec fun _ => trivial).bind ?_
  rintro outboxId _ rfl
  refine (utcNow_spec fun _ => trivial).bind ?_
  rintro now _ rfl
  refine Prog.Meets.bind (Q := fun _ _ => True) (Prog.meets_attempt.mpr
    (database_any (.addWithOutboxAndEvent ..) ?_)) ?_
  · exact ⟨⟨rfl, rfl, rfl, rfl, rfl⟩, by simp, ⟨by simp [requested], requestId, now, rfl⟩,
      ⟨rfl, rfl, rfl, rfl⟩, rfl⟩
  · rintro (e | _) s' -
    · split
      · exact toJobDto_spec
      · split
        · trivial
        · refine findByIdempotencyKey_spec.bind ?_
          rintro (_ | existing) s'' -
          · trivial
          · exact replayed_spec
      · trivial
    · exact toJobDto_spec

theorem createJob_spec {request : CreateJobRequest} {idempotencyKey : Option String} :
    Keeps service (createJob request ownerId requestId idempotencyKey) s := by
  refine ownedUpload_spec.bind ?_
  rintro upload _ rfl
  split
  · trivial
  · split
    · exact insertJob_spec
    · refine findByIdempotencyKey_spec.bind ?_
      rintro (_ | existing) s' -
      · exact insertJob_spec
      · exact replayed_spec

theorem getJob_spec : Keeps service (getJob jobId ownerId) s :=
  (ownedJob_spec.mono (fun _ _ _ => trivial) fun _ _ h => h).bind fun _ _ _ => toJobDto_spec

theorem getJobs_spec {ids : List Id} : Keeps service (getJobs ids) s := by
  induction ids generalizing s with
  | nil => trivial
  | cons id rest ih =>
    exact (database_any (.getJob .api id) rfl).bind fun _ _ _ => ih.bind fun _ _ _ => trivial

theorem toJobDtos_spec {jobs : List Job} : Keeps service (toJobDtos jobs) s := by
  induction jobs generalizing s with
  | nil => trivial
  | cons job rest ih => exact toJobDto_spec.bind fun _ _ _ => ih.bind fun _ _ _ => trivial

theorem listJobs_spec {page pageSize : Nat} : Keeps service (listJobs ownerId page pageSize) s :=
  (database_any (.listIds ..) trivial).bind fun _ _ _ =>
    (database_any (.countJobs _) trivial).bind fun _ _ _ =>
      getJobs_spec.bind fun _ _ _ => toJobDtos_spec.bind fun _ _ _ => trivial

theorem requestCancel_spec (member : (some .api, job) ∈ s.seen) :
    Keeps service (requestCancel job requestId) s := by
  refine (utcNow_spec fun _ => trivial).bind ?_
  rintro now s' rfl
  refine Prog.Meets.bind (Q := fun job' s'' => s'' = s' ∧
    cancelTransitions { job with requestId } now = .ok job') ?_ ?_
  · cases moved : cancelTransitions { job with requestId } now with
    | ok job' => exact ⟨rfl, rfl⟩
    | error e => trivial
  rintro job' _ ⟨rfl, done⟩
  refine (utcNow_spec fun _ => trivial).bind ?_
  rintro later _ rfl
  obtain ⟨edits, waiting⟩ := cancelTransitions_edits (some .api) done
  refine (database_any (.saveWithEvent ..) ⟨.inr ⟨_, job, member, trivial, edits⟩,
    ⟨rfl, rfl, rfl, rfl⟩, ?_⟩).bind fun _ _ _ => trivial
  by_cases cancelled : job'.state = .cancelled
  · exact .inr ⟨if_pos cancelled, job, member, edits.id.symm, edits.revision.symm, waiting cancelled⟩
  · exact .inl (if_neg cancelled)

theorem cancelAttempts_spec {left : Nat} : Keeps service (cancelAttempts jobId ownerId requestId left) s := by
  induction left generalizing s with
  | zero => trivial
  | succ left ih =>
    refine ownedJob_spec.bind ?_
    rintro job s₁ member
    split
    · trivial
    · split
      · exact toJobDto_spec
      · refine Prog.Meets.bind (Q := fun _ _ => True)
          (Prog.meets_attempt.mpr (requestCancel_spec member)) ?_
        rintro (e | job') s₂ -
        · split
          · exact toJobDto_spec
          · split
            · trivial
            · exact ih
          · trivial
          · trivial
        · exact toJobDto_spec

theorem saveRetry_spec {job' : Job} {now : Time} (member : (some .api, job) ∈ s.seen)
    (done : job.retry requestId now = .ok job') : Keeps service (saveRetry job' requestId) s := by
  refine (uuid7_spec fun _ => trivial).bind ?_
  rintro outboxId _ rfl
  refine (utcNow_spec fun _ => trivial).bind ?_
  rintro created _ rfl
  refine Prog.Meets.bind (Q := fun _ _ => True) (database_any (.saveWithOutboxAndEvent job' _ _) ?_)
    fun _ _ _ => trivial
  exact ⟨.inr ⟨_, job, member, trivial, (Job.retry_edits done).1⟩, ⟨rfl, rfl, rfl, rfl⟩, rfl,
    by simp [requested], requestId, created, rfl⟩

theorem retryAttempts_spec {attempted left : Nat} :
    Keeps service (retryAttempts jobId ownerId requestId attempted left) s := by
  induction left generalizing s attempted with
  | zero => trivial
  | succ left ih =>
    refine ownedJob_spec.bind ?_
    rintro job s₁ member
    refine (utcNow_spec fun _ => trivial).bind ?_
    rintro now _ rfl
    cases done : job.retry requestId now with
    | error e =>
      dsimp only
      split
      · exact toJobDto_spec
      · trivial
    | ok job' =>
      refine Prog.Meets.bind (Q := fun _ _ => True)
        (Prog.meets_attempt.mpr (saveRetry_spec member done)) ?_
      rintro (e | job'') s₂ -
      · split
        · exact toJobDto_spec
        · split
          · trivial
          · exact ih
        · trivial
      · exact toJobDto_spec

theorem storage_any (op : Op) (allowed : s.serviceCalls op) : Keeps service (storage op) s := by
  refine Prog.meets_mapError.mpr ⟨allowed, fun r _ => ?_⟩
  cases r <;> trivial

theorem storageOrMissing_any {code : InternalStatusCode} {reason : String} (op : Op) (allowed : s.serviceCalls op) :
    Keeps service (storageOrMissing op code reason) s :=
  Prog.meets_mapError.mpr (storage_any op allowed)

theorem createUpload_spec {maxUploadBytes : Nat} {request : CreateUploadRequest} :
    Keeps service (createUpload maxUploadBytes request ownerId) s := by
  unfold createUpload
  split
  · trivial
  · split
    · trivial
    · refine (uuid7_spec fun _ => trivial).bind ?_
      rintro id _ rfl
      refine (utcNow_spec fun _ => trivial).bind ?_
      rintro now _ rfl
      refine Prog.Meets.bind (Q := fun _ s' => id ∈ s'.ids)
        (Prog.meets_mapError.mpr ⟨trivial, fun r _ => ?_⟩) fun target s' drawn => ?_
      · cases r with
        | ok target => exact List.mem_cons_self
        | error e => trivial
      · exact (database_any (.addUpload _) ⟨drawn, rfl⟩).bind fun _ _ _ => trivial

theorem rejectUpload_spec {reason : String} : Keeps service (rejectUpload upload reason) s :=
  (database_any (.saveUpload _) trivial).bind fun _ _ _ => trivial

theorem verifyUpload_spec {data : Content} : Keeps service (verifyUpload upload data) s := by
  unfold verifyUpload
  split
  · exact rejectUpload_spec
  · cases MagicBytesFileValidator.validate upload data.bytes with
    | error e => trivial
    | ok detected =>
      refine (utcNow_spec fun _ => trivial).bind ?_
      rintro now _ rfl
      cases upload.complete detected now with
      | error e => trivial
      | ok upload => exact (database_any (.saveUpload _) trivial).bind fun _ _ _ => trivial

theorem checkUpload_spec {parts : List (Nat × String)} : Keeps service (checkUpload upload parts) s := by
  refine (storage_any (.completeUpload ..) trivial).bind fun _ s₁ _ => ?_
  refine (storage_any (.stat _) trivial).bind fun info s₂ _ => ?_
  cases info with
  | none => trivial
  | some info =>
    dsimp only
    split
    · exact rejectUpload_spec
    · exact (storageOrMissing_any (.getBytes _) trivial).bind fun _ _ _ => verifyUpload_spec

theorem completeUpload_spec {uploadId : Id} {sha256 multipart : Option String} {parts : List (Nat × String)} :
    Keeps service (completeUpload uploadId ownerId sha256 multipart parts) s := by
  refine ownedUpload_spec.bind ?_
  rintro upload _ rfl
  split
  · trivial
  · split
    · trivial
    · split
      · trivial
      · trivial
      · exact checkUpload_spec

theorem artifactItems_spec {artifacts : List Artifact} : Keeps service (artifactItems artifacts) s := by
  induction artifacts generalizing s with
  | nil => trivial
  | cons artifact rest ih =>
    exact (storageOrMissing_any (.createDownloadUrl _) trivial).bind fun _ _ _ => ih.bind fun _ _ _ => trivial

theorem listArtifacts_spec : Keeps service (listArtifacts jobId ownerId) s := by
  refine ownedJob_spec.bind fun job s' _ => ?_
  split
  · trivial
  · exact artifactItems_spec.bind fun _ _ _ => trivial

end OCRApplicationService
namespace OutboxDispatcher

theorem database_spec (op : Op) (allowed : s.dispatcherCalls op) {Q : op.Val → Memory → Prop}
    (returns : ∀ a, Q a (s.next op (.ok a))) :
    (database op).Meets ghost dispatcher Q (fun _ _ => True) s := by
  refine Prog.meets_mapError.mpr ⟨allowed, fun r _ => ?_⟩
  cases r with
  | ok a => exact returns a
  | error e => trivial

theorem publish_spec {event : OutboxEvent} {message : JobWorkMessage} (listed : event ∈ s.listed)
    (decoded : messageOf event.payload = .ok message) :
    (KafkaJobPublisher.publish message).Meets ghost dispatcher
      (fun _ s' => s'.listed = s.listed ∧ KafkaJobPublisher.encode message ∈ s'.sent)
      (fun _ _ => True) s := by
  refine Prog.meets_mapError.mpr ⟨⟨event, listed, message, decoded, rfl⟩, fun r _ => ?_⟩
  cases r with
  | ok _ => exact ⟨rfl, List.mem_cons_self⟩
  | error e => trivial

/-- An event is marked as published after its message was sent. -/
theorem dispatchEach_spec {events : List OutboxEvent} {published : Nat}
    (listed : ∀ event ∈ events, event ∈ s.listed) :
    Keeps dispatcher (dispatchEach events published) s := by
  induction events generalizing s published with
  | nil => trivial
  | cons event rest ih =>
    have here := listed event List.mem_cons_self
    have later : ∀ event ∈ rest, event ∈ s.listed := fun event member =>
      listed event (List.mem_cons_of_mem _ member)
    unfold dispatchEach
    split
    · exact ih later
    · cases decoded : messageOf event.payload with
      | error e => trivial
      | ok message =>
        refine (publish_spec here decoded).bind ?_
        intro _ s' sent
        have mark : (database (.markPublished event.id)).Meets ghost dispatcher
            (fun _ s'' => s''.listed = s'.listed) (fun _ _ => True) s' :=
          database_spec (.markPublished event.id) ⟨event, sent.1 ▸ here, rfl, message, decoded, sent.2⟩
            fun _ => rfl
        refine mark.bind ?_
        intro _ s'' same
        exact ih fun event member => by rw [same, sent.1]; exact later event member

theorem dispatchOnce_spec {limit : Nat} : Keeps dispatcher (dispatchOnce limit) s := by
  have pending : (database (.pendingOutbox limit)).Meets ghost dispatcher
      (fun events s' => s'.listed = events) (fun _ _ => True) s :=
    database_spec (.pendingOutbox limit) trivial fun _ => rfl
  refine pending.bind ?_
  intro events s' same
  exact dispatchEach_spec fun event member => same ▸ member

end OutboxDispatcher

namespace RetentionCleanupService

theorem await_spec (op : Op) (allowed : cleanerCalls op) : Keeps cleaner (await op) s :=
  ⟨allowed, fun r _ => by cases r <;> trivial⟩

theorem deleteEach_spec {keys : List ObjectKey} {failed : Option Exc} :
    Keeps cleaner (deleteEach keys failed) s := by
  induction keys generalizing s failed with
  | nil => cases failed <;> trivial
  | cons key rest ih =>
    refine Prog.Meets.bind (Q := fun _ _ => True)
      (Prog.meets_attempt.mpr (await_spec (.deleteObject key) trivial)) ?_
    rintro (e | _) s' -
    · exact ih
    · exact ih

theorem deleteObjects_spec {candidate : RetentionCandidate} : Keeps cleaner (deleteObjects candidate) s := by
  unfold deleteObjects
  dsimp only
  split
  · exact deleteEach_spec.bind fun _ _ _ => trivial
  · split
    · exact (await_spec (.abortMultipartUpload ..) trivial).bind fun _ _ _ =>
        deleteEach_spec.bind fun _ _ _ => trivial
    · trivial

theorem deferCandidate_spec {settings : Settings} {candidate : RetentionCandidate} {e : Exc}
    {result : RetentionBatchResult} : Keeps cleaner (deferCandidate settings candidate e result) s := by
  refine (await_spec .utcNow trivial).bind fun now _ _ => ?_
  refine Prog.Meets.bind (Q := fun _ _ => True) (Prog.meets_catchError.mpr
    ((await_spec (.defer ..) trivial).mono (fun _ _ h => h) fun _ _ _ =>
      await_spec (.log ..) trivial)) fun _ _ _ => ?_
  exact (await_spec (.log ..) trivial).bind fun _ _ _ => trivial

theorem cleanCandidates_spec {settings : Settings} {candidates : List RetentionCandidate}
    {result : RetentionBatchResult} : Keeps cleaner (cleanCandidates settings candidates result) s := by
  induction candidates generalizing s result with
  | nil => trivial
  | cons candidate rest ih =>
    refine Prog.Meets.bind (Q := fun _ _ => True) (Prog.meets_attempt.mpr deleteObjects_spec) ?_
    rintro (e | deleted) s₁ -
    · exact deferCandidate_spec.bind fun _ _ _ => ih
    · refine Prog.Meets.bind (Q := fun _ _ => True)
        (Prog.meets_attempt.mpr (await_spec (.complete candidate) trivial)) ?_
      rintro (e | completed) s₂ -
      · exact deferCandidate_spec.bind fun _ _ _ => ih
      · cases completed
        · exact (await_spec (.log ..) trivial).bind fun _ _ _ => ih
        · exact (await_spec (.log ..) trivial).bind fun _ _ _ => ih

theorem runBatch_spec {settings : Settings} {limit leaseSeconds : Nat} {now : Option Time} :
    Keeps cleaner (runBatch settings limit leaseSeconds now) s := by
  unfold runBatch
  split
  · trivial
  · split
    · trivial
    · refine Prog.Meets.bind (Q := fun _ _ => True) ?_ fun time _ _ =>
        (await_spec (.claimExpired ..) trivial).bind fun _ _ _ => cleanCandidates_spec
      cases now with
      | some now => trivial
      | none => exact await_spec .utcNow trivial

end RetentionCleanupService

namespace EventStream

theorem await_spec (op : Op) (allowed : streamCalls op) : Keeps stream (await op) s :=
  ⟨allowed, fun r _ => by cases r <;> trivial⟩

theorem waitUntil_spec {jobId : Id} {sequence turns : Nat} {deadline : Time} :
    Keeps stream (waitUntil jobId sequence deadline turns) s := by
  induction turns generalizing s with
  | zero => trivial
  | succ turns ih =>
    refine (await_spec .loopTime trivial).bind fun now _ _ => ?_
    split
    · refine (await_spec (.listAfter ..) trivial).bind fun events _ _ => ?_
      split
      · exact (await_spec .loopTime trivial).bind fun _ _ _ =>
          (await_spec (.sleep _) trivial).bind fun _ _ _ => ih
      · trivial
    · trivial

theorem pendingEvents_spec {settings : Settings} {jobId : Id} {sequence turns : Nat} :
    Keeps stream (pendingEvents settings jobId sequence turns) s := by
  refine (await_spec (.listAfter ..) trivial).bind fun listed _ _ => ?_
  split
  · exact (await_spec .loopTime trivial).bind fun _ _ _ => waitUntil_spec
  · trivial

theorem yieldEach_spec {events : List JobEvent} {sequence : Nat} :
    Keeps stream (yieldEach events sequence) s := by
  induction events generalizing s sequence with
  | nil => trivial
  | cons event rest ih => exact (await_spec (.yieldEvent _) trivial).bind fun _ _ _ => ih

theorem getJobDomain_spec {site : Site} {jobId ownerId : Id} :
    Keeps stream (OCRApplicationService.getJobDomain site jobId ownerId) s := by
  refine Prog.Meets.bind (Q := fun _ _ => True)
    (Prog.meets_mapError.mpr (await_spec (.getJob site jobId) trivial)) ?_
  rintro (_ | job) _ -
  · trivial
  · dsimp only
    split <;> trivial

theorem generate_spec {settings : Settings} {jobId ownerId : Id} {turns sequence : Nat} :
    Keeps stream (generate settings jobId ownerId turns sequence) s := by
  induction turns generalizing s sequence with
  | zero => trivial
  | succ turns ih =>
    refine pendingEvents_spec.bind fun pending _ _ => ?_
    split
    · refine (await_spec .isDisconnected trivial).bind fun disconnected _ _ => ?_
      split
      · trivial
      · refine getJobDomain_spec.bind fun latest _ _ => ?_
        split
        · trivial
        · exact (await_spec .yieldHeartbeat trivial).bind fun _ _ _ => ih
    · refine yieldEach_spec.bind fun _ _ _ => getJobDomain_spec.bind fun latest _ _ => ?_
      split
      · trivial
      · exact ih

theorem streamJobEvents_spec {settings : Settings} {turns : Nat} {jobId ownerId : Id}
    {lastEventId : Option String} :
    Keeps stream (streamJobEvents settings turns jobId ownerId lastEventId) s := by
  refine getJobDomain_spec.bind fun _ _ _ => ?_
  cases parseLastEventId lastEventId with
  | ok sequence => exact generate_spec
  | error e => trivial

end EventStream

namespace WorkerMain

theorem await_spec (op : Op) (allowed : s.consumerCalls op) (quiet : ∀ r, s.next op r = s) :
    (await op).Meets ghost consumer (fun _ s' => s' = s) (fun _ _ => True) s :=
  ⟨.inr allowed, fun r _ => by cases r with
    | ok a => exact quiet _
    | error e => trivial⟩

/-- A record is done when its message needs no work any more, or cannot be
decoded. -/
theorem processRecord_spec {settings : Settings} {turns : Nat} {record : Record}
    (held : s.record = some record) (decoded : s.message = (decodeJobMessage record.value).toOption) :
    (processRecord settings turns record).Meets ghost consumer
      (fun _ s' => s'.record = some record ∧ s'.Done) (fun _ _ => True) s := by
  unfold processRecord
  cases message : decodeJobMessage record.value with
  | error e =>
    refine (await_spec (.log ..) trivial fun _ => rfl).bind ?_
    rintro _ _ rfl
    refine (await_spec (.sendToDlq ..) trivial fun _ => rfl).mono ?_ fun _ _ h => h
    rintro _ _ rfl
    refine ⟨held, fun m same => ?_⟩
    rw [decoded, message] at same
    cases same
  | ok m =>
    have at_m : s.message = some m := by rw [decoded, message]; rfl
    have meets : (OCRWorker.process settings turns m).Meets ghost worker
        (fun _ s' => m.schemaVersion = 1 → s'.Settled m) (fun _ _ => True) s := OCRWorker.process_spec at_m
    have spec := meets.stable (P := fun s' => s'.record = some record ∧ s'.message = some m)
      (fun s' op r allowed h => by
        obtain ⟨m', -, allowed⟩ := allowed
        have grows := workerCalls_grows allowed r
        exact ⟨grows.record.trans h.1, grows.message.trans h.2⟩) ⟨held, at_m⟩
    refine Prog.Meets.bind (Prog.Meets.mono (Prog.Meets.weaken (d := consumer) spec (fun _ _ => .inl)
      fun _ _ _ h => h) (fun _ _ h => h) fun _ _ _ => trivial) ?_
    rintro _ s' ⟨settled, kept, same⟩
    refine ⟨kept, fun m' at' one => ?_⟩
    cases Option.some.inj (same.symm.trans at')
    exact settled one

/-- What the loop knows after a poll. -/
def Fetched (s : Memory) : Option Record → Prop
  | none => s.record = none ∨ s.Done
  | some record => s.record = some record ∧ s.message = (decodeJobMessage record.value).toOption

/-- The loop of the worker commits the offset of what is done, and only that. -/
theorem runWorker_spec {settings : Settings} {turns polls : Nat} (idle : s.record = none ∨ s.Done) :
    (runWorker settings turns polls).Meets ghost consumer (fun _ _ => True) (fun _ _ => True) s := by
  induction polls generalizing s with
  | zero => trivial
  | succ polls ih =>
    refine (await_spec .stopRequested trivial fun _ => rfl).bind ?_
    rintro stop _ rfl
    split
    · trivial
    · refine Prog.Meets.bind (Q := fun found s' => Fetched s' found)
        ⟨.inr idle, fun r _ => ?_⟩ ?_
      · rcases r with e | _ | record
        · trivial
        · exact idle
        · exact ⟨rfl, rfl⟩
      rintro (_ | record) s' found
      · exact ih found
      · refine (processRecord_spec found.1 found.2).bind ?_
        rintro _ s'' ⟨held, done⟩
        refine (await_spec (.commit ..) ⟨record, held, rfl, rfl, done⟩ fun _ => rfl).bind ?_
        rintro _ _ rfl
        exact ih (.inr done)

end WorkerMain
end

/-- The memory a call starts with. -/
def Task.memory : Task → Memory
  | .process _ message => { message := some message }
  | _ => {}

/-- The contract of each kind of call with the job table. -/
def Task.contract : Task → Contract Sig Memory
  | .process .. => worker
  | .runWorker .. => consumer
  | .createJob .. | .getJob .. | .listJobs .. | .cancelJob .. | .retryJob .. | .createUpload ..
  | .completeUpload .. | .listArtifacts .. => service
  | .dispatchOnce .. => dispatcher
  | .runBatch .. => cleaner
  | .streamJobEvents .. => stream
  | .presignedPut .. => browser

/-- What a call knows when it returns. -/
def Task.Returned : Task → Reply → Memory → Prop
  | .process _ message, _, s => message.schemaVersion = 1 → s.Settled message
  | _, _, _ => True

theorem program_meets (settings : Settings) (task : Task) :
    (program settings task).Meets ghost task.contract task.Returned (fun _ _ => True) task.memory := by
  cases task with
  | process turns message =>
    exact Prog.Meets.bind (OCRWorker.process_spec rfl) fun _ _ settled => settled
  | runWorker turns polls =>
    exact Prog.Meets.bind (WorkerMain.runWorker_spec (.inl rfl)) fun _ _ _ => trivial
  | createJob => exact Prog.Meets.bind OCRApplicationService.createJob_spec fun _ _ _ => trivial
  | getJob => exact Prog.Meets.bind OCRApplicationService.getJob_spec fun _ _ _ => trivial
  | listJobs => exact Prog.Meets.bind OCRApplicationService.listJobs_spec fun _ _ _ => trivial
  | cancelJob => exact Prog.Meets.bind OCRApplicationService.cancelAttempts_spec fun _ _ _ => trivial
  | retryJob => exact Prog.Meets.bind OCRApplicationService.retryAttempts_spec fun _ _ _ => trivial
  | dispatchOnce => exact Prog.Meets.bind OutboxDispatcher.dispatchOnce_spec fun _ _ _ => trivial
  | runBatch => exact Prog.Meets.bind RetentionCleanupService.runBatch_spec fun _ _ _ => trivial
  | streamJobEvents => exact Prog.Meets.bind EventStream.streamJobEvents_spec fun _ _ _ => trivial
  | createUpload => exact Prog.Meets.bind OCRApplicationService.createUpload_spec fun _ _ _ => trivial
  | completeUpload => exact Prog.Meets.bind OCRApplicationService.completeUpload_spec fun _ _ _ => trivial
  | listArtifacts => exact Prog.Meets.bind OCRApplicationService.listArtifacts_spec fun _ _ _ => trivial
  | presignedPut =>
    refine ⟨trivial, fun r _ => ?_⟩
    cases r <;> trivial

end MonkeyOcr
