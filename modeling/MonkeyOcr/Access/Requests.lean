import MonkeyOcr.Access.Contract

namespace MonkeyOcr

open Calls

namespace Past

section

variable {past past' : Past} {completing : Bool} {ownerId id : Id} {job : Job} {upload : Upload}

theorem Has.mono (has : past.Has job) (kept : past ⊆ past') : past'.Has job := by
  cases has with
  | read done => exact .read (kept done)
  | added done => exact .added (kept done)
  | saved done same => exact .saved (kept done) same
  | retried done same => exact .retried (kept done) same

theorem Owns.mono (owns : past.Owns ownerId job) (kept : past ⊆ past') : past'.Owns ownerId job :=
  ⟨owns.has.mono kept, owns.owner⟩

theorem OwnsUpload.mono (owns : past.OwnsUpload ownerId upload) (kept : past ⊆ past') :
    past'.OwnsUpload ownerId upload :=
  ⟨kept owns.read, owns.owner⟩

theorem Checks.mono (checks : past.Checks ownerId upload) (kept : past ⊆ past') : past'.Checks ownerId upload :=
  ⟨checks.toOwnsUpload.mono kept, checks.state⟩

theorem Shows.mono {dto : JobDTO} (shown : past.Shows ownerId dto) (kept : past ⊆ past') :
    past'.Shows ownerId dto := by
  obtain ⟨job, filename, owns, same, named⟩ := shown
  refine ⟨job, filename, owns.mono kept, same, named.imp id ?_⟩
  intro ⟨upload, ownsUpload, rest⟩
  exact ⟨upload, ownsUpload.mono kept, rest⟩

/-- A request on behalf of the owner; nothing is promised of how it fails. -/
abbrev Requests {α : Type} (completing : Bool) (ownerId : Id) (p : Program α) (Q : α → Past → Prop) (past : Past) : Prop :=
  p.Meets ghost (access completing ownerId) Q (fun _ _ => True) past

variable {α β : Type} {p : Program α} {f : α → Program β} {Q : α → Past → Prop} {R : β → Past → Prop}

/-- The sequencing rule: what was known before is known after. -/
theorem Requests.andThen (first : Requests completing ownerId p Q past)
    (rest : ∀ a past', past ⊆ past' → Q a past' → Requests completing ownerId (f a) R past') :
    Requests completing ownerId (p >>= f) R past := by
  refine Prog.Meets.bind ((Trace.extends_past first).mono (fun _ _ done => done) fun _ _ _ => trivial) ?_
  intro a past' ⟨done, kept⟩
  exact rest a past' kept done

/-- The same for a program inside a `try`. -/
theorem Requests.andTry {f : Except Exc α → Program β} (first : Requests completing ownerId p Q past)
    (returns : ∀ a past', past ⊆ past' → Q a past' → Requests completing ownerId (f (.ok a)) R past')
    (raises : ∀ e past', past ⊆ past' → Requests completing ownerId (f (.error e)) R past') :
    Requests completing ownerId (p.attempt >>= f) R past := by
  have outcome : (p.attempt : Program (Except Exc α)).Meets ghost (access completing ownerId)
      (fun outcome past' => past ⊆ past' ∧ ∀ a, outcome = .ok a → Q a past') (fun _ _ => True) past := by
    refine Prog.meets_attempt.mpr ((Trace.extends_past first).mono ?_ ?_)
    · intro a past' ⟨done, kept⟩
      refine ⟨kept, fun b same => ?_⟩
      cases same
      exact done
    · intro e past' ⟨_, kept⟩
      exact ⟨kept, fun b same => by cases same⟩
  refine outcome.bind ?_
  intro outcome past' ⟨kept, done⟩
  cases outcome with
  | ok a => exact returns a past' kept (done a rfl)
  | error e => exact raises e past' kept

theorem requests_await (op : Op) (allowed : requests completing ownerId past op) :
    Requests completing ownerId (await op) (fun a past' => ⟨op, .ok a⟩ ∈ past' ∧ answers ownerId past op (.ok a)) past :=
  ⟨allowed, fun r reliable => by cases r with
    | ok a => exact ⟨List.mem_cons_self, reliable⟩
    | error e => trivial⟩

theorem requests_database (op : Op) (allowed : requests completing ownerId past op) :
    Requests completing ownerId (OCRApplicationService.database op)
      (fun a past' => ⟨op, .ok a⟩ ∈ past' ∧ answers ownerId past op (.ok a)) past :=
  Prog.meets_mapError.mpr (requests_await op allowed)

theorem requests_storage (op : Op) (allowed : requests completing ownerId past op) :
    Requests completing ownerId (OCRApplicationService.storage op)
      (fun a past' => ⟨op, .ok a⟩ ∈ past' ∧ answers ownerId past op (.ok a)) past :=
  Prog.meets_mapError.mpr (requests_await op allowed)

theorem requests_storageOrMissing {code : InternalStatusCode} {reason : String} (op : Op)
    (allowed : requests completing ownerId past op) :
    Requests completing ownerId (OCRApplicationService.storageOrMissing op code reason)
      (fun a past' => ⟨op, .ok a⟩ ∈ past' ∧ answers ownerId past op (.ok a)) past :=
  Prog.meets_mapError.mpr (requests_storage op allowed)

end

end Past

namespace OCRApplicationService

open Past

variable {past : Past} {completing : Bool} {ownerId jobId : Id} {job : Job} {upload : Upload} {requestId : String}
  {request : CreateJobRequest} {idempotencyKey : Option String}

theorem ownedUpload_requests {uploadId : Id} :
    Requests completing ownerId (ownedUpload uploadId ownerId)
      (fun upload past' => past'.OwnsUpload ownerId upload ∧ ∀ key, past.Unseen key → past'.Unseen key) past := by
  have read : Requests completing ownerId (database (.getUpload uploadId)) (fun found past' =>
      past' = ⟨.getUpload uploadId, .ok found⟩ :: past ∧ answers ownerId past (.getUpload uploadId) (.ok found)) past :=
    Prog.meets_mapError.mpr ⟨trivial, fun r reliable => by cases r with
      | ok found => exact ⟨rfl, reliable⟩
      | error e => trivial⟩
  refine read.bind ?_
  intro found past₁ ⟨extended, reliable⟩
  cases found with
  | none => trivial
  | some upload =>
    dsimp only
    split
    · trivial
    · rename_i own
      have same : upload.id = uploadId := reliable.1
      subst extended same
      refine ⟨⟨List.mem_cons_self, not_not.mp own⟩, fun key unseen => ⟨fun info member => ?_, fun data member => ?_⟩⟩
      · exact unseen.1 info ((List.mem_cons.mp member).resolve_left nofun)
      · exact unseen.2 data ((List.mem_cons.mp member).resolve_left nofun)

theorem ownedJob_requests {site : Site} :
    Requests completing ownerId (ownedJob site jobId ownerId)
      (fun job past' => past'.Owns ownerId job ∧ job.id = jobId) past := by
  refine (requests_database (.getJob site jobId) trivial).andThen ?_
  intro found past₁ _ ⟨read, reliable⟩
  cases found with
  | none => trivial
  | some job =>
    dsimp only
    split
    · trivial
    · rename_i own
      exact ⟨⟨.read read, not_not.mp own⟩, reliable.1⟩

/-- The upload that is joined to a job of the owner is the owner's. -/
theorem toJobDto_requests (owns : past.Owns ownerId job) :
    Requests completing ownerId (toJobDto job) (fun dto past' => past'.Shows ownerId dto) past := by
  refine (requests_database (.getUpload job.uploadId) trivial).andThen ?_
  intro found past₁ kept ⟨read, reliable⟩
  refine ⟨job, _, owns.mono kept, rfl, ?_⟩
  cases found with
  | none => exact .inl rfl
  | some upload =>
    obtain ⟨same, joined⟩ := reliable
    have own : upload.ownerId = ownerId := (joined job owns.has rfl).trans owns.owner
    exact .inr ⟨upload, ⟨same ▸ read, own⟩, same, rfl⟩

/-- A job found under a key of the owner is the owner's. -/
theorem findByIdempotencyKey_requests {key : String} :
    Requests completing ownerId (findByIdempotencyKey ownerId key)
      (fun existing past' => ∀ job, existing = some job → past'.Owns ownerId job) past := by
  refine (requests_database (.findIdByIdempotencyKey ownerId key) rfl).andThen ?_
  intro found past₁ _ ⟨listed, _⟩
  cases found with
  | none => exact fun job same => by cases same
  | some id =>
    refine (requests_database (.getJob .api id) trivial).mono ?_ fun _ _ _ => trivial
    intro existing past₂ ⟨read, reliable⟩ job same
    subst same
    exact ⟨.read read, reliable.2 (.key listed)⟩

theorem replayed_requests {existing : Job} (owns : past.Owns ownerId existing) :
    Requests completing ownerId (replayed existing upload request) (fun dto past' => past'.Shows ownerId dto) past := by
  unfold replayed
  split
  · trivial
  · exact toJobDto_requests owns

theorem insertJob_requests (owns : past.OwnsUpload ownerId upload) (completed : upload.state = .completed) :
    Requests completing ownerId (insertJob request upload ownerId requestId idempotencyKey)
      (fun dto past' => past'.Shows ownerId dto) past := by
  refine (requests_await .uuid7 trivial).andThen fun id past₁ kept₁ _ => ?_
  refine (requests_await .utcNow trivial).andThen fun created past₂ kept₂ _ => ?_
  refine (requests_await .uuid7 trivial).andThen fun outboxId past₃ kept₃ _ => ?_
  refine (requests_await .utcNow trivial).andThen fun now past₄ kept₄ _ => ?_
  have owns₄ : past₄.OwnsUpload ownerId upload := (((owns.mono kept₁).mono kept₂).mono kept₃).mono kept₄
  refine (requests_database (.addWithOutboxAndEvent _ _ _)
    ⟨rfl, ⟨upload, owns₄, completed, rfl⟩, rfl, rfl⟩).andTry ?_ ?_
  · intro saved past₅ _ ⟨added, _⟩
    exact toJobDto_requests ⟨.added added, rfl⟩
  · intro e past₅ _
    dsimp only
    split
    · rename_i returned
      cases returned
    · split
      · trivial
      · refine findByIdempotencyKey_requests.andThen ?_
        intro existing past₆ _ found
        cases existing with
        | none => trivial
        | some existing => exact replayed_requests (found existing rfl)
    · trivial

theorem createJob_requests :
    Requests completing ownerId (createJob request ownerId requestId idempotencyKey)
      (fun dto past' => past'.Shows ownerId dto) past := by
  refine ownedUpload_requests.andThen ?_
  intro upload past₁ _ ⟨owns, _⟩
  split
  · trivial
  · rename_i completed
    split
    · exact insertJob_requests owns (not_not.mp completed)
    · refine findByIdempotencyKey_requests.andThen ?_
      intro existing past₂ kept found
      cases existing with
      | none => exact insertJob_requests (owns.mono kept) (not_not.mp completed)
      | some existing => exact replayed_requests (found existing rfl)

theorem getJob_requests :
    Requests completing ownerId (getJob jobId ownerId) (fun dto past' => past'.Shows ownerId dto) past :=
  ownedJob_requests.andThen fun _ _ _ owns => toJobDto_requests owns.1

theorem getJobs_requests {ids : List Id} (listed : ∀ id ∈ ids, past.Listed ownerId id) :
    Requests completing ownerId (getJobs ids) (fun jobs past' => ∀ job ∈ jobs, past'.Owns ownerId job) past := by
  induction ids generalizing past with
  | nil => exact fun job member => by cases member
  | cons id rest ih =>
    refine (requests_database (.getJob .api id) trivial).andThen ?_
    intro found past₁ kept ⟨read, reliable⟩
    have later : ∀ id ∈ rest, past₁.Listed ownerId id := by
      intro other member
      cases listed other (List.mem_cons_of_mem _ member) with
      | page done there => exact .page (kept done) there
      | key done => exact .key (kept done)
    refine (ih later).andThen ?_
    intro jobs past₂ kept₂ owned job member
    rcases List.mem_append.mp member with here | there
    · cases found with
      | none => cases here
      | some first =>
        cases List.mem_singleton.mp here
        exact ⟨.read (kept₂ read), reliable.2 (listed id List.mem_cons_self)⟩
    · exact owned job there

theorem toJobDtos_requests {jobs : List Job} (owned : ∀ job ∈ jobs, past.Owns ownerId job) :
    Requests completing ownerId (toJobDtos jobs) (fun items past' => ∀ item ∈ items, past'.Shows ownerId item) past := by
  induction jobs generalizing past with
  | nil => exact fun item member => by cases member
  | cons job rest ih =>
    refine (toJobDto_requests (owned job List.mem_cons_self)).andThen ?_
    intro item past₁ kept shown
    refine (ih fun other member => (owned other (List.mem_cons_of_mem _ member)).mono kept).andThen ?_
    intro items past₂ kept₂ all other member
    rcases List.mem_cons.mp member with rfl | there
    · exact shown.mono kept₂
    · exact all other there

theorem listJobs_requests {page pageSize : Nat} :
    Requests completing ownerId (listJobs ownerId page pageSize)
      (fun dto past' => past'.Confines ownerId (.jobs dto)) past := by
  refine (requests_database (.listIds ownerId _ _) rfl).andThen ?_
  intro ids past₁ _ ⟨listed, _⟩
  refine (requests_database (.countJobs ownerId) rfl).andThen ?_
  intro total past₂ kept₂ ⟨counted, _⟩
  refine (getJobs_requests fun id member => .page (kept₂ listed) member).andThen ?_
  intro jobs past₃ kept₃ owned
  refine (toJobDtos_requests owned).andThen ?_
  intro items past₄ kept₄ shown
  exact ⟨shown, kept₄ (kept₃ counted)⟩

theorem cancelTransitions_same {now : Time} {job' : Job}
    (done : cancelTransitions { job with requestId } now = .ok job') :
    job'.id = job.id ∧ job'.birth = job.birth := by
  have edits := (cancelTransitions_edits none done).1
  exact ⟨edits.id, edits.birth⟩

theorem requestCancel_requests (owns : past.Owns ownerId job) :
    Requests completing ownerId (requestCancel job requestId) (fun job' past' => past'.Owns ownerId job') past := by
  refine (requests_await .utcNow trivial).andThen fun now past₁ kept₁ _ => ?_
  cases moved : cancelTransitions { job with requestId } now with
  | error e => trivial
  | ok job' =>
    obtain ⟨same, birth⟩ := cancelTransitions_same moved
    change Requests completing ownerId (do
      let now ← await .utcNow
      let eventType := if job'.state = .cancelled then EventType.jobCancelled else .jobCancelRequested
      let saved ← database (.saveWithEvent job' (jobEvent job' eventType now))
      return { job' with revision := saved.1 }) _ past₁
    refine (requests_await .utcNow trivial).andThen fun later past₂ kept₂ _ => ?_
    refine (requests_database (.saveWithEvent job' _) ?_).andThen ?_
    · exact ⟨⟨job, (owns.mono kept₁).mono kept₂, same, birth⟩, rfl⟩
    · intro saved past₃ _ ⟨done, _⟩
      have own : job'.ownerId = ownerId := (congrArg Birth.ownerId birth).trans owns.owner
      exact ⟨.saved done rfl, own⟩

theorem cancelAttempts_requests {left : Nat} :
    Requests completing ownerId (cancelAttempts jobId ownerId requestId left) (fun dto past' => past'.Shows ownerId dto) past := by
  induction left generalizing past with
  | zero => trivial
  | succ left ih =>
    refine ownedJob_requests.andThen ?_
    intro job past₁ _ ⟨owns, _⟩
    split
    · trivial
    · split
      · exact toJobDto_requests owns
      · refine (requestCancel_requests owns).andTry ?_ ?_
        · intro job' past₂ _ owns'
          exact toJobDto_requests owns'
        · intro e past₂ _
          split
          · rename_i returned
            cases returned
          · split
            · trivial
            · exact ih
          · trivial
          · trivial

theorem saveRetry_requests {job' : Job} {now : Time} (owns : past.Owns ownerId job)
    (done : job.retry requestId now = .ok job') :
    Requests completing ownerId (saveRetry job' requestId) (fun saved past' => past'.Owns ownerId saved) past := by
  have edits : job.Edits none .jobRetrying job' := (Job.retry_edits done).1
  refine (requests_await .uuid7 trivial).andThen fun outboxId past₁ kept₁ _ => ?_
  refine (requests_await .utcNow trivial).andThen fun created past₂ kept₂ _ => ?_
  refine (requests_database (.saveWithOutboxAndEvent job' _ _) ?_).andThen ?_
  · exact ⟨⟨job, (owns.mono kept₁).mono kept₂, edits.id, edits.birth⟩, rfl, rfl⟩
  · intro saved past₃ _ ⟨stored, _⟩
    have own : job'.ownerId = ownerId := (congrArg Birth.ownerId edits.birth).trans owns.owner
    exact ⟨.retried stored rfl, own⟩

theorem retryAttempts_requests {attempted left : Nat} :
    Requests completing ownerId (retryAttempts jobId ownerId requestId attempted left)
      (fun dto past' => past'.Shows ownerId dto) past := by
  induction left generalizing past attempted with
  | zero => trivial
  | succ left ih =>
    refine ownedJob_requests.andThen ?_
    intro job past₁ _ ⟨owns, _⟩
    refine (requests_await .utcNow trivial).andThen fun now past₂ kept₂ _ => ?_
    cases done : job.retry requestId now with
    | error e =>
      dsimp only
      split
      · exact toJobDto_requests (owns.mono kept₂)
      · trivial
    | ok job' =>
      refine (saveRetry_requests (owns.mono kept₂) done).andTry ?_ ?_
      · intro saved past₃ _ owns'
        exact toJobDto_requests owns'
      · intro e past₃ _
        split
        · rename_i returned
          cases returned
        · split
          · trivial
          · exact ih
        · trivial

theorem createUpload_requests {maxUploadBytes : Nat} {request : CreateUploadRequest} :
    Requests completing ownerId (createUpload maxUploadBytes request ownerId)
      (fun dto past' => past'.ShowsUpload ownerId dto) past := by
  unfold createUpload
  split
  · trivial
  · split
    · trivial
    · refine (requests_await .uuid7 trivial).andThen fun id past₁ kept₁ _ => ?_
      refine (requests_await .utcNow trivial).andThen fun now past₂ kept₂ _ => ?_
      refine (requests_storage (.createUploadTarget ..) trivial).andThen ?_
      intro target past₃ _ ⟨made, _⟩
      refine (requests_database (.addUpload _) rfl).andThen ?_
      intro _ past₄ kept₄ ⟨added, _⟩
      exact ⟨_, target, _, _, _, added, rfl, kept₄ made, rfl⟩

theorem rejectUpload_requests {reason : String} (checks : past.Checks ownerId upload) (refutes : past.Refutes upload)
    {Q : CompleteUploadDTO → Past → Prop} : Requests true ownerId (rejectUpload upload reason) Q past :=
  (requests_database (.saveUpload _) ⟨rfl, upload, checks, .inl ⟨rfl, refutes⟩⟩).andThen fun _ _ _ _ => trivial

/-- An upload is completed after its object was seen to be the document. -/
theorem verifyUpload_requests {data : Content} (checks : past.Checks ownerId upload)
    (info : ∃ info, ⟨.stat upload.objectKey, .ok (some info)⟩ ∈ past ∧ mismatches upload info = false)
    (read : ⟨.getBytes upload.objectKey, .ok data⟩ ∈ past) :
    Requests true ownerId (verifyUpload upload data) (fun dto past' => past'.ShowsCompletion ownerId dto) past := by
  unfold verifyUpload
  split
  · rename_i other
    exact rejectUpload_requests checks (.inr ⟨data, read, other⟩)
  · rename_i same
    cases MagicBytesFileValidator.validate upload data.bytes with
    | error e => trivial
    | ok detected =>
      refine (requests_await .utcNow trivial).andThen fun now past₁ kept₁ _ => ?_
      cases done : upload.complete detected now with
      | error e => trivial
      | ok upload' =>
        have verifies : past₁.Verifies upload := by
          obtain ⟨seen, member, fits⟩ := info
          exact ⟨⟨seen, kept₁ member, fits⟩, data, kept₁ read, not_not.mp same⟩
        refine (requests_database (.saveUpload upload')
          ⟨rfl, upload, checks.mono kept₁, .inr ⟨detected, now, done, verifies⟩⟩).andThen ?_
        intro _ past₂ kept₂ ⟨saved, _⟩
        have effect : upload' = { upload with
            state := .completed, detectedContentType := some detected, completedAt := some now } := by
          unfold Upload.complete at done
          rw [checks.state] at done
          exact (Except.ok.inj done).symm
        subst effect
        refine ⟨upload, (checks.toOwnsUpload.mono kept₁).mono kept₂, rfl, .inr ⟨_, saved, rfl, rfl, rfl⟩⟩

/-- A check, by a call that has only read its upload so far. -/
theorem checkUpload_requests {parts : List (Nat × String)} (checks : past.Checks ownerId upload)
    (unseen : past.Unseen upload.objectKey) :
    Requests true ownerId (checkUpload upload parts) (fun dto past' => past'.ShowsCompletion ownerId dto) past := by
  refine (requests_storage (.completeUpload ..) ⟨rfl, ⟨upload, checks, rfl⟩, unseen⟩).andThen fun _ past₁ kept₁ _ => ?_
  refine (requests_storage (.stat _) ⟨rfl, upload, checks.mono kept₁, rfl⟩).andThen ?_
  intro info past₂ kept₂ ⟨seen, _⟩
  have checks₂ := (checks.mono kept₁).mono kept₂
  cases info with
  | none => trivial
  | some info =>
    dsimp only
    split
    · rename_i other
      exact rejectUpload_requests checks₂ (.inl ⟨info, seen, other⟩)
    · rename_i fits
      refine (requests_storageOrMissing (.getBytes _) ⟨rfl, upload, checks₂, rfl⟩).andThen ?_
      intro data past₃ kept₃ ⟨read, _⟩
      exact verifyUpload_requests (checks₂.mono kept₃) ⟨info, kept₃ seen, by simpa using fits⟩ read

theorem completeUpload_requests {uploadId : Id} {sha256 multipart : Option String} {parts : List (Nat × String)} :
    Requests true ownerId (completeUpload uploadId ownerId sha256 multipart parts)
      (fun dto past' => past'.ShowsCompletion ownerId dto) [] := by
  refine ownedUpload_requests.andThen ?_
  intro upload past₁ _ ⟨owns, unseen⟩
  split
  · trivial
  · split
    · trivial
    · split
      · exact ⟨upload, owns, rfl, .inl ⟨rfl, rfl⟩⟩
      · trivial
      · rename_i state
        exact checkUpload_requests ⟨owns, state⟩ (unseen _ ⟨nofun, nofun⟩)

theorem artifactItems_requests {artifacts : List Artifact} (owns : past.Owns ownerId job)
    (own : ∀ artifact ∈ artifacts, artifact ∈ job.artifacts) :
    Requests completing ownerId (artifactItems artifacts) (fun items past' => List.Forall₂ (fun artifact item => ∃ url,
      ⟨.createDownloadUrl artifact.objectKey, .ok url⟩ ∈ past' ∧ item = ArtifactDTO.fromDomain artifact url)
        artifacts items) past := by
  induction artifacts generalizing past with
  | nil => exact .nil
  | cons artifact rest ih =>
    refine (requests_storageOrMissing (.createDownloadUrl _)
      ⟨job, owns, artifact, own artifact List.mem_cons_self, rfl⟩).andThen ?_
    intro url past₁ kept₁ ⟨made, _⟩
    refine (ih (owns.mono kept₁) fun other member => own other (List.mem_cons_of_mem _ member)).andThen ?_
    intro items past₂ kept₂ shown
    exact .cons ⟨url, kept₂ made, rfl⟩ shown

theorem listArtifacts_requests :
    Requests completing ownerId (listArtifacts jobId ownerId) (fun dto past' => past'.ShowsArtifacts ownerId dto) past := by
  refine ownedJob_requests.andThen ?_
  intro job past₁ _ ⟨owns, _⟩
  split
  · trivial
  · refine (artifactItems_requests owns fun _ member => member).andThen ?_
    intro items past₂ kept₂ shown
    exact ⟨job, owns.mono kept₂, shown⟩

end OCRApplicationService

namespace EventStream

open Past

variable {past : Past} {completing : Bool} {ownerId jobId : Id} {settings : Settings} {sequence turns : Nat}

/-- The events are of a job of the owner, as the call has listed them. -/
abbrev Lists (jobId : Id) (events : List JobEvent) (past : Past) : Prop :=
  ∀ event ∈ events, ∃ sequence listed, ⟨.listAfter jobId sequence, .ok listed⟩ ∈ past ∧ event ∈ listed

theorem listAfter_requests (owned : ∃ job, past.Owns ownerId job ∧ job.id = jobId) :
    Requests completing ownerId (await (.listAfter jobId sequence)) (fun events past' => Lists jobId events past') past := by
  refine (requests_await (.listAfter jobId sequence) owned).mono ?_ fun _ _ _ => trivial
  intro events past' ⟨listed, _⟩ event member
  exact ⟨sequence, events, listed, member⟩

theorem waitUntil_requests {deadline : Time} (owned : ∃ job, past.Owns ownerId job ∧ job.id = jobId) :
    Requests completing ownerId (waitUntil jobId sequence deadline turns) (fun events past' => Lists jobId events past') past := by
  induction turns generalizing past with
  | zero => trivial
  | succ turns ih =>
    have later : ∀ {past' : Past}, past ⊆ past' → ∃ job, past'.Owns ownerId job ∧ job.id = jobId := by
      obtain ⟨job, owns, same⟩ := owned
      exact fun kept => ⟨job, owns.mono kept, same⟩
    refine (requests_await .loopTime trivial).andThen fun now past₁ kept₁ _ => ?_
    split
    · refine (listAfter_requests (later kept₁)).andThen fun events past₂ kept₂ listed => ?_
      split
      · refine (requests_await .loopTime trivial).andThen fun _ past₃ kept₃ _ => ?_
        refine (requests_await (.sleep _) trivial).andThen fun _ past₄ kept₄ _ => ?_
        exact ih (later fun entry member => kept₄ (kept₃ (kept₂ (kept₁ member))))
      · exact listed
    · exact fun event member => by cases member

theorem pendingEvents_requests (owned : ∃ job, past.Owns ownerId job ∧ job.id = jobId) :
    Requests completing ownerId (pendingEvents settings jobId sequence turns)
      (fun events past' => Lists jobId events past') past := by
  refine (listAfter_requests owned).andThen fun listed past₁ kept₁ lists => ?_
  obtain ⟨job, owns, same⟩ := owned
  split
  · refine (requests_await .loopTime trivial).andThen fun start past₂ kept₂ _ => ?_
    exact waitUntil_requests ⟨job, (owns.mono kept₁).mono kept₂, same⟩
  · exact lists

theorem yieldEach_requests {events : List JobEvent} (owned : ∃ job, past.Owns ownerId job ∧ job.id = jobId)
    (lists : Lists jobId events past) : Requests completing ownerId (yieldEach events sequence) (fun _ _ => True) past := by
  induction events generalizing past sequence with
  | nil => trivial
  | cons event rest ih =>
    obtain ⟨job, owns, rfl⟩ := owned
    obtain ⟨after, listed, done, member⟩ := lists event List.mem_cons_self
    refine (requests_await (.yieldEvent event) ⟨job, after, listed, owns, done, member⟩).andThen ?_
    intro _ past₁ kept _
    refine ih ⟨job, owns.mono kept, rfl⟩ fun other there => ?_
    obtain ⟨after, listed, done, member⟩ := lists other (List.mem_cons_of_mem _ there)
    exact ⟨after, listed, kept done, member⟩

theorem generate_requests (owned : ∃ job, past.Owns ownerId job ∧ job.id = jobId) :
    Requests completing ownerId (generate settings jobId ownerId turns sequence) (fun _ _ => True) past := by
  induction turns generalizing past sequence with
  | zero => trivial
  | succ turns ih =>
    obtain ⟨job, owns, same⟩ := owned
    refine (pendingEvents_requests ⟨job, owns, same⟩).andThen fun pending past₁ kept₁ lists => ?_
    split
    · refine (requests_await .isDisconnected trivial).andThen fun disconnected past₂ _ _ => ?_
      split
      · trivial
      · refine OCRApplicationService.ownedJob_requests.andThen fun latest past₃ _ found => ?_
        split
        · trivial
        · refine (requests_await .yieldHeartbeat trivial).andThen fun _ past₄ kept₄ _ => ?_
          exact ih ⟨latest, found.1.mono kept₄, found.2⟩
    · refine (yieldEach_requests ⟨job, owns.mono kept₁, same⟩ lists).andThen fun _ past₂ _ _ => ?_
      refine OCRApplicationService.ownedJob_requests.andThen fun latest past₃ _ found => ?_
      split
      · trivial
      · exact ih ⟨latest, found⟩

theorem streamJobEvents_requests {lastEventId : Option String} :
    Requests completing ownerId (streamJobEvents settings turns jobId ownerId lastEventId) (fun _ _ => True) past := by
  refine OCRApplicationService.ownedJob_requests.andThen fun job past₁ _ owns => ?_
  cases parseLastEventId lastEventId with
  | ok sequence => exact generate_requests ⟨job, owns⟩
  | error e => trivial

end EventStream

/-- The contract of a call with the owner on whose behalf it is made. -/
def Task.access (task : Task) : Contract Sig Past :=
  match task.owner? with
  | some ownerId => Past.access task.completes ownerId
  | none => ⟨fun _ _ => True, fun _ _ _ => True⟩

/-- A request replies with what is its owner's. -/
def Task.Confined (task : Task) (reply : Reply) (past : Past) : Prop :=
  ∀ ownerId, task.owner? = some ownerId → past.Confines ownerId reply

/-- Every program keeps to the owner it works for. -/
theorem program_access (settings : Settings) (task : Task) :
    (program settings task).Meets Past.ghost task.access task.Confined (fun _ _ => True) [] := by
  have reply : ∀ {α : Type} {completing : Bool} {ownerId : Id} {p : Program α} (f : α → Reply) {Q : α → Past → Prop},
      Past.Requests completing ownerId p Q [] → (∀ a (past : Past), Q a past → past.Confines ownerId (f a)) →
      (p >>= fun a => pure (f a)).Meets Past.ghost (Past.access completing ownerId)
        (fun reply past => ∀ other, some ownerId = some other → Past.Confines past other reply)
        (fun _ _ => True) [] := by
    intro α completing ownerId p f Q meets shown
    refine Prog.Meets.bind meets fun a past done other same => ?_
    cases same
    exact shown a past done
  cases task with
  | createJob => exact reply .job OCRApplicationService.createJob_requests fun _ _ shown => shown
  | getJob => exact reply .job OCRApplicationService.getJob_requests fun _ _ shown => shown
  | listJobs => exact reply .jobs OCRApplicationService.listJobs_requests fun _ _ shown => shown
  | cancelJob => exact reply .job OCRApplicationService.cancelAttempts_requests fun _ _ shown => shown
  | retryJob => exact reply .job OCRApplicationService.retryAttempts_requests fun _ _ shown => shown
  | createUpload => exact reply .upload OCRApplicationService.createUpload_requests fun _ _ shown => shown
  | completeUpload => exact reply .completed OCRApplicationService.completeUpload_requests fun _ _ shown => shown
  | listArtifacts => exact reply .artifacts OCRApplicationService.listArtifacts_requests fun _ _ shown => shown
  | streamJobEvents => exact reply (fun _ => .ended) EventStream.streamJobEvents_requests fun _ _ _ => trivial
  | _ => exact (Prog.meets_free fun _ _ => trivial).mono (fun _ _ _ _ none => by cases none) fun _ _ _ => trivial

end MonkeyOcr
