import Mathlib
import MonkeyOcr.Calls.Ends
import MonkeyOcr.Lifecycle.Invariant
import MonkeyOcr.Pages.Parts

namespace MonkeyOcr

open Calls

/-- A job that is inserted has neither ended nor failed. -/
def Op.blank : Op → Prop
  | .addWithOutboxAndEvent job _ _ => job.completedAt = none ∧ job.internalCode = 0
  | _ => True

namespace OCRApplicationService

variable {jobId ownerId uploadId : Id} {requestId : String} {job : Job} {upload : Upload}

theorem database_blank (op : Op) (blank : op.blank) : (database op).Makes Op.blank :=
  (OCRWorker.await_makes op blank).mapError

theorem storage_blank (op : Op) (blank : op.blank) : (storage op).Makes Op.blank :=
  (OCRWorker.await_makes op blank).mapError

theorem ofExcept_blank {α : Type} (result : Except Exc α) : (Prog.ofExcept result : Program α).Makes Op.blank := by
  cases result <;> trivial

theorem toJobDto_blank : (toJobDto job).Makes Op.blank :=
  (database_blank (.getUpload _) trivial).bind fun _ => trivial

theorem ownedUpload_blank : (ownedUpload uploadId ownerId).Makes Op.blank := by
  refine (database_blank (.getUpload uploadId) trivial).bind ?_
  intro found
  cases found with
  | none => trivial
  | some upload =>
    dsimp only
    split <;> trivial

theorem ownedJob_blank : (ownedJob .api jobId ownerId).Makes Op.blank := by
  refine (database_blank (.getJob .api jobId) trivial).bind ?_
  intro found
  cases found with
  | none => trivial
  | some job =>
    dsimp only
    split <;> trivial

theorem findByIdempotencyKey_blank {key : String} : (findByIdempotencyKey ownerId key).Makes Op.blank := by
  refine (database_blank (.findIdByIdempotencyKey ownerId key) trivial).bind ?_
  intro found
  cases found with
  | none => trivial
  | some id => exact database_blank (.getJob .api id) trivial

theorem replayed_blank {request : CreateJobRequest} : (replayed job upload request).Makes Op.blank := by
  unfold replayed
  split
  · trivial
  · exact toJobDto_blank

theorem insertJob_blank {request : CreateJobRequest} {idempotencyKey : Option String} :
    (insertJob request upload ownerId requestId idempotencyKey).Makes Op.blank := by
  refine (OCRWorker.await_makes .uuid7 trivial).bind fun id => ?_
  refine (OCRWorker.await_makes .utcNow trivial).bind fun created => ?_
  refine (OCRWorker.await_makes .uuid7 trivial).bind fun outboxId => ?_
  refine (OCRWorker.await_makes .utcNow trivial).bind fun now => ?_
  refine (database_blank (.addWithOutboxAndEvent ..) ⟨rfl, rfl⟩).attempt.bind ?_
  intro outcome
  cases outcome with
  | ok saved => exact toJobDto_blank
  | error e =>
    cases e with
    | duplicateIdempotencyKey =>
      dsimp only
      split
      · trivial
      · refine findByIdempotencyKey_blank.bind ?_
        intro existing
        cases existing with
        | none => trivial
        | some existing => exact replayed_blank
    | _ => trivial

theorem createJob_blank {request : CreateJobRequest} {idempotencyKey : Option String} :
    (createJob request ownerId requestId idempotencyKey).Makes Op.blank := by
  refine ownedUpload_blank.bind fun upload => ?_
  split
  · trivial
  · split
    · exact insertJob_blank
    · refine findByIdempotencyKey_blank.bind ?_
      intro existing
      cases existing with
      | none => exact insertJob_blank
      | some existing => exact replayed_blank

theorem getJobs_blank {ids : List Id} : (getJobs ids).Makes Op.blank := by
  induction ids with
  | nil => trivial
  | cons id rest ih => exact (database_blank (.getJob .api id) trivial).bind fun _ => ih.bind fun _ => trivial

theorem toJobDtos_blank {jobs : List Job} : (toJobDtos jobs).Makes Op.blank := by
  induction jobs with
  | nil => trivial
  | cons job rest ih => exact toJobDto_blank.bind fun _ => ih.bind fun _ => trivial

theorem requestCancel_blank : (requestCancel job requestId).Makes Op.blank := by
  refine (OCRWorker.await_makes .utcNow trivial).bind fun now => (ofExcept_blank _).bind fun job => ?_
  refine (OCRWorker.await_makes .utcNow trivial).bind fun later => ?_
  exact (database_blank (.saveWithEvent ..) trivial).bind fun _ => trivial

theorem cancelAttempts_blank {left : Nat} : (cancelAttempts jobId ownerId requestId left).Makes Op.blank := by
  induction left with
  | zero => trivial
  | succ left ih =>
    refine ownedJob_blank.bind fun job => ?_
    split
    · trivial
    · split
      · exact toJobDto_blank
      · refine requestCancel_blank.attempt.bind fun outcome => ?_
        split
        · exact toJobDto_blank
        · split
          · trivial
          · exact ih
        · trivial
        · trivial

theorem retryAttempts_blank {attempted left : Nat} :
    (retryAttempts jobId ownerId requestId attempted left).Makes Op.blank := by
  induction left generalizing attempted with
  | zero => trivial
  | succ left ih =>
    refine ownedJob_blank.bind fun job => ?_
    refine (OCRWorker.await_makes .utcNow trivial).bind fun now => ?_
    cases job.retry requestId now with
    | error e =>
      dsimp only
      split
      · exact toJobDto_blank
      · trivial
    | ok job' =>
      have saves : (saveRetry job' requestId).Makes Op.blank :=
        (OCRWorker.await_makes .uuid7 trivial).bind fun _ => (OCRWorker.await_makes .utcNow trivial).bind fun _ =>
          (database_blank (.saveWithOutboxAndEvent ..) trivial).bind fun _ => trivial
      refine saves.attempt.bind fun outcome => ?_
      split
      · exact toJobDto_blank
      · split
        · trivial
        · exact ih
      · trivial

theorem createUpload_blank {maxUploadBytes : Nat} {request : CreateUploadRequest} :
    (createUpload maxUploadBytes request ownerId).Makes Op.blank := by
  unfold createUpload
  split
  · trivial
  · split
    · trivial
    · refine (OCRWorker.await_makes .uuid7 trivial).bind fun id => ?_
      refine (OCRWorker.await_makes .utcNow trivial).bind fun now => ?_
      refine (storage_blank (.createUploadTarget ..) trivial).bind fun target => ?_
      exact (database_blank (.addUpload _) trivial).bind fun _ => trivial

theorem rejectUpload_blank {reason : String} : (rejectUpload upload reason).Makes Op.blank :=
  (database_blank (.saveUpload _) trivial).bind fun _ => trivial

theorem verifyUpload_blank {data : Content} : (verifyUpload upload data).Makes Op.blank := by
  unfold verifyUpload
  split
  · exact rejectUpload_blank
  · refine (ofExcept_blank _).bind fun detected => (OCRWorker.await_makes .utcNow trivial).bind fun now => ?_
    exact (ofExcept_blank _).bind fun upload => (database_blank (.saveUpload _) trivial).bind fun _ => trivial

theorem checkUpload_blank {parts : List (Nat × String)} : (checkUpload upload parts).Makes Op.blank := by
  refine (storage_blank (.completeUpload ..) trivial).bind fun _ => ?_
  refine (storage_blank (.stat _) trivial).bind fun info => ?_
  cases info with
  | none => trivial
  | some info =>
    dsimp only
    split
    · exact rejectUpload_blank
    · exact (storage_blank (.getBytes _) trivial).mapError.bind fun _ => verifyUpload_blank

theorem completeUpload_blank {sha256 multipart : Option String} {parts : List (Nat × String)} :
    (completeUpload uploadId ownerId sha256 multipart parts).Makes Op.blank := by
  refine ownedUpload_blank.bind fun upload => ?_
  split
  · trivial
  · split
    · trivial
    · split
      · trivial
      · trivial
      · exact checkUpload_blank

theorem artifactItems_blank {artifacts : List Artifact} : (artifactItems artifacts).Makes Op.blank := by
  induction artifacts with
  | nil => trivial
  | cons artifact rest ih =>
    exact (storage_blank (.createDownloadUrl _) trivial).mapError.bind fun _ => ih.bind fun _ => trivial

theorem listArtifacts_blank : (listArtifacts jobId ownerId).Makes Op.blank := by
  refine ownedJob_blank.bind fun job => ?_
  split
  · trivial
  · exact artifactItems_blank.bind fun _ => trivial

end OCRApplicationService

/-- Calls that insert jobs as they begin. -/
def insertions : Contract Sig Unit := ⟨fun _ op => op.blank, fun _ op r => Memory.answer op r⟩

/-- Remembers nothing. -/
def insertionGhost : Ghost Sig Unit := ⟨fun _ _ _ => ()⟩

theorem Task.contract_answer {task : Task} {m : Memory} {op : Op} {r : Except Exc op.Val} (reliable : Memory.answer op r) :
    task.contract.answer m op r := by
  cases task <;> exact reliable

theorem Memory.workerCalls_blank {m : Memory} {op : Op}
    (allowed : ∃ message, m.message = some message ∧ m.workerCalls message op) : op.blank := by
  obtain ⟨message, -, calls⟩ := allowed
  cases op <;> trivial

theorem program_blank (settings : Settings) (task : Task) :
    (program settings task).Meets insertionGhost insertions (fun _ _ => True) (fun _ _ => True) () := by
  have apart : (∀ m op, task.contract.allow m op → op.blank) →
      (program settings task).Meets insertionGhost insertions (fun _ _ => True) (fun _ _ => True) () := by
    intro blank
    exact (program_meets settings task).frame (fun m _ op allowed => blank m op allowed)
      fun _ _ _ _ reliable => Task.contract_answer reliable
  have makes : (program settings task).Makes Op.blank →
      (program settings task).Meets insertionGhost insertions (fun _ _ => True) (fun _ _ => True) () :=
    fun makes => makes.meets fun _ _ blank => blank
  cases task with
  | createJob => exact makes (OCRApplicationService.createJob_blank.bind fun _ => trivial)
  | getJob =>
    exact makes ((OCRApplicationService.ownedJob_blank.bind fun _ =>
      OCRApplicationService.toJobDto_blank).bind fun _ => trivial)
  | listJobs =>
    refine makes (Prog.Makes.bind ?_ fun _ => trivial)
    refine (OCRApplicationService.database_blank (.listIds ..) trivial).bind fun _ => ?_
    refine (OCRApplicationService.database_blank (.countJobs _) trivial).bind fun _ => ?_
    exact OCRApplicationService.getJobs_blank.bind fun _ =>
      OCRApplicationService.toJobDtos_blank.bind fun _ => trivial
  | cancelJob => exact makes (OCRApplicationService.cancelAttempts_blank.bind fun _ => trivial)
  | retryJob => exact makes (OCRApplicationService.retryAttempts_blank.bind fun _ => trivial)
  | createUpload => exact makes (OCRApplicationService.createUpload_blank.bind fun _ => trivial)
  | completeUpload => exact makes (OCRApplicationService.completeUpload_blank.bind fun _ => trivial)
  | listArtifacts => exact makes (OCRApplicationService.listArtifacts_blank.bind fun _ => trivial)
  | process => exact apart fun m op allowed => Memory.workerCalls_blank allowed
  | runWorker =>
    refine apart fun m op allowed => ?_
    rcases allowed with own | around
    · exact Memory.workerCalls_blank own
    · cases op <;> trivial
  | dispatchOnce => exact apart fun m op allowed => by cases op <;> trivial
  | runBatch => exact apart fun m op allowed => by cases op <;> trivial
  | streamJobEvents => exact apart fun m op allowed => by cases op <;> trivial
  | presignedPut => exact apart fun m op allowed => by cases op <;> trivial

/-- In every run jobs are inserted as they begin. -/
theorem Initial.blank {settings : Settings} {ok : State → Step → Prop} {first s : State} (initial : Initial first)
    (run : (system settings).Run ok first s) : ∀ call ∈ s.calls, ∀ op next, call.prog = .call op next → op.blank := by
  have tracks : ∀ call ∈ s.calls, Tracks insertionGhost (fun _ : Task => ()) (fun _ => insertions)
      (fun _ _ _ => True) (fun _ _ _ => True) call := by
    induction run with
    | start =>
      intro call member
      rw [initial.calls] at member
      cases member
    | next _ _ step ih =>
      exact tracks_step (program_blank settings) (fun _ _ _ _ _ _ executed _ _ => exec_answer executed) ih step
  intro call member op next prog
  have own := tracks call member
  rw [Tracks, prog, Prog.meets_call] at own
  exact own.1

end MonkeyOcr
