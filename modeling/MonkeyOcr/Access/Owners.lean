import MonkeyOcr.Access.Requests
import MonkeyOcr.Cleanup.Claims

namespace MonkeyOcr

open Calls

/-- What stays of an upload from its session to its deletion. -/
def Upload.session (upload : Upload) : Upload :=
  { upload with state := .uploading, detectedContentType := none, completedAt := none }

/-- The upload, if it is still there, is the session of `upload`. -/
structure UploadIs (s : State) (upload : Upload) : Prop where
  born : ¬ Unborn s upload.id
  row : ∀ row, s.world.uploads upload.id = some row → row.upload.session = upload.session

/-- The upload, if it is still there, has this owner. -/
structure UploadOf (s : State) (id ownerId : Id) : Prop where
  born : ¬ Unborn s id
  row : ∀ row, s.world.uploads id = some row → row.upload.ownerId = ownerId

/-- The job, if it is still there, has this owner. -/
structure JobOf (s : State) (id ownerId : Id) : Prop where
  born : ¬ Unborn s id
  row : ∀ row, s.world.jobs id = some row → row.apiKeyId = ownerId

/-- The job, if it is still there, was created as `job`, for an upload of its
owner. -/
structure JobIs (s : State) (job : Job) : Prop where
  born : ¬ Unborn s job.id
  row : ∀ row, s.world.jobs job.id = some row → row.birth = job.birth
  upload : UploadOf s job.uploadId job.ownerId

/-- What was done of which the state still bears the marks. -/
def Holds (s : State) : (op : Op) → Except Exc op.Val → Prop
  | .getUpload id, .ok (some upload) => upload.id = id ∧ upload.objectKey = .source id ∧ UploadIs s upload
  | .getJob _ id, .ok (some job) => job.id = id ∧ JobIs s job
  | .addWithOutboxAndEvent job _ _, .ok _ | .saveWithEvent job _, .ok _ | .saveWithOutboxAndEvent job _ _, .ok _ =>
    JobIs s job
  | .listIds ownerId _ _, .ok ids => ∀ id ∈ ids, JobOf s id ownerId
  | .findIdByIdempotencyKey ownerId _, .ok (some id) => JobOf s id ownerId
  | _, _ => True

@[simp] theorem Call.ghost_past (call : SystemCall) : call.ghost Past.ghost (fun _ => []) = call.past :=
  Call.ghost_trace call

/-- The call keeps to its owner from here on. -/
abbrev Accessing (call : SystemCall) : Prop :=
  Tracks Past.ghost (fun _ => []) Task.access Task.Confined (fun _ _ _ => True) call

/-- Every job is of the owner of its upload, and all that calls have seen is of
whom it was. -/
structure Owners (s : State) : Prop where
  uploads : ∀ id row, s.world.uploads id = some row → row.upload.id = id ∧ row.upload.objectKey = .source id
  jobs : ∀ id row, s.world.jobs id = some row → UploadOf s row.uploadId row.apiKeyId
  past : ∀ call ∈ s.calls, ∀ entry ∈ call.past, Holds s entry.1 entry.2
  births : Births s
  accessing : ∀ call ∈ s.calls, Accessing call
  told : ∀ call ∈ s.calls, ∀ ownerId, call.task.owner? = some ownerId → ∀ event sent,
    ⟨.yieldEvent event, sent⟩ ∈ call.past → Past.Tells call.past ownerId event

section

variable {settings : Settings} {first s s' : State} {action : Step} {call : SystemCall} {op : Op} {id ownerId : Id}
  {job : Job} {upload : Upload} {row : JobRow} {i : Nat} {choice : Choice} {r : Except Exc op.Val} {w : World}
  {past : Past}

theorem Moves.session (moves : Moves settings s action s') {row' : UploadRow} (born : ¬ Unborn s id)
    (stored : s'.world.uploads id = some row') :
    ∃ row, s.world.uploads id = some row ∧ row'.upload.session = row.upload.session := by
  rcases moves.upload stored with ⟨unborn, -⟩ | ⟨row, found, ⟨state, detected, completed, same⟩, -⟩
  · exact absurd unborn born
  · refine ⟨row, found, ?_⟩
    rw [same]
    rfl

theorem Upload.owner_of_session {upload' : Upload} (same : upload'.session = upload.session) :
    upload'.ownerId = upload.ownerId := (congrArg ownerId same : upload'.session.ownerId = upload.session.ownerId)

theorem UploadIs.of (uploadIs : UploadIs s upload) : UploadOf s upload.id upload.ownerId :=
  ⟨uploadIs.born, fun row stored => Upload.owner_of_session (uploadIs.row row stored)⟩

theorem JobIs.of (jobIs : JobIs s job) : JobOf s job.id job.ownerId :=
  ⟨jobIs.born, fun row stored => congrArg Birth.ownerId (jobIs.row row stored)⟩

theorem UploadIs.moves (moves : Moves settings s action s') (uploadIs : UploadIs s upload) : UploadIs s' upload := by
  refine ⟨moves.born uploadIs.born, fun row' stored => ?_⟩
  obtain ⟨row, found, same⟩ := moves.session uploadIs.born stored
  exact same.trans (uploadIs.row row found)

theorem UploadOf.moves (moves : Moves settings s action s') (uploadOf : UploadOf s id ownerId) :
    UploadOf s' id ownerId := by
  refine ⟨moves.born uploadOf.born, fun row' stored => ?_⟩
  obtain ⟨row, found, same⟩ := moves.session uploadOf.born stored
  exact (Upload.owner_of_session same).trans (uploadOf.row row found)

theorem JobOf.moves (coherent : Coherent s) (births : Births s) (moves : Moves settings s action s')
    (jobOf : JobOf s id ownerId) : JobOf s' id ownerId := by
  refine ⟨moves.born jobOf.born, fun row' stored => ?_⟩
  obtain ⟨row, found, same⟩ := moves.birth coherent births jobOf.born stored
  exact (congrArg Birth.ownerId same).trans (jobOf.row row found)

theorem JobIs.moves (coherent : Coherent s) (births : Births s) (moves : Moves settings s action s')
    (jobIs : JobIs s job) : JobIs s' job := by
  refine ⟨moves.born jobIs.born, fun row' stored => ?_, jobIs.upload.moves moves⟩
  obtain ⟨row, found, same⟩ := moves.birth coherent births jobIs.born stored
  exact same.trans (jobIs.row row found)

/-- What a call has seen stays true. -/
theorem Holds.moves (coherent : Coherent s) (births : Births s) (moves : Moves settings s action s')
    (holds : Holds s op r) : Holds s' op r := by
  cases op with
  | getUpload =>
    rcases r with e | _ | upload
    · trivial
    · trivial
    · exact ⟨holds.1, holds.2.1, holds.2.2.moves moves⟩
  | getJob =>
    rcases r with e | _ | job
    · trivial
    · trivial
    · exact ⟨holds.1, holds.2.moves coherent births moves⟩
  | addWithOutboxAndEvent =>
    cases r with
    | error e => trivial
    | ok => exact JobIs.moves coherent births moves holds
  | saveWithEvent =>
    cases r with
    | error e => trivial
    | ok => exact JobIs.moves coherent births moves holds
  | saveWithOutboxAndEvent =>
    cases r with
    | error e => trivial
    | ok => exact JobIs.moves coherent births moves holds
  | listIds =>
    cases r with
    | error e => trivial
    | ok ids => exact fun id member => JobOf.moves coherent births moves (holds id member)
  | findIdByIdempotencyKey =>
    rcases r with e | _ | id
    · trivial
    · trivial
    · exact JobOf.moves coherent births moves holds
  | _ => trivial

/-! ### What a past knows -/

theorem Past.Has.jobIs (held : ∀ entry ∈ past, Holds s entry.1 entry.2) (has : past.Has job) : JobIs s job := by
  cases has with
  | read done =>
    have known : _ ∧ JobIs s job := held _ done
    exact known.2
  | added done => exact held _ done
  | @saved v _ _ done same =>
    have known : JobIs s v := held _ done
    exact same ▸ ⟨known.born, known.row, known.upload⟩
  | @retried v _ _ _ done same =>
    have known : JobIs s v := held _ done
    exact same ▸ ⟨known.born, known.row, known.upload⟩

theorem Past.OwnsUpload.uploadIs (held : ∀ entry ∈ past, Holds s entry.1 entry.2)
    (owns : past.OwnsUpload ownerId upload) : UploadIs s upload := by
  have known : _ ∧ _ ∧ UploadIs s upload := held _ owns.read
  exact known.2.2

theorem Past.Listed.jobOf (held : ∀ entry ∈ past, Holds s entry.1 entry.2) (listed : past.Listed ownerId id) :
    JobOf s id ownerId := by
  cases listed with
  | page done member =>
    have known : ∀ id ∈ _, JobOf s id ownerId := held _ done
    exact known id member
  | key done => exact held _ done

/-! ### One operation -/

theorem World.getUpload_row {w : World} (read : w.getUpload id = some upload) :
    ∃ row, w.uploads id = some row ∧ row.claim = none ∧ upload = row.upload := by
  unfold getUpload at read
  split at read
  · rename_i row found
    split at read
    · cases read
    · rename_i free
      exact ⟨row, found, by simpa using free, (Option.some.inj read).symm⟩
  · cases read

theorem World.exec_getUpload {w w' : World} {found : Option Upload}
    (executed : World.exec settings i (.getUpload id) choice w = some (.ok found, w')) :
    w' = w ∧ found = w.getUpload id := by
  obtain ⟨read, same⟩ := Prod.mk.inj (Option.some.inj (World.exec_ok executed))
  exact ⟨same.symm, (Except.ok.inj read).symm⟩

theorem World.mem_jobIds {w : World} {p : JobRow → Bool} (member : id ∈ w.jobIds p) :
    ∃ row, w.jobs id = some row ∧ p row = true :=
  (Option.any_eq_true _ _).mp (List.mem_filter.mp member).2

theorem World.mem_listIds {w : World} {offset limit : Nat} (member : id ∈ w.listIds ownerId offset limit) :
    ∃ row, w.jobs id = some row ∧ row.apiKeyId = ownerId := by
  have listed := List.mem_of_mem_drop (List.mem_of_mem_take member)
  obtain ⟨row, found, own⟩ := mem_jobIds ((List.mem_insertionSort _).mp listed)
  exact ⟨row, found, (of_decide_eq_true own).1⟩

theorem World.findIdByIdempotencyKey_owner {w : World} {key : String}
    (found : w.findIdByIdempotencyKey ownerId key = some id) :
    ∃ row, w.jobs id = some row ∧ row.apiKeyId = ownerId := by
  obtain ⟨row, stored, own⟩ := mem_jobIds (List.mem_of_mem_head? found)
  exact ⟨row, stored, (of_decide_eq_true own).1⟩

/-- What only requests do. -/
def Op.requested : Op → Bool
  | .addUpload _ | .saveUpload _ | .addWithOutboxAndEvent .. | .saveWithOutboxAndEvent .. | .completeUpload .. => true
  | _ => false

theorem Task.contract_owner {task : Task} {m : Memory} (allowed : task.contract.allow m op)
    (requested : op.requested = true) : ∃ ownerId, task.owner? = some ownerId := by
  have worker : ¬ ∃ message, m.message = some message ∧ m.workerCalls message op := by
    intro ⟨_, _, calls⟩
    cases op <;> cases requested <;> exact calls
  cases task with
  | process => exact absurd allowed worker
  | runWorker =>
    rcases allowed with own | other
    · exact absurd own worker
    · cases op <;> cases requested <;> exact other.elim
  | dispatchOnce => cases op <;> cases requested <;> exact allowed.elim
  | runBatch => cases op <;> cases requested <;> exact allowed.elim
  | presignedPut => cases op <;> cases requested <;> exact allowed.elim
  | _ => exact ⟨_, rfl⟩

/-- What a call was told of an upload. -/
theorem Owners.told_upload (owners : Owners s) (member : call ∈ s.calls)
    (told : ⟨.getUpload id, .ok (some upload)⟩ ∈ call.past) :
    upload.id = id ∧ upload.objectKey = .source id ∧ UploadIs s upload := owners.past call member _ told

/-- What a request does next, it may do on behalf of its owner. -/
theorem Accessing.requests {next : Except Exc op.Val → Program Reply} (accessing : Accessing call)
    (prog : call.prog = .call op next) (owner : call.task.owner? = some ownerId) :
    Past.requests call.task.completes ownerId call.past op := by
  rw [Accessing, Tracks, prog] at accessing
  obtain ⟨allowed, -⟩ := accessing
  rw [Call.ghost_past, Task.access, owner] at allowed
  exact allowed

end
end MonkeyOcr
