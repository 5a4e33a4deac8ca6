import MonkeyOcr.Lifecycle.Births

namespace MonkeyOcr

open Calls
open Codec (Json)

/-- What a `create_job` remembers: the uploads it has read under an identifier,
the jobs it has found under a key, those it has read, and the one it has
inserted. -/
structure Creation where
  uploads : List (Id × Upload) := []
  found : List (Id × String × Id) := []
  read : List (Id × Job) := []
  inserted : Option Job := none

namespace Creation

def next (m : Creation) : (op : Op) → Except Exc op.Val → Creation
  | .getUpload id, .ok (some upload) => { m with uploads := (id, upload) :: m.uploads }
  | .findIdByIdempotencyKey ownerId key, .ok (some id) => { m with found := (ownerId, key, id) :: m.found }
  | .getJob _ id, .ok (some job) => { m with read := (id, job) :: m.read }
  | .addWithOutboxAndEvent job _ _, .ok _ => { m with inserted := some job }
  | _, _ => m

def ghost : Ghost Sig Creation := ⟨next⟩

/-- The upload of the request was read, and has the identifier. -/
def Read (m : Creation) (request : CreateJobRequest) (uploadId : Id) : Prop :=
  ∃ upload, (request.uploadId, upload) ∈ m.uploads ∧ upload.id = uploadId

/-- The calls of `create_job`. A job it reads is one it has found under its key,
a job it inserts is the one it was asked for. -/
def calls (request : CreateJobRequest) (ownerId : Id) (idempotencyKey : Option String) (m : Creation) : Op → Prop
  | .getJob _ id => ∃ key, idempotencyKey = some key ∧ (ownerId, key, id) ∈ m.found
  | .findIdByIdempotencyKey owner key => owner = ownerId ∧ idempotencyKey = some key
  | .addWithOutboxAndEvent job _ _ =>
    job.ownerId = ownerId ∧ job.idempotencyKey = idempotencyKey ∧ job.options = request.options ∧
      m.Read request job.uploadId
  | .getUpload _ | .uuid7 | .utcNow => True
  | _ => False

/-- The reply is about the job inserted, or about one read that fits the request. -/
def Replies (m : Creation) (request : CreateJobRequest) (jobId : Id) : Prop :=
  (∃ job, m.inserted = some job ∧ job.id = jobId) ∨
    ∃ id job, (id, job) ∈ m.read ∧ job.id = jobId ∧ m.Read request job.uploadId ∧
      (Json.obj job.options).same (.obj request.options) = true

/-- What a later memory keeps. -/
structure Grows (m m' : Creation) : Prop where
  uploads : ∀ entry ∈ m.uploads, entry ∈ m'.uploads
  found : ∀ entry ∈ m.found, entry ∈ m'.found
  read : ∀ entry ∈ m.read, entry ∈ m'.read
  inserted : m'.inserted = m.inserted

theorem Read.grows {m m' : Creation} {request : CreateJobRequest} {uploadId : Id} (read : m.Read request uploadId)
    (grows : m.Grows m') : m'.Read request uploadId := by
  obtain ⟨upload, member, same⟩ := read
  exact ⟨upload, grows.uploads _ member, same⟩

theorem Grows.getUpload (m : Creation) (id : Id) (found : Option Upload) :
    m.Grows (m.next (.getUpload id) (.ok found)) := by
  cases found with
  | none => exact ⟨fun _ member => member, fun _ member => member, fun _ member => member, rfl⟩
  | some upload =>
    exact ⟨fun _ member => List.mem_cons_of_mem _ member, fun _ member => member, fun _ member => member, rfl⟩

end Creation

def Task.creating : Task → Contract Sig Creation
  | .createJob request ownerId _ idempotencyKey =>
    ⟨Creation.calls request ownerId idempotencyKey, fun _ _ _ => True⟩
  | _ => ⟨fun _ _ => True, fun _ _ _ => True⟩

def Task.Created : Task → Reply → Creation → Prop
  | .createJob request .., .job dto, m => m.Replies request dto.jobId
  | _, _, _ => True

namespace OCRApplicationService

variable {request : CreateJobRequest} {ownerId : Id} {requestId : String} {idempotencyKey : Option String}
  {m : Creation} {upload : Upload}

/-- A part of a `create_job`. -/
abbrev Creates {α : Type} (request : CreateJobRequest) (ownerId : Id) (idempotencyKey : Option String)
    (program : Program α) (Q : α → Creation → Prop) (m : Creation) : Prop :=
  program.Meets Creation.ghost ⟨Creation.calls request ownerId idempotencyKey, fun _ _ _ => True⟩ Q
    (fun _ _ => True) m

theorem creates_await (op : Op) (allowed : m.calls request ownerId idempotencyKey op) :
    Creates request ownerId idempotencyKey (await op) (fun a m' => m' = m.next op (.ok a)) m :=
  ⟨allowed, fun r _ => by cases r <;> trivial⟩

theorem creates_database (op : Op) (allowed : m.calls request ownerId idempotencyKey op) :
    Creates request ownerId idempotencyKey (database op) (fun a m' => m' = m.next op (.ok a)) m :=
  Prog.meets_mapError.mpr (creates_await op allowed)

theorem creates_attempt (op : Op) (allowed : m.calls request ownerId idempotencyKey op) :
    Creates request ownerId idempotencyKey (database op).attempt
      (fun outcome m' => match outcome with
        | .ok a => m' = m.next op (.ok a)
        | .error _ => m' = m) m :=
  Prog.meets_attempt.mpr (Prog.meets_mapError.mpr ⟨allowed, fun r _ => by
    cases r with
    | ok a => rfl
    | error e => cases op <;> rfl⟩)

theorem ownedUpload_creates :
    Creates request ownerId idempotencyKey (ownedUpload request.uploadId ownerId)
      (fun upload m' => (request.uploadId, upload) ∈ m'.uploads) m := by
  refine (creates_database (.getUpload request.uploadId) trivial).bind ?_
  intro found m₁ same
  rcases found with _ | upload
  · trivial
  · dsimp only
    split
    · trivial
    · exact same ▸ List.mem_cons_self

/-- The reply to a job is about that job. -/
theorem toJobDto_creates {job : Job} (replies : m.Replies request job.id) :
    Creates request ownerId idempotencyKey (toJobDto job) (fun dto m' => m'.Replies request dto.jobId) m := by
  refine (creates_database (.getUpload job.uploadId) trivial).bind ?_
  intro found m₁ same
  have grows : m.Grows m₁ := same ▸ .getUpload m job.uploadId found
  rcases replies with ⟨inserted, there, id⟩ | ⟨id, read, member, own, upload, options⟩
  · exact .inl ⟨inserted, grows.inserted.trans there, id⟩
  · exact .inr ⟨id, read, grows.read _ member, own, upload.grows grows, options⟩

/-- A job found under the key is read. -/
theorem findByIdempotencyKey_creates {key : String} (own : idempotencyKey = some key)
    (read : (request.uploadId, upload) ∈ m.uploads) :
    Creates request ownerId idempotencyKey (findByIdempotencyKey ownerId key)
      (fun existing m' => (request.uploadId, upload) ∈ m'.uploads ∧
        ∀ job, existing = some job → ∃ id, (id, job) ∈ m'.read) m := by
  refine (creates_database (.findIdByIdempotencyKey ownerId key) ⟨rfl, own⟩).bind ?_
  intro found m₁ same
  rcases found with _ | id
  · exact ⟨same ▸ read, fun _ none => by cases none⟩
  · have there : (ownerId, key, id) ∈ m₁.found := same ▸ List.mem_cons_self
    refine (creates_database (.getJob .api id) ⟨key, own, there⟩).mono ?_ fun _ _ _ => trivial
    intro existing m₂ same'
    rcases existing with _ | job
    · exact ⟨same' ▸ same ▸ read, fun _ none => by cases none⟩
    · refine ⟨same' ▸ same ▸ read, fun other is => ?_⟩
      cases is
      exact ⟨id, same' ▸ List.mem_cons_self⟩

theorem replayed_creates {existing : Job} (read : (request.uploadId, upload) ∈ m.uploads)
    (found : ∃ id, (id, existing) ∈ m.read) :
    Creates request ownerId idempotencyKey (replayed existing upload request)
      (fun dto m' => m'.Replies request dto.jobId) m := by
  unfold replayed
  split
  · trivial
  · rename_i fits
    simp only [not_or, not_not, Bool.not_eq_true', Bool.not_eq_false, ne_eq] at fits
    obtain ⟨id, member⟩ := found
    exact toJobDto_creates (.inr ⟨id, existing, member, rfl, ⟨upload, read, fits.1.symm⟩, fits.2⟩)

theorem insertJob_creates (read : (request.uploadId, upload) ∈ m.uploads) :
    Creates request ownerId idempotencyKey (insertJob request upload ownerId requestId idempotencyKey)
      (fun dto m' => m'.Replies request dto.jobId) m := by
  refine (creates_await .uuid7 trivial).bind ?_
  intro id m₁ same₁
  refine (creates_await .utcNow trivial).bind ?_
  intro now m₂ same₂
  refine (creates_await .uuid7 trivial).bind ?_
  intro outboxId m₃ same₃
  refine (creates_await .utcNow trivial).bind ?_
  intro now' m₄ same₄
  have same : m₄ = m := by
    rw [same₄, same₃, same₂, same₁]
    rfl
  subst same
  refine (creates_attempt (.addWithOutboxAndEvent _ _ _) ⟨rfl, rfl, rfl, upload, read, rfl⟩).bind ?_
  intro outcome m₅ same₅
  split
  · exact toJobDto_creates (.inl ⟨_, same₅ ▸ rfl, rfl⟩)
  · split
    · trivial
    · rename_i key given
      have own : idempotencyKey = some key := (Option.filter_eq_some_iff.mp given).1
      refine (findByIdempotencyKey_creates own (same₅ ▸ read)).bind ?_
      intro existing m₆ ⟨read₆, found⟩
      cases existing with
      | none => trivial
      | some existing => exact replayed_creates read₆ (found existing rfl)
  · trivial

theorem createJob_creates :
    Creates request ownerId idempotencyKey (createJob request ownerId requestId idempotencyKey)
      (fun dto m' => m'.Replies request dto.jobId) m := by
  refine ownedUpload_creates.bind ?_
  intro upload m₁ read
  split
  · trivial
  · split
    · exact insertJob_creates read
    · rename_i key given
      have own : idempotencyKey = some key := (Option.filter_eq_some_iff.mp given).1
      refine (findByIdempotencyKey_creates own read).bind ?_
      intro existing m₂ ⟨read₂, found⟩
      cases existing with
      | none => exact insertJob_creates read₂
      | some existing => exact replayed_creates read₂ (found existing rfl)

end OCRApplicationService

theorem program_creates (settings : Settings) (task : Task) :
    (program settings task).Meets Creation.ghost task.creating task.Created (fun _ _ => True) {} := by
  cases task with
  | createJob request ownerId requestId idempotencyKey =>
    exact Prog.Meets.bind OCRApplicationService.createJob_creates fun _ _ replies => replies
  | _ => exact (Prog.meets_free fun _ _ => trivial).mono (fun _ _ _ => trivial) fun _ _ _ => trivial

/-- What the call remembers of the job it creates. -/
def creationOf (call : SystemCall) : Creation := call.ghost Creation.ghost fun _ => {}

@[simp] theorem creationOf_begin (settings : Settings) (task : Task) :
    creationOf (Call.begin (system settings) task) = {} := rfl

@[simp] theorem creationOf_killed (call : SystemCall) : creationOf call.killed = creationOf call := rfl

@[simp] theorem creationOf_answered (call : SystemCall) (op : Op) (r : Except Exc op.Val)
    (next : Except Exc op.Val → Program Reply) :
    creationOf (call.answered (S := Sig) op r next) = (creationOf call).next op r := rfl

/-- The call keeps to its request from here on. -/
abbrev Creating (call : SystemCall) : Prop :=
  Tracks Creation.ghost (fun _ => {}) Task.creating Task.Created (fun _ _ _ => True) call

theorem Moves.creating {settings : Settings} {s s' : State} {action : Step}
    (creating : ∀ call ∈ s.calls, Creating call) (moves : Moves settings s action s') :
    ∀ call ∈ s'.calls, Creating call :=
  tracks_step (program_creates settings) (fun _ _ _ _ _ _ _ task _ => by cases task <;> trivial) creating moves.step

end MonkeyOcr
