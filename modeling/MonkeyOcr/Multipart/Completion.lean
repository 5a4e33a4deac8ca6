import MonkeyOcr.Infrastructure.ExecutionLemmas
import MonkeyOcr.Multipart.Store
import MonkeyOcr.System

namespace MonkeyOcr

open Calls

namespace Multipart

/-- An upload session with the document of its client and the parts the client put. -/
structure Session where
  upload : Upload
  document : StoredContent
  parts : List (Nat × String)

namespace Session

variable (settings : Settings) (bucket : String) (session : Session)

/-- The row of the session, which nothing rejected. -/
def Row (upload : Upload) : Prop :=
  upload.state ≠ .rejected ∧
    upload = { session.upload with
      state := upload.state, detectedContentType := upload.detectedContentType, completedAt := upload.completedAt }

def Unclaimed (w : StoreWorld) : Prop :=
  ∃ row, w.base.uploads session.upload.id = some row ∧ row.claim = none ∧ session.Row row.upload

/-- The parts are at the store, in an upload that is open. -/
def Open (w : StoreWorld) : Prop :=
  ∃ uploadId named assembly, session.upload.multipartUploadId = some uploadId ∧
    namedParts settings.storage bucket session.upload.objectKey uploadId session.parts = some named ∧
    w.uploads session.upload.objectKey uploadId = some assembly ∧ assembly named = .ok session.document

/-- The document is at its place, and no upload makes another of it. -/
def Stored (w : StoreWorld) : Prop :=
  w.base.objects session.upload.objectKey = some session.document ∧
    ∀ uploadId, session.upload.multipartUploadId = some uploadId → w.uploads session.upload.objectKey uploadId = none

/-- What the client put is what was announced, and the validator accepts it. -/
structure Announced : Prop where
  size : session.document.data.bytes.length = session.upload.sizeBytes
  sha256 : session.document.data.sha256 = session.upload.sha256
  metadata : ∀ sha256, session.document.metadataSha256 = some sha256 → sha256 = "" ∨ sha256 = session.upload.sha256
  accepted : ∃ detected, MagicBytesFileValidator.validate session.upload session.document.data.bytes = .ok detected

/-- The session as it is when its client has put the document. -/
structure Uploaded (w : StoreWorld) : Prop extends session.Announced where
  uploading : session.upload.state = .uploading
  row : ∃ row, w.base.uploads session.upload.id = some row ∧ row.claim = none ∧ row.upload = session.upload
  put : session.upload.multipartUploadId = none ∧ w.base.objects session.upload.objectKey = some session.document ∨
    session.Open settings bucket w

/-- No completion of a multipart upload has taken effect at the store. -/
def Waiting (w : StoreWorld) : Prop :=
  ∀ uploadId, session.upload.multipartUploadId = some uploadId →
    (w.uploads session.upload.objectKey uploadId).isSome = true

def Completed (w : StoreWorld) : Prop :=
  ∃ row, w.base.uploads session.upload.id = some row ∧ row.upload.state = .completed

/-- A call of the owner with the right parts. -/
def Called (call : CompleteUpload) : Prop :=
  call.uploadId = session.upload.id ∧ call.ownerId = session.upload.ownerId ∧ call.parts = session.parts

/-- The steps of calls of the owner with the right parts. -/
def Permits (_ : Sys Sig StoreWorld CompleteUpload Exc CompleteUploadDTO) :
    Action CompleteUpload Choice Empty → Prop
  | .start call => session.Called call
  | _ => True

/-- Also the id of the multipart upload and the hash are right. -/
structure Right (call : CompleteUpload) : Prop where
  called : session.Called call
  sha256 : ∀ sha256, call.providedSha256 = some sha256 → sha256 = session.upload.sha256
  multipart : ∀ uploadId, session.upload.multipartUploadId = some uploadId → call.multipartUploadId = some uploadId

/-! ### What the calls of a session do -/

/-- Whether the store has answered the completion of a call. -/
def next (assembled : Bool) : (op : Op) → Except Exc op.Val → Bool
  | .completeUpload .., .ok _ => true
  | _, _ => assembled

def ghost : Ghost Sig Bool := ⟨next⟩

def calls (assembled : Bool) : Op → Prop
  | .getUpload id => id = session.upload.id
  | .utcNow => True
  | .completeUpload key uploadId parts =>
    key = session.upload.objectKey ∧ uploadId = session.upload.multipartUploadId ∧ parts = session.parts
  | .stat key | .getBytes key => key = session.upload.objectKey ∧ assembled = true
  | .saveUpload upload => session.Row upload
  | _ => False

def answers : (op : Op) → Except Exc op.Val → Prop
  | .getUpload _, .ok (some upload) => session.Row upload
  | .stat _, .ok info => info = some ⟨session.upload.objectKey, session.document.data.sizeBytes,
      session.document.metadataSha256, session.document.contentType⟩
  | .getBytes _, .ok data => data = session.document.data
  | _, _ => True

def contract : Contract Sig Bool := ⟨session.calls, fun _ => session.answers⟩

/-- The program makes only the calls of the session. -/
abbrev Keeps {α : Type} (p : Program α) (assembled : Bool) : Prop :=
  p.Meets ghost session.contract (fun _ _ => True) (fun _ _ => True) assembled

variable {settings bucket session} {upload : Upload} {assembled : Bool}

/-- The document is none of those that are rejected. -/
theorem Announced.not_mismatches (announced : session.Announced) (row : session.Row upload) :
    OCRApplicationService.mismatches upload ⟨session.upload.objectKey, session.document.data.sizeBytes,
      session.document.metadataSha256, session.document.contentType⟩ = false := by
  have size : session.document.data.sizeBytes = upload.sizeBytes := by
    rw [row.2]
    exact announced.size
  have sha256 : upload.sha256 = session.upload.sha256 := by rw [row.2]
  unfold OCRApplicationService.mismatches
  cases metadata : session.document.metadataSha256 with
  | none => simp [size]
  | some own =>
    rcases announced.metadata own metadata with empty | same
    · simp [size, empty]
    · simp [size, same, sha256]

theorem Announced.validate (announced : session.Announced) (row : session.Row upload) :
    ∃ detected, MagicBytesFileValidator.validate upload session.document.data.bytes = .ok detected := by
  obtain ⟨detected, accepted⟩ := announced.accepted
  refine ⟨detected, ?_⟩
  rw [row.2]
  exact accepted

theorem await_keeps (op : Op) (allowed : session.calls assembled op) :
    (await op).Meets ghost session.contract
      (fun a s => session.answers op (.ok a) ∧ s = next assembled op (.ok a)) (fun _ _ => True) assembled := by
  refine ⟨allowed, fun r answer => ?_⟩
  cases r with
  | error e => trivial
  | ok a => exact ⟨answer, rfl⟩

/-- The wrappers of the service change errors only. -/
theorem mapError_keeps (op : Op) (f : Exc → Exc) (allowed : session.calls assembled op) :
    ((await op).mapError f).Meets ghost session.contract
      (fun a s => session.answers op (.ok a) ∧ s = next assembled op (.ok a)) (fun _ _ => True) assembled :=
  Prog.meets_mapError.mpr (await_keeps op allowed)

theorem verifyUpload_keeps (announced : session.Announced) (row : session.Row upload) :
    session.Keeps (OCRApplicationService.verifyUpload upload session.document.data) assembled := by
  have sha256 : session.document.data.sha256 = upload.sha256 := by
    rw [announced.sha256, row.2]
  obtain ⟨detected, accepted⟩ := announced.validate row
  unfold OCRApplicationService.verifyUpload
  rw [if_neg (not_not.mpr sha256), accepted]
  refine (await_keeps .utcNow trivial).bind fun now s _ => ?_
  cases done : upload.complete detected now with
  | error e => trivial
  | ok completed =>
    have edited : session.Row completed := by
      unfold Upload.complete at done
      split at done
      · cases done
      · cases done
        refine ⟨UploadState.noConfusion, ?_⟩
        rw [row.2]
    exact (mapError_keeps (.saveUpload completed) _ edited).bind fun _ _ _ => trivial

theorem checkUpload_keeps (announced : session.Announced) (row : session.Row upload) :
    session.Keeps (OCRApplicationService.checkUpload upload session.parts) false := by
  have key : upload.objectKey = session.upload.objectKey := by rw [row.2]
  have multipart : upload.multipartUploadId = session.upload.multipartUploadId := by rw [row.2]
  unfold OCRApplicationService.checkUpload
  rw [key, multipart]
  refine (mapError_keeps (.completeUpload ..) _ ⟨rfl, rfl, rfl⟩).bind ?_
  rintro _ assembled ⟨-, assembledNow⟩
  have passed : assembled = true := assembledNow
  refine (mapError_keeps (.stat _) _ ⟨rfl, passed⟩).bind ?_
  rintro info s ⟨found, same⟩
  cases found
  dsimp only
  rw [announced.not_mismatches row, if_neg Bool.false_ne_true]
  have still : s = true := same.trans passed
  refine (Prog.meets_mapError.mpr (mapError_keeps (.getBytes _) _ ⟨rfl, still⟩)).bind ?_
  rintro data _ ⟨content, -⟩
  cases content
  exact verifyUpload_keeps announced row

theorem completeUpload_keeps (announced : session.Announced) {call : CompleteUpload} (called : session.Called call) :
    session.Keeps ((completions settings bucket).program call) false := by
  obtain ⟨uploadId, ownerId, parts⟩ := called
  change session.Keeps (OCRApplicationService.completeUpload ..) false
  unfold OCRApplicationService.completeUpload OCRApplicationService.ownedUpload
  rw [parts]
  refine (Prog.Meets.bind (mapError_keeps (.getUpload _) _ uploadId) ?_ :
    Prog.Meets ghost session.contract (fun upload s => session.Row upload ∧ s = false) _ _ _).bind ?_
  · rintro found s ⟨row, same⟩
    cases found with
    | none => trivial
    | some upload =>
      dsimp only
      split
      · trivial
      · exact ⟨row, same⟩
  · rintro upload s ⟨row, rfl⟩
    split
    · trivial
    · split
      · trivial
      · split
        · trivial
        · trivial
        · exact checkUpload_keeps announced row

/-! ### What every run keeps of a session -/

/-- The row is never rejected, and the document is at its place or still to be assembled. -/
structure Kept (settings : Settings) (bucket : String) (session : Session) (w : StoreWorld) : Prop where
  row : session.Unclaimed w
  store : session.Stored w ∨ session.Open settings bucket w

/-- A call that the store has answered finds the document. -/
def Invariant (settings : Settings) (bucket : String) (session : Session)
    (s : Sys Sig StoreWorld CompleteUpload Exc CompleteUploadDTO) : Prop :=
  session.Kept settings bucket s.world ∧
    ∀ call ∈ s.calls, session.Called call.task ∧ (call.ghost ghost (fun _ => false) = true → session.Stored s.world)

/-- The contract binds the calls of the session only. -/
def contractOf (session : Session) (call : CompleteUpload) : Contract Sig Bool :=
  ⟨fun assembled op => session.Called call → session.calls assembled op, fun _ => session.answers⟩

theorem program_keeps (announced : session.Announced) (call : CompleteUpload) :
    ((completions settings bucket).program call).Meets ghost (session.contractOf call) (fun _ _ => True)
      (fun _ _ => True) false := by
  by_cases called : session.Called call
  · have keeps : session.Keeps ((completions settings bucket).program call) false :=
      completeUpload_keeps announced called
    exact keeps.weaken (fun _ _ allowed _ => allowed) fun _ _ _ answer => answer
  · exact Prog.meets_free fun _ _ own => absurd own called

theorem Uploaded.kept {w : StoreWorld} (uploaded : session.Uploaded settings bucket w) :
    session.Kept settings bucket w := by
  obtain ⟨row, stored, free, same⟩ := uploaded.row
  refine ⟨⟨row, stored, free, ?_⟩, ?_⟩
  · rw [same]
    exact ⟨by rw [uploaded.uploading]; exact UploadState.noConfusion, rfl⟩
  · rcases uploaded.put with ⟨single, stored⟩ | parts
    · refine .inl ⟨stored, fun uploadId multipart => ?_⟩
      rw [single] at multipart
      cases multipart
    · exact .inr parts

theorem Kept.waiting {w : StoreWorld} (kept : session.Kept settings bucket w) (waiting : session.Waiting w) :
    session.upload.multipartUploadId = none ∧ session.Stored w ∨ session.Open settings bucket w := by
  rcases kept.store with stored | parts
  · cases multipart : session.upload.multipartUploadId with
    | none => exact .inl ⟨rfl, stored⟩
    | some uploadId =>
      have still := waiting uploadId multipart
      rw [stored.2 uploadId multipart] at still
      cases still
  · exact .inr parts

/-- A completion leaves the document at its place, or everything as it is. -/
theorem Kept.complete {w w' : StoreWorld} {r : Except Exc Unit} (kept : session.Kept settings bucket w)
    (performed : adapterCompleteUpload settings.storage bucket w session.upload.objectKey
      session.upload.multipartUploadId session.parts = (r, w')) :
    (∃ e, r = .error e ∧ w' = w) ∨ r = .ok () ∧ w'.base.uploads = w.base.uploads ∧ session.Stored w' := by
  cases multipart : session.upload.multipartUploadId with
  | none =>
    rw [multipart] at performed
    cases performed
    rcases kept.store with stored | ⟨uploadId, _, _, some, _⟩
    · exact .inr ⟨rfl, rfl, stored⟩
    · rw [multipart] at some
      cases some
  | some uploadId =>
    rw [multipart] at performed
    cases names : namedParts settings.storage bucket session.upload.objectKey uploadId session.parts with
    | none =>
      obtain ⟨e, refused, -⟩ := adapterCompleteUpload_refused (w := w) names
      rw [refused] at performed
      cases performed
      exact .inl ⟨e, rfl, rfl⟩
    | some named =>
      rw [adapterCompleteUpload_named names] at performed
      rcases w.completeMultipartUpload_cases session.upload.objectKey uploadId named with
        ⟨e, refused⟩ | ⟨assembly, object, found, assembled, completed⟩
      · rw [refused] at performed
        cases performed
        exact .inl ⟨_, rfl, rfl⟩
      · rw [completed] at performed
        cases performed
        rcases kept.store with stored | ⟨otherId, others, other, some, own, parts, makes⟩
        · rw [stored.2 uploadId multipart] at found
          cases found
        · rw [multipart] at some
          cases some
          rw [names] at own
          cases own
          rw [found] at parts
          cases parts
          rw [assembled] at makes
          cases makes
          refine .inr ⟨rfl, rfl, Function.update_self _ _ _, fun other same => ?_⟩
          rw [multipart] at same
          cases same
          simp only [Function.update_self]

/-- What one call of an operation of the session does to the world. -/
theorem Kept.perform {w w' : StoreWorld} {op : Op} {answer : Answer} {r : Except Exc op.Val} {consumer : Nat}
    (kept : session.Kept settings bucket w) (allowed : session.calls assembled op)
    (found : assembled = true → session.Stored w)
    (performed : w.perform settings bucket consumer op answer = some (r, w')) :
    session.Kept settings bucket w' ∧ session.answers op r ∧ (session.Stored w → session.Stored w') ∧
      (next assembled op r = true → session.Stored w') := by
  cases op with
  | completeUpload key uploadId parts =>
    obtain ⟨rfl, rfl, rfl⟩ := allowed
    have moved : adapterCompleteUpload settings.storage bucket w session.upload.objectKey
        session.upload.multipartUploadId session.parts = (r, w') := Option.some.inj performed
    rcases kept.complete moved with ⟨e, rfl, rfl⟩ | ⟨rfl, rows, stored⟩
    · exact ⟨kept, trivial, id, found⟩
    · refine ⟨⟨?_, .inl stored⟩, trivial, fun _ => stored, fun _ => stored⟩
      unfold Unclaimed
      rw [rows]
      exact kept.row
  | getUpload id =>
    cases allowed
    cases performed
    obtain ⟨row, there, free, own⟩ := kept.row
    refine ⟨kept, ?_, id, found⟩
    simp only [World.getUpload, there, free]
    exact own
  | utcNow =>
    cases answer <;> cases performed
    exact ⟨kept, trivial, id, found⟩
  | stat key =>
    obtain ⟨rfl, past⟩ := allowed
    cases performed
    refine ⟨kept, ?_, id, found⟩
    simp only [(found past).1]
    rfl
  | getBytes key =>
    obtain ⟨rfl, past⟩ := allowed
    simp only [StoreWorld.perform, World.perform, (found past).1, Option.map_some, Option.some.injEq, Prod.mk.injEq]
      at performed
    obtain ⟨rfl, rfl⟩ := performed
    exact ⟨kept, rfl, id, found⟩
  | saveUpload upload =>
    have own : session.Row upload := allowed
    obtain ⟨row, there, free, same⟩ := kept.row
    have sameId : upload.id = session.upload.id := by rw [own.2]
    have saved : w.base.saveUpload upload = .ok ((), w.base.setUpload upload.id (some { row with
        upload := { row.upload with
          state := upload.state
          detectedContentType := upload.detectedContentType
          completedAt := upload.completedAt } })) := by
      simp [World.saveUpload, sameId, there, free]
    simp only [StoreWorld.perform, World.perform, World.transact, saved, Option.map_some, Option.some.injEq,
      Prod.mk.injEq] at performed
    obtain ⟨rfl, rfl⟩ := performed
    refine ⟨⟨?_, kept.store⟩, trivial, id, found⟩
    have edited : session.Row { row.upload with
        state := upload.state
        detectedContentType := upload.detectedContentType
        completedAt := upload.completedAt } := by
      refine ⟨own.1, ?_⟩
      rw [same.2]
    unfold Unclaimed
    rw [← sameId]
    exact ⟨_, Function.update_self _ _ _, free, edited⟩
  | _ => exact allowed.elim

theorem Kept.exec {w w' : StoreWorld} {op : Op} {choice : Choice} {r : Except Exc op.Val} {consumer : Nat}
    (kept : session.Kept settings bucket w) (allowed : session.calls assembled op)
    (found : assembled = true → session.Stored w)
    (executed : w.exec settings bucket consumer op choice = some (r, w')) :
    session.Kept settings bucket w' ∧ session.answers op r ∧ (session.Stored w → session.Stored w') ∧
      (next assembled op r = true → session.Stored w') := by
  have refused : ∀ e : Exc, session.answers op (.error e) ∧ next assembled op (.error e) = assembled := by
    intro e
    cases op <;> exact ⟨trivial, rfl⟩
  rcases StoreWorld.exec_cases executed with ⟨e, rfl, rfl⟩ | ⟨r₀, performed, rfl | ⟨e, rfl⟩⟩
  · refine ⟨kept, (refused e).1, id, ?_⟩
    rw [(refused e).2]
    exact found
  · exact kept.perform allowed found performed
  · obtain ⟨still, -, stays, -⟩ := kept.perform allowed found performed
    refine ⟨still, (refused e).1, stays, ?_⟩
    rw [(refused e).2]
    exact fun past => stays (found past)

theorem sound (announced : session.Announced) :
    Sound (completions settings bucket) session.Permits ghost (fun _ => false) session.contractOf
      (fun _ _ _ => True) (fun _ _ _ => True) (session.Invariant settings bucket) where
  program := program_keeps announced
  start := by
    intro s call inv called
    refine ⟨inv.1, fun other member => ?_⟩
    rcases List.mem_append.mp member with old | new
    · exact inv.2 other old
    · cases List.mem_singleton.mp new
      refine ⟨called, fun none => ?_⟩
      cases none
  resume := by
    intro s i choice call op next r w inv _ _ at_i prog executed allowed
    obtain ⟨called, found⟩ := inv.2 call (List.mem_of_getElem? at_i)
    obtain ⟨kept, answer, stays, here⟩ := inv.1.exec (allowed called) found executed
    refine ⟨⟨kept, fun other member => ?_⟩, answer⟩
    rcases Machine.mem_set_answered member with old | rfl
    · obtain ⟨own, past⟩ := inv.2 other old
      exact ⟨own, fun answered => stays (past answered)⟩
    · exact ⟨called, here⟩
  kill := by
    intro s i inv _
    refine ⟨inv.1, fun other member => ?_⟩
    rcases Machine.mem_modify_killed member with old | ⟨old, there, rfl⟩
    · exact inv.2 other old
    · exact inv.2 old there
  env := fun _ event => nomatch event

/-! ### A call that nothing stops -/

/-- The calls of a program that runs alone and meets no failure. -/
abbrev unfailing (settings : Settings) (bucket : String) (consumer : Nat) (now : Time) (op : Op) (w : StoreWorld) :
    Option (Except Exc op.Val × StoreWorld) :=
  w.exec settings bucket consumer op { answer := .time now }

section

variable {w w' : StoreWorld} {consumer : Nat} {now : Time} {call : CompleteUpload}

theorem alone_await {op : Op} {r : Except Exc op.Val}
    (performed : w.perform settings bucket consumer op (.time now) = some (r, w')) :
    (await op).alone (unfailing settings bucket consumer now) w = some (r, w') := by
  have executed : unfailing settings bucket consumer now op w = some (r, w') := performed
  simp only [await, Prog.alone]
  rw [executed]
  rfl

/-- The wrappers of the service hand on what the call returns. -/
theorem alone_mapped {op : Op} {f : Exc → Exc} {a : op.Val}
    (performed : w.perform settings bucket consumer op (.time now) = some (.ok a, w')) :
    ((await op).mapError f).alone (unfailing settings bucket consumer now) w = some (.ok a, w') :=
  Prog.alone_mapError (alone_await performed)

theorem Open.complete (parts : session.Open settings bucket w) :
    ∃ w', adapterCompleteUpload settings.storage bucket w session.upload.objectKey
      session.upload.multipartUploadId session.parts = (.ok (), w') := by
  obtain ⟨uploadId, named, assembly, multipart, names, found, makes⟩ := parts
  rw [multipart, adapterCompleteUpload_named names]
  simp only [StoreWorld.completeMultipartUpload, found, makes]
  exact ⟨_, rfl⟩

/-- A completed upload is none at the store, so that completing it again is an error. -/
theorem complete_again (settings : Settings) (bucket : String) (done : ¬ session.Waiting w) :
    ∃ e, adapterCompleteUpload settings.storage bucket w session.upload.objectKey
      session.upload.multipartUploadId session.parts = (.error e, w) := by
  unfold Waiting at done
  simp only [not_forall] at done
  obtain ⟨uploadId, multipart, gone⟩ := done
  rw [Bool.not_eq_true, Option.isSome_eq_false_iff, Option.isNone_iff_eq_none] at gone
  rw [multipart]
  cases names : namedParts settings.storage bucket session.upload.objectKey uploadId session.parts with
  | none =>
    obtain ⟨e, refused, -⟩ := adapterCompleteUpload_refused (w := w) names
    exact ⟨e, refused⟩
  | some named =>
    rw [adapterCompleteUpload_named names]
    simp only [StoreWorld.completeMultipartUpload, gone]
    exact ⟨_, rfl⟩

theorem saveUpload_alone (settings : Settings) (bucket : String) (consumer : Nat) (now : Time) {completed : Upload}
    (kept : session.Unclaimed w) (own : session.Row completed) (state : completed.state = .completed) :
    ∃ w', (OCRApplicationService.database (.saveUpload completed)).alone
        (unfailing settings bucket consumer now) w = some (.ok (), w') ∧ session.Completed w' := by
  obtain ⟨row, there, free, same⟩ := kept
  have sameId : completed.id = session.upload.id := by rw [own.2]
  have saved : w.perform settings bucket consumer (.saveUpload completed) (.time now) = some (.ok (), { w with
      base := w.base.setUpload completed.id (some { row with
        upload := { row.upload with
          state := completed.state
          detectedContentType := completed.detectedContentType
          completedAt := completed.completedAt } }) }) := by
    simp [StoreWorld.perform, World.perform, World.transact, World.saveUpload, sameId, there, free]
  refine ⟨_, alone_mapped saved, ?_⟩
  unfold Completed
  rw [← sameId]
  exact ⟨_, Function.update_self _ _ _, state⟩

/-- The document that is at its place is completed. -/
theorem verifyUpload_alone (settings : Settings) (bucket : String) (consumer : Nat) (now : Time)
    (announced : session.Announced) (kept : session.Unclaimed w) (own : session.Row upload)
    (uploading : upload.state = .uploading) :
    ∃ dto w', (OCRApplicationService.verifyUpload upload session.document.data).alone
        (unfailing settings bucket consumer now) w = some (.ok dto, w') ∧ session.Completed w' := by
  have sha256 : session.document.data.sha256 = upload.sha256 := by
    rw [announced.sha256, own.2]
  obtain ⟨detected, accepted⟩ := announced.validate own
  have done : upload.complete detected now = .ok { upload with
      state := .completed, detectedContentType := some detected, completedAt := some now } := by
    simp [Upload.complete, uploading]
  have edited : session.Row { upload with
      state := .completed, detectedContentType := some detected, completedAt := some now } := by
    refine ⟨UploadState.noConfusion, ?_⟩
    rw [own.2]
  obtain ⟨w', saved, completed⟩ := saveUpload_alone settings bucket consumer now kept edited rfl
  unfold OCRApplicationService.verifyUpload
  rw [if_neg (not_not.mpr sha256), accepted]
  have clock : (await .utcNow).alone (unfailing settings bucket consumer now) w = some (.ok now, w) :=
    alone_await rfl
  refine ⟨⟨upload.id, .completed, detected⟩, w', ?_, completed⟩
  change (await .utcNow >>= _).alone _ w = _
  rw [Prog.alone_bind clock, done]
  change (OCRApplicationService.database _ >>= _).alone _ w = _
  rw [Prog.alone_bind saved]
  rfl

theorem checkUpload_alone (announced : session.Announced) (kept : session.Kept settings bucket w)
    (own : session.Row upload) (uploading : upload.state = .uploading) (waiting : session.Waiting w) :
    ∃ dto w', (OCRApplicationService.checkUpload upload session.parts).alone
        (unfailing settings bucket consumer now) w = some (.ok dto, w') ∧ session.Completed w' := by
  have key : upload.objectKey = session.upload.objectKey := by rw [own.2]
  have multipart : upload.multipartUploadId = session.upload.multipartUploadId := by rw [own.2]
  have assembled : ∃ w₁, adapterCompleteUpload settings.storage bucket w session.upload.objectKey
      session.upload.multipartUploadId session.parts = (.ok (), w₁) := by
    rcases kept.waiting waiting with ⟨single, -⟩ | parts
    · rw [single]
      exact ⟨w, rfl⟩
    · exact parts.complete
  obtain ⟨w₁, assembled⟩ := assembled
  obtain ⟨rows, stored⟩ : w₁.base.uploads = w.base.uploads ∧ session.Stored w₁ := by
    rcases kept.complete assembled with ⟨e, failed, -⟩ | ⟨-, rows, stored⟩
    · cases failed
    · exact ⟨rows, stored⟩
  have unclaimed : session.Unclaimed w₁ := by
    unfold Unclaimed
    rw [rows]
    exact kept.row
  obtain ⟨dto, w', verified, completed⟩ := verifyUpload_alone settings bucket consumer now announced
    unclaimed own uploading
  have first : (OCRApplicationService.storage (.completeUpload session.upload.objectKey
      session.upload.multipartUploadId session.parts)).alone (unfailing settings bucket consumer now) w =
      some (.ok (), w₁) := by
    refine alone_mapped ?_
    simp only [StoreWorld.perform, assembled]
  have second : (OCRApplicationService.storage (.stat session.upload.objectKey)).alone
      (unfailing settings bucket consumer now) w₁ = some (.ok (some ⟨session.upload.objectKey,
        session.document.data.sizeBytes, session.document.metadataSha256, session.document.contentType⟩), w₁) := by
    refine alone_mapped ?_
    simp only [StoreWorld.perform, World.perform, stored.1]
    rfl
  have third : (OCRApplicationService.storageOrMissing (.getBytes session.upload.objectKey) .uploadNotCompleted
      "upload_object_missing").alone (unfailing settings bucket consumer now) w₁ =
      some (.ok session.document.data, w₁) := by
    refine Prog.alone_mapError (alone_mapped ?_)
    simp only [StoreWorld.perform, World.perform, stored.1]
    rfl
  refine ⟨dto, w', ?_, completed⟩
  unfold OCRApplicationService.checkUpload
  rw [key, multipart, Prog.alone_bind first, Prog.alone_bind second]
  dsimp only
  rw [announced.not_mismatches own, if_neg Bool.false_ne_true, Prog.alone_bind third]
  exact verified

/-- A call that nothing stops completes the session, unless an earlier one has
completed its multipart upload and nobody stored that. -/
theorem completeUpload_alone (announced : session.Announced) (kept : session.Kept settings bucket w)
    (right : session.Right call) :
    ∃ r w', ((completions settings bucket).program call).alone (unfailing settings bucket consumer now) w =
      some (r, w') ∧ (session.Completed w' ↔ session.Waiting w ∨ session.Completed w) := by
  obtain ⟨row, there, free, own⟩ := kept.row
  obtain ⟨uploadId, ownerId, parts⟩ := right.called
  have read : (OCRApplicationService.database (.getUpload call.uploadId)).alone
      (unfailing settings bucket consumer now) w = some (.ok (some row.upload), w) := by
    refine alone_mapped ?_
    simp only [StoreWorld.perform, World.perform, World.getUpload, uploadId, there, free]
    rfl
  have owned : (OCRApplicationService.ownedUpload call.uploadId call.ownerId).alone
      (unfailing settings bucket consumer now) w = some (.ok row.upload, w) := by
    have owner : row.upload.ownerId = call.ownerId := by rw [ownerId, own.2]
    unfold OCRApplicationService.ownedUpload
    rw [Prog.alone_bind read]
    dsimp only
    rw [if_neg (not_not.mpr owner)]
    rfl
  have sha256 : call.providedSha256.any (· ≠ row.upload.sha256) = false := by
    cases provided : call.providedSha256 with
    | none => rfl
    | some sha256 =>
      have same : sha256 = row.upload.sha256 := by rw [right.sha256 sha256 provided, own.2]
      simp [same]
  have multipart : ¬ ((row.upload.multipartUploadId.any (· ≠ "")) ∧
      call.multipartUploadId ≠ row.upload.multipartUploadId) := by
    have same : row.upload.multipartUploadId = session.upload.multipartUploadId := by rw [own.2]
    rw [same]
    cases multipart : session.upload.multipartUploadId with
    | none => simp
    | some uploadId => simp [right.multipart uploadId multipart]
  change ∃ r w', (OCRApplicationService.completeUpload ..).alone _ w = _ ∧ _
  unfold OCRApplicationService.completeUpload
  rw [Prog.alone_bind owned, sha256, if_neg Bool.false_ne_true, if_neg multipart]
  cases state : row.upload.state with
  | rejected => exact absurd state own.1
  | completed =>
    have completed : session.Completed w := ⟨row, there, state⟩
    exact ⟨_, w, rfl, iff_of_true completed (.inr completed)⟩
  | uploading =>
    dsimp only
    rw [parts]
    by_cases waiting : session.Waiting w
    · obtain ⟨dto, w', ended, completed⟩ := checkUpload_alone announced kept own state waiting
      exact ⟨_, w', ended, iff_of_true completed (.inl waiting)⟩
    · obtain ⟨e, refused⟩ := complete_again settings bucket waiting
      have key : row.upload.objectKey = session.upload.objectKey := by rw [own.2]
      have same : row.upload.multipartUploadId = session.upload.multipartUploadId := by rw [own.2]
      have first : (OCRApplicationService.storage (.completeUpload session.upload.objectKey
          session.upload.multipartUploadId session.parts)).alone (unfailing settings bucket consumer now) w =
          some (.error (OCRApplicationService.storageError e), w) := by
        have raised : (await (.completeUpload session.upload.objectKey session.upload.multipartUploadId
            session.parts)).alone (unfailing settings bucket consumer now) w = some (.error e, w) := by
          refine alone_await ?_
          simp only [StoreWorld.perform, refused]
        exact Prog.alone_mapError raised
      refine ⟨.error (OCRApplicationService.storageError e), w, ?_, ?_⟩
      · unfold OCRApplicationService.checkUpload
        rw [key, same]
        exact Prog.alone_bind_error first
      · have unfinished : ¬ session.Completed w := by
          rintro ⟨other, here, completed⟩
          rw [there] at here
          cases here
          rw [state] at completed
          cases completed
        exact iff_of_false unfinished (not_or.mpr ⟨waiting, unfinished⟩)

end

end Session

variable {settings : Settings} {bucket : String} {session : Session}
  {first s : Sys Sig StoreWorld CompleteUpload Exc CompleteUploadDTO}

/-- After any calls of the owner, stopped anywhere, the next one completes the session
exactly when no multipart completion has taken effect yet or the session is completed. -/
theorem complete_upload_repeated_iff (uploaded : session.Uploaded settings bucket first.world)
    (fresh : first.calls = []) (run : (completions settings bucket).Run session.Permits first s)
    {call : CompleteUpload} (right : session.Right call) (now : Time) :
    ∃ n past result w', (completions settings bucket).runs s
        (.start call :: List.replicate n (.resume s.calls.length { answer := .time now })) =
      some ⟨w', s.calls ++ [⟨call, past, .ret result⟩]⟩ ∧
      (session.Completed w' ↔ session.Waiting s.world ∨ session.Completed s.world) := by
  have start : session.Invariant settings bucket first := by
    refine ⟨uploaded.kept, fun call member => ?_⟩
    rw [fresh] at member
    cases member
  have none : ∀ call ∈ first.calls, Tracks Session.ghost (fun _ => false) session.contractOf (fun _ _ _ => True)
      (fun _ _ _ => True) call := by
    intro call member
    rw [fresh] at member
    cases member
  have kept := ((Session.sound uploaded.toAnnounced).run start none run).1.1
  obtain ⟨result, w', ends, completed⟩ : ∃ result w', ((completions settings bucket).program call).alone
      (fun op w => (completions settings bucket).exec s.calls.length op { answer := .time now } w) s.world =
      some (result, w') ∧ (session.Completed w' ↔ session.Waiting s.world ∨ session.Completed s.world) :=
    Session.completeUpload_alone uploaded.toAnnounced kept right
  obtain ⟨n, past, runs⟩ := Machine.runs_call ends
  exact ⟨n, past, result, w', runs, completed⟩

/-! ### The deployment under the calls of a session -/

def CompleteUpload.toTask (call : CompleteUpload) : Task :=
  .completeUpload call.uploadId call.ownerId call.providedSha256 call.multipartUploadId call.parts

/-- The call as one of the whole system. -/
def systemCall (call : Call Sig CompleteUpload Exc CompleteUploadDTO) : Call Sig Task Exc Reply where
  task := call.task.toTask
  past := call.past
  prog := call.prog >>= fun dto => pure (.completed dto)

def systemState (s : Sys Sig StoreWorld CompleteUpload Exc CompleteUploadDTO) : State where
  world := s.world.base
  calls := s.calls.map systemCall

theorem step_refines {s s' : Sys Sig StoreWorld CompleteUpload Exc CompleteUploadDTO}
    {action : Action CompleteUpload Choice Empty} (step : (completions settings bucket).step s action = some s') :
    ∃ action, (system settings).step (systemState s) action = some (systemState s') := by
  cases action with
  | start call =>
    cases step
    refine ⟨.start call.toTask, ?_⟩
    simp only [Machine.step, systemState, List.map_append, List.map_singleton]
    rfl
  | resume i choice =>
    obtain ⟨call, op, next, r, w, found, prog, executed, rfl⟩ := Machine.step_resume step
    obtain ⟨choice', moved⟩ := StoreWorld.exec_refines executed
    have there : (systemState s).calls[i]? = some (systemCall call) := by
      rw [systemState, List.getElem?_map, found]
      rfl
    have same : (systemCall call).prog = .call op fun r => next r >>= fun dto => pure (.completed dto) := by
      rw [systemCall, prog]
      rfl
    have taken : (system settings).exec i op choice' (systemState s).world = some (r, w.base) := moved
    refine ⟨.resume i choice', ?_⟩
    simp only [Machine.step, there, same, taken]
    simp only [systemState, List.map_set]
    rfl
  | kill i =>
    cases step
    refine ⟨.kill i, ?_⟩
    simp only [Machine.step, systemState, Option.some.injEq, Sys.mk.injEq, true_and]
    apply List.ext_getElem?
    intro j
    simp only [List.getElem?_modify, List.getElem?_map]
    cases s.calls[j]? with
    | none => rfl
    | some call => by_cases here : i = j <;> simp only [here, if_true, if_false] <;> rfl
  | env event => exact event.elim

/-- What holds in every run of the system holds under the calls of a session. -/
theorem run_refines {ok : Sys Sig StoreWorld CompleteUpload Exc CompleteUploadDTO →
      Action CompleteUpload Choice Empty → Prop} (run : (completions settings bucket).Run ok first s) :
    Reaches settings (systemState first) (systemState s) := by
  induction run with
  | start => exact .start
  | next _ _ step ih =>
    obtain ⟨action, moved⟩ := step_refines step
    exact .next ih trivial moved

/-- A document of one part, as its client has put it. -/
def onePart : Session where
  upload :=
    { id := 1, ownerId := 7, filename := "scan.pdf", sizeBytes := 5, contentType := "application/pdf"
      sha256 := (Content.raw [37, 80, 68, 70, 45]).sha256, objectKey := .source 1, state := .uploading
      createdAt := 0, completedAt := none, detectedContentType := none, multipartUploadId := some "upload" }
  document := ⟨.raw [37, 80, 68, 70, 45], "application/pdf", none⟩
  parts := [(1, "tag")]

def onePartPut : Sys Sig StoreWorld CompleteUpload Exc CompleteUploadDTO where
  world :=
    { base :=
        { nextId := 2
          uploads := fun id => if id = 1 then some { upload := onePart.upload, expiresAt := 3600 } else none
          objects := fun _ => none }
      uploads := fun key uploadId => if key = .source 1 ∧ uploadId = "upload" then
        some fun parts => if parts = [(1, "\"tag\"")] then .ok onePart.document else .error (.code "InvalidPart")
        else none }
  calls := []

def onePartCall : CompleteUpload := ⟨1, 7, none, some "upload", [(1, "tag")]⟩

theorem onePart_uploaded : onePart.Uploaded {} "bucket" onePartPut.world where
  size := rfl
  sha256 := rfl
  metadata := fun _ some => nomatch some
  accepted := ⟨"application/pdf", by rfl⟩
  uploading := rfl
  row := ⟨_, rfl, rfl, rfl⟩
  put := .inr ⟨"upload", [(1, "\"tag\"")], _, rfl, by decide +kernel, rfl, rfl⟩

theorem onePart_right : onePart.Right onePartCall where
  called := ⟨rfl, rfl, rfl⟩
  sha256 := fun _ some => nomatch some
  multipart := fun _ same => same

/-- A process dies before it completes the upload at the store, and a call that names
another multipart upload fails. -/
def onePartTries : List (Action CompleteUpload Choice Empty) :=
  [.start onePartCall, .resume 0 .go, .kill 0, .start { onePartCall with multipartUploadId := some "other" },
    .resume 1 .go]

/-- The next call completes it. -/
theorem complete_upload_repeated_tried : ∃ s n past result w',
    (completions {} "bucket").runs onePartPut onePartTries = some s ∧
      (s.calls.map fun call => match call.prog with | .ret (.error e) => some e | _ => none) =
        [none, some (.business .commonStateConflict "multipart_upload_id_mismatch")] ∧
      (completions {} "bucket").runs s
          (.start onePartCall :: List.replicate n (.resume s.calls.length { answer := .time 5 })) =
        some ⟨w', s.calls ++ [⟨onePartCall, past, .ret result⟩]⟩ ∧ onePart.Completed w' := by
  have tried : ((completions {} "bucket").runs onePartPut onePartTries).any (fun s => decide
      ((s.calls.map fun call => match call.prog with | .ret (.error e) => some e | _ => none) =
          [none, some (.business .commonStateConflict "multipart_upload_id_mismatch")] ∧
        (s.world.uploads (.source 1) "upload").isSome = true)) = true := by decide +kernel
  obtain ⟨s, tries, facts⟩ := (Option.any_eq_true _ _).mp tried
  obtain ⟨replies, there⟩ := of_decide_eq_true facts
  have run : (completions {} "bucket").Run onePart.Permits onePartPut s := by
    apply Machine.Run.of_runs tries
    intro s' action member
    simp only [onePartTries, List.mem_cons, List.not_mem_nil, or_false] at member
    rcases member with rfl | rfl | rfl | rfl | rfl
    · exact ⟨rfl, rfl, rfl⟩
    · trivial
    · trivial
    · exact ⟨rfl, rfl, rfl⟩
    · trivial
  have waiting : onePart.Waiting s.world := by
    intro uploadId same
    cases same
    exact there
  obtain ⟨n, past, result, w', runs, completed⟩ :=
    complete_upload_repeated_iff onePart_uploaded rfl run onePart_right 5
  exact ⟨s, n, past, result, w', tries, replies, runs, completed.mpr (.inl waiting)⟩

/-- A process dies between the completion at the store and the save, and the client asks again. -/
theorem complete_upload_repeated_cut :
    onePart.Uploaded {} "bucket" onePartPut.world ∧ onePart.Right onePartCall ∧
      ((completions {} "bucket").runs onePartPut
          [.start onePartCall, .resume 0 .go, .resume 0 .go, .kill 0,
            .start onePartCall, .resume 1 .go, .resume 1 .go]).map (fun s =>
        ((s.world.base.uploads 1).map (·.upload.state), s.calls.map fun call =>
          match call.prog with | .ret (.error e) => some e | _ => none)) =
      some (some .uploading, [none, some .storageUnavailable]) :=
  ⟨onePart_uploaded, onePart_right, by decide +kernel⟩

end Multipart

end MonkeyOcr
