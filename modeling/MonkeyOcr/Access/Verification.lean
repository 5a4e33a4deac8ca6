import MonkeyOcr.Access.Isolation
import MonkeyOcr.Cleanup.Sources
import MonkeyOcr.Objects.Change
import MonkeyOcr.Objects.Writes

namespace MonkeyOcr

open Calls

/-- The call was told of the upload, and that it awaits its document. -/
def awaits (id : Id) : ((op : Op) × Except Exc op.Val) → Bool
  | ⟨.getUpload _, .ok (some upload)⟩ => upload.id = id ∧ upload.state = .uploading
  | _ => false

/-- The call was told of the object at the key. -/
def looksAt (key : ObjectKey) : ((op : Op) × Except Exc op.Val) → Bool
  | ⟨.stat other, .ok (some _)⟩ => other = key
  | ⟨.getBytes other, .ok _⟩ => other = key
  | _ => false

/-- A `complete_upload` that has found the upload awaiting its document, and
has not ended. -/
def checking (id : Id) (call : SystemCall) : Bool :=
  call.task.completes && running call && call.past.any (awaits id)

/-- How `complete_upload` judges an object: whether its description differs from
the one given for the upload, and whether it has the hash given. -/
def judged (upload : Upload) (object : StoredContent) : Bool × Bool :=
  (OCRApplicationService.mismatches upload
    ⟨upload.objectKey, object.data.sizeBytes, object.metadataSha256, object.contentType⟩,
    decide (object.data.sha256 = upload.sha256))

/-- The upload whose object a call puts next, and the object. -/
def replacing? (call : SystemCall) (choice : Choice) : Option (Id × StoredContent) :=
  match call.prog with
  | .call (.presignedPut id object) _ => some (id, object)
  | .call (.completeUpload (.source id) (some _) _) _ =>
    match choice.answer with
    | .assembled object => some (id, object)
    | _ => none
  | _ => none

/-- A call is checking the object of the upload, and has looked at it or began
before the upload was completed. -/
def relied (s : State) (id : Id) (row : UploadRow) : Bool :=
  s.calls.any fun call => checking id call &&
    (decide (row.upload.state = .completed) || call.past.any (looksAt (.source id)))

/-- The object that is put is judged in the way of the one it replaces, if a
running check relies on that. -/
def Replaces (s : State) (id : Id) (object : StoredContent) : Prop :=
  ∀ row ∈ s.world.uploads id, row.claim.isSome = false → relied s id row = true →
    ∀ old ∈ s.world.objects (.source id), judged row.upload object = judged row.upload old

instance (s : State) (id : Id) (object : StoredContent) : Decidable (Replaces s id object) :=
  inferInstanceAs (Decidable (∀ row ∈ s.world.uploads id, row.claim.isSome = false → relied s id row = true →
    ∀ old ∈ s.world.objects (.source id), judged row.upload object = judged row.upload old))

/-- While a `complete_upload` that has looked at an object is still running, or
any that began before the upload was completed, the object is only replaced by
one that it judges in the same way. -/
def Steady (s : State) : Step → Prop
  | .resume i choice => ∀ call ∈ s.calls[i]?, ∀ write ∈ replacing? call choice, Replaces s write.1 write.2
  | _ => True

instance (s : State) : ∀ action, Decidable (Steady s action)
  | .resume i choice =>
    inferInstanceAs (Decidable (∀ call ∈ s.calls[i]?, ∀ write ∈ replacing? call choice, Replaces s write.1 write.2))
  | .start _ | .kill _ | .env _ => isTrue trivial

/-- What was seen of the object of the upload is what it would be judged by now. -/
structure Past.SeesNow (past : Past) (w : World) (id : Id) (upload : Upload) : Prop where
  info : ∀ info, ⟨.stat (.source id), .ok (some info)⟩ ∈ past → ∃ object, w.objects (.source id) = some object ∧
    OCRApplicationService.mismatches upload info = (judged upload object).1
  data : ∀ data : Content, ⟨.getBytes (.source id), .ok data⟩ ∈ past →
    ∃ object, w.objects (.source id) = some object ∧ decide (data.sha256 = upload.sha256) = (judged upload object).2

/-- The uploads, and what those who check them know of their objects. -/
structure Verified (s : State) : Prop where
  looks : ∀ call ∈ s.calls, call.task.completes = true → ∀ id, call.past.any (looksAt (.source id)) = true →
    call.past.any (awaits id) = true
  seen : ∀ call ∈ s.calls, ∀ id, checking id call = true → ∀ row, s.world.uploads id = some row →
    row.claim.isSome = false → Past.SeesNow call.past s.world id row.upload
  completed : ∀ call ∈ s.calls, ∀ id, checking id call = true → ∀ row, s.world.uploads id = some row →
    row.claim.isSome = false → row.upload.state = .completed →
      ∃ object, s.world.objects (.source id) = some object ∧ judged row.upload object = (false, true)
  read : ∀ call ∈ s.calls, ∀ id upload, ⟨.getUpload id, .ok (some upload)⟩ ∈ call.past →
    upload.state = .completed → ∀ row, s.world.uploads upload.id = some row → row.upload.state = .completed
  jobs : ∀ id job, s.world.jobs id = some job → ∀ row, s.world.uploads job.uploadId = some row →
    row.upload.state = .completed

section

variable {settings : Settings} {first s s' : State} {action : Step} {call : SystemCall} {op : Op} {id : Id}
  {upload : Upload} {row row' : UploadRow} {i : Nat} {choice : Choice} {r : Except Exc op.Val} {w : World} {past : Past}
  {old : StoredContent} {next : Except Exc op.Val → Program Reply}

theorem checking_iff : checking id call = true ↔
    call.task.completes = true ∧ running call = true ∧ call.past.any (awaits id) = true := by
  rw [checking, Bool.and_eq_true, Bool.and_eq_true, and_assoc]

theorem any_awaits : past.any (awaits id) = true ↔
    ∃ at_id upload, ⟨.getUpload at_id, .ok (some upload)⟩ ∈ past ∧ upload.id = id ∧ upload.state = .uploading := by
  rw [List.any_eq_true]
  constructor
  · intro ⟨⟨op, r⟩, member, told⟩
    unfold awaits at told
    split at told
    · rename_i at_id upload same
      cases same
      exact ⟨at_id, upload, member, by simpa using told⟩
    · cases told
  · intro ⟨at_id, upload, member, own, state⟩
    exact ⟨_, member, decide_eq_true ⟨own, state⟩⟩

theorem any_looksAt_stat {key : ObjectKey} {info : ObjectInfo} (done : ⟨.stat key, .ok (some info)⟩ ∈ past) :
    past.any (looksAt key) = true := List.any_eq_true.mpr ⟨_, done, decide_eq_true rfl⟩

theorem any_looksAt_getBytes {key : ObjectKey} {data : Content} (done : ⟨.getBytes key, .ok data⟩ ∈ past) :
    past.any (looksAt key) = true := List.any_eq_true.mpr ⟨_, done, decide_eq_true rfl⟩

/-- The verdict is about what the session says of its document. -/
theorem mismatches_session {upload' : Upload} (same : upload'.session = upload.session) (info : ObjectInfo) :
    OCRApplicationService.mismatches upload' info = OCRApplicationService.mismatches upload info := by
  have sizeBytes : upload'.session.sizeBytes = upload.session.sizeBytes := congrArg Upload.sizeBytes same
  have sha256 : upload'.session.sha256 = upload.session.sha256 := congrArg Upload.sha256 same
  change upload'.sizeBytes = upload.sizeBytes at sizeBytes
  change upload'.sha256 = upload.sha256 at sha256
  rw [OCRApplicationService.mismatches, OCRApplicationService.mismatches, sizeBytes, sha256]

theorem sha256_session {upload' : Upload} (same : upload'.session = upload.session) :
    upload'.sha256 = upload.sha256 := (congrArg Upload.sha256 same : upload'.session.sha256 = upload.session.sha256)

theorem judged_session {upload' : Upload} (same : upload'.session = upload.session) :
    judged upload' old = judged upload old := by
  have objectKey : upload'.session.objectKey = upload.session.objectKey := congrArg Upload.objectKey same
  change upload'.objectKey = upload.objectKey at objectKey
  rw [judged, judged, mismatches_session same, sha256_session same, objectKey]

/-- An object of an upload that is checked is only replaced by one that is
judged in the same way. -/
theorem Steady.object (fit : SweepsFit s) (storing : ∀ call ∈ s.calls, Storing call) (steady : Steady s action)
    (moves : Moves settings s action s') (member : call ∈ s.calls) (checks : checking id call = true)
    (found : s.world.uploads id = some row) (free : row.claim.isSome = false)
    (matters : row.upload.state = .completed ∨ call.past.any (looksAt (.source id)) = true)
    (there : s.world.objects (.source id) = some old) :
    ∃ object, s'.world.objects (.source id) = some object ∧ judged row.upload object = judged row.upload old := by
  cases moves with
  | start => exact ⟨old, there, rfl⟩
  | kill => exact ⟨old, there, rfl⟩
  | env event =>
    rw [World.rebalance_kafka]
    exact ⟨old, there, rfl⟩
  | @resume i choice moved op r next w at_i prog executed allowed =>
    have here := List.mem_of_getElem? at_i
    have replaces : ∀ object, (id, object) ∈ replacing? moved choice →
        judged row.upload object = judged row.upload old := by
      intro object write
      refine steady moved at_i (id, object) write row found free ?_ old there
      rcases matters with completed | looked
      · exact List.any_eq_true.mpr ⟨call, member, by simp [checks, completed]⟩
      · exact List.any_eq_true.mpr ⟨call, member, by simp only [checks, looked, Bool.or_true, Bool.and_self]⟩
    have change := World.exec_objects executed (.source id)
    rw [there] at change
    cases after : w.objects (.source id) with
    | none =>
      rw [after] at change
      cases change with
      | deleted deletes =>
        subst deletes
        obtain ⟨candidate, held, names⟩ := (fit.sweeping moved here).calls prog rfl
        have fits := fit.claimed moved here candidate held
        cases kind : candidate.aggregateKind with
        | job => cases (fits.job kind).2.1 _ names
        | upload =>
          obtain ⟨-, source, rows⟩ := fits.upload kind
          rw [source, List.mem_singleton] at names
          have claimed := rows row (by rw [← ObjectKey.source.inj names]; exact found)
          rw [free] at claimed
          cases claimed
    | some object =>
      refine ⟨object, rfl, ?_⟩
      rw [after] at change
      cases change with
      | same => rfl
      | put puts =>
        subst puts
        cases (storing moved here).puts prog allowed
      | prepared _ _ _ own => cases own
      | uploaded uploads own =>
        cases own
        subst uploads
        exact replaces object (by rw [replacing?, prog]; rfl)
      | assembled assembles answer =>
        subst assembles
        exact replaces object (by rw [replacing?, prog]; simp only [answer]; rfl)

/-- What a call knows that is about to save its verdict. -/
theorem Verified.concludes {ownerId : Id} (verified : Verified s) (owners : Owners s) (member : call ∈ s.calls)
    (prog : call.prog = .call op next) (completing : call.task.completes = true)
    (checks : Past.Checks call.past ownerId upload) (own : upload.id = id) (found : s.world.uploads id = some row)
    (unclaimed : row.claim.isSome = false) :
    checking id call = true ∧ row.upload.session = upload.session ∧ upload.objectKey = .source id ∧
      Past.SeesNow call.past s.world id row.upload := by
  subst own
  have awaited : call.past.any (awaits upload.id) = true := any_awaits.mpr ⟨_, upload, checks.read, rfl, checks.state⟩
  have checksIt := checking_iff.mpr ⟨completing, running_of prog, awaited⟩
  have session := (checks.toOwnsUpload.uploadIs (owners.past call member)).row row found
  have source := (owners.told_upload member checks.read).2.1
  exact ⟨checksIt, session, source, verified.seen call member _ checksIt row found unclaimed⟩

/-- An upload that was completed stays completed: who would reject it has seen
what is no longer there. -/
theorem Verified.kept (owners : Owners s) (verified : Verified s) (moves : Moves settings s action s')
    (found : s.world.uploads id = some row) (completed : row.upload.state = .completed)
    (stored : s'.world.uploads id = some row') : row'.upload.state = .completed := by
  have same : ∀ before, s.world.uploads id = some before → some before = some row' →
      row'.upload.state = .completed := by
    intro before there unchanged
    cases Option.some.inj (found.symm.trans there)
    cases unchanged
    exact completed
  cases moves with
  | start => exact same row' stored rfl
  | kill => exact same row' stored rfl
  | env event =>
    rw [World.rebalance_kafka] at stored
    exact same row' stored rfl
  | @resume i choice call op r next w at_i prog executed allowed =>
    have member := List.mem_of_getElem? at_i
    have change := World.exec_uploads (Task.contract_writes allowed) executed id
    rw [show w.uploads id = some row' from stored, found] at change
    cases change with
    | same => exact completed
    | claimed => exact completed
    | deferred => exact completed
    | @saved _ upload' saves own free =>
      subst saves
      obtain ⟨ownerId, owner⟩ := Task.contract_owner allowed rfl
      obtain ⟨completing, upload, checks, concluded⟩ := (owners.accessing call member).requests prog owner
      rcases concluded with ⟨rfl, refutes⟩ | ⟨detected, now, done, -⟩
      · change upload.id = id at own
        have unclaimed : row.claim.isSome = false := by rw [free]; rfl
        obtain ⟨checksIt, session, source, sees⟩ :=
          verified.concludes owners member prog completing checks own found unclaimed
        obtain ⟨object, there, verdict⟩ := verified.completed call member id checksIt row found unclaimed completed
        rcases refutes with ⟨info, told, mismatch⟩ | ⟨data, told, different⟩
        · rw [source] at told
          obtain ⟨object', there', agrees⟩ := sees.info info told
          cases Option.some.inj (there.symm.trans there')
          rw [mismatches_session session, mismatch, verdict] at agrees
          cases agrees
        · rw [source] at told
          obtain ⟨object', there', agrees⟩ := sees.data data told
          cases Option.some.inj (there.symm.trans there')
          rw [sha256_session session, decide_eq_false different, verdict] at agrees
          cases agrees
      · unfold Upload.complete at done
        split at done
        · cases done
        · cases done
          rfl

/-- What a call is told of the object is what is there. -/
theorem Past.SeesNow.answered (sees : past.SeesNow w id upload)
    (executed : World.exec settings i op choice s.world = some (r, w)) :
    Past.SeesNow (⟨op, r⟩ :: past) w id upload := by
  refine ⟨fun info told => ?_, fun data told => ?_⟩
  · rcases List.mem_cons.mp told with here | before
    · cases here
      obtain ⟨answer, same⟩ := Prod.mk.inj (Option.some.inj (World.exec_ok executed))
      obtain ⟨object, there, rfl⟩ := Option.map_eq_some_iff.mp (Except.ok.inj answer)
      rw [← same]
      exact ⟨object, there, rfl⟩
    · exact sees.info info before
  · rcases List.mem_cons.mp told with here | before
    · cases here
      have performed := World.exec_ok executed
      simp only [World.perform] at performed
      split at performed
      · rename_i object there
        cases performed
        exact ⟨object, there, rfl⟩
      · cases performed
    · exact sees.data data before

/-- An upload that is checked, and still there, was there before. -/
theorem Owners.checked (owners : Owners s) (moves : Moves settings s action s') (member : call ∈ s.calls)
    (checks : checking id call = true) (stored : s'.world.uploads id = some row') (free : row'.claim.isSome = false) :
    ∃ row, s.world.uploads id = some row ∧ row.claim.isSome = false ∧ row'.upload.session = row.upload.session := by
  obtain ⟨at_id, upload, told, own, -⟩ := any_awaits.mp (checking_iff.mp checks).2.2
  have born : ¬ Unborn s id := own ▸ (owners.told_upload member told).2.2.born
  rcases moves.upload stored with ⟨unborn, -⟩ | ⟨row, found, ⟨state, detected, completed, same⟩, claimed⟩
  · exact absurd unborn born
  · refine ⟨row, found, ?_, ?_⟩
    · by_contra held
      rw [claimed (Bool.eq_true_of_not_eq_false held)] at free
      cases free
    · rw [same]
      rfl

/-- What a call has seen of the object stays true while it checks the upload. -/
theorem Verified.seen_moves (owners : Owners s) (fit : SweepsFit s) (storing : ∀ call ∈ s.calls, Storing call)
    (verified : Verified s) (steady : Steady s action) (moves : Moves settings s action s') (member : call ∈ s.calls)
    (checks : checking id call = true) (stored : s'.world.uploads id = some row') (free : row'.claim.isSome = false) :
    Past.SeesNow call.past s'.world id row'.upload := by
  obtain ⟨row, found, unclaimed, session⟩ := owners.checked moves member checks stored free
  have sees := verified.seen call member id checks row found unclaimed
  refine ⟨fun info told => ?_, fun data told => ?_⟩
  · obtain ⟨old, there, agrees⟩ := sees.info info told
    obtain ⟨object, now, same⟩ :=
      steady.object fit storing moves member checks found unclaimed (.inr (any_looksAt_stat told)) there
    refine ⟨object, now, ?_⟩
    rw [mismatches_session session, judged_session session, same, agrees]
  · obtain ⟨old, there, agrees⟩ := sees.data data told
    obtain ⟨object, now, same⟩ :=
      steady.object fit storing moves member checks found unclaimed (.inr (any_looksAt_getBytes told)) there
    refine ⟨object, now, ?_⟩
    rw [sha256_session session, judged_session session, same, agrees]

/-- An upload is completed by a call that has seen its document. -/
theorem Verified.completes (owners : Owners s) (verified : Verified s) (moves : Moves settings s action s')
    (found : s.world.uploads id = some row) (unclaimed : row.claim.isSome = false)
    (waiting : row.upload.state ≠ .completed) (stored : s'.world.uploads id = some row')
    (completed : row'.upload.state = .completed) :
    ∃ object, s'.world.objects (.source id) = some object ∧ judged row'.upload object = (false, true) := by
  have changed : ∀ before, s.world.uploads id = some before → some before ≠ some row' := by
    intro before there unchanged
    cases Option.some.inj (found.symm.trans there)
    cases unchanged
    exact waiting completed
  cases moves with
  | start => exact absurd rfl (changed row' stored)
  | kill => exact absurd rfl (changed row' stored)
  | env event =>
    rw [World.rebalance_kafka] at stored
    exact absurd rfl (changed row' stored)
  | @resume i choice call op r next w at_i prog executed allowed =>
    have member := List.mem_of_getElem? at_i
    have change := World.exec_uploads (Task.contract_writes allowed) executed id
    rw [show w.uploads id = some row' from stored, found] at change
    cases change with
    | same => exact absurd completed waiting
    | claimed => exact absurd completed waiting
    | deferred => exact absurd completed waiting
    | @saved _ upload' saves own free =>
      subst saves
      obtain ⟨ownerId, owner⟩ := Task.contract_owner allowed rfl
      obtain ⟨completing, upload, checks, concluded⟩ := (owners.accessing call member).requests prog owner
      rcases concluded with ⟨rfl, -⟩ | ⟨detected, now, done, verifies⟩
      · cases completed
      · have same : upload'.id = upload.id := by
          unfold Upload.complete at done
          split at done
          · cases done
          · cases done
            rfl
        rw [same] at own
        obtain ⟨-, session, source, sees⟩ :=
          verified.concludes owners member prog completing checks own found unclaimed
        obtain ⟨⟨info, told, matching⟩, data, read, hashed⟩ := verifies
        rw [source] at told read
        obtain ⟨object, there, described⟩ := sees.info info told
        obtain ⟨object', there', agrees⟩ := sees.data data read
        cases Option.some.inj (there.symm.trans there')
        have unchanged : w.objects = s.world.objects :=
          World.exec_same (show Part.objects ∉ _ by simp [Op.writes]) executed
        refine ⟨object, (congrFun unchanged _).trans there, ?_⟩
        rw [mismatches_session session, matching] at described
        rw [sha256_session session, decide_eq_true hashed] at agrees
        exact Prod.ext described.symm agrees.symm

/-- Who checks an upload once it is completed knows its document to be there. -/
theorem Verified.completed_moves (owners : Owners s) (fit : SweepsFit s) (storing : ∀ call ∈ s.calls, Storing call)
    (verified : Verified s) (steady : Steady s action) (moves : Moves settings s action s') (member : call ∈ s.calls)
    (checks : checking id call = true) (stored : s'.world.uploads id = some row') (free : row'.claim.isSome = false)
    (completed : row'.upload.state = .completed) :
    ∃ object, s'.world.objects (.source id) = some object ∧ judged row'.upload object = (false, true) := by
  obtain ⟨row, found, unclaimed, session⟩ := owners.checked moves member checks stored free
  by_cases before : row.upload.state = .completed
  · obtain ⟨old, there, verdict⟩ := verified.completed call member id checks row found unclaimed before
    obtain ⟨object, now, same⟩ := steady.object fit storing moves member checks found unclaimed (.inl before) there
    refine ⟨object, now, ?_⟩
    rw [judged_session session, same, verdict]
  · exact verified.completes owners moves found unclaimed before stored completed

theorem Initial.verified (initial : Initial s) : Verified s where
  looks := by simp [initial.calls]
  seen := by simp [initial.calls]
  completed := by simp [initial.calls]
  read := by simp [initial.calls]
  jobs id job stored := by
    rw [initial.world.jobs] at stored
    cases stored

/-- The upload of a job is a completed one. -/
theorem Verified.jobs_moves (coherent : Coherent s) (owners : Owners s) (verified : Verified s)
    (moves : Moves settings s action s') {job' : JobRow} (stored : s'.world.jobs id = some job')
    (found : s'.world.uploads job'.uploadId = some row') : row'.upload.state = .completed := by
  have back : ∀ uploadId, ¬ Unborn s uploadId → job'.uploadId = uploadId → 
      (∀ row, s.world.uploads uploadId = some row → row.upload.state = .completed) → row'.upload.state = .completed := by
    intro uploadId born uses completed
    rw [uses] at found
    obtain ⟨row, there, -⟩ := moves.session born found
    exact verified.kept owners moves there (completed row there) found
  by_cases born : Unborn s id
  · have absent := coherent.consistent.absent id born
    cases moves with
    | start =>
      rw [absent] at stored
      cases stored
    | kill =>
      rw [absent] at stored
      cases stored
    | env =>
      rw [World.rebalance_kafka, absent] at stored
      cases stored
    | @resume i choice call op r next w at_i prog executed allowed =>
      have member := List.mem_of_getElem? at_i
      have change := coherent.consistent.rows at_i (Task.contract_writes allowed) executed id
      rw [show w.jobs id = some job' from stored, absent] at change
      cases change with
      | @inserted job outboxEvent event days same own drawn new reports type there =>
        subst same
        obtain ⟨ownerId, owner⟩ := Task.contract_owner allowed rfl
        obtain ⟨-, ⟨upload, owns, completed, uses⟩, -⟩ := (owners.accessing call member).requests prog owner
        refine back upload.id (owns.uploadIs (owners.past call member)).born ?_ ?_
        · rw [JobRow.append_uploadId]
          exact uses.symm
        · exact verified.read call member _ upload owns.read completed
  · obtain ⟨before, there, same⟩ := moves.birth coherent owners.births born stored
    have uploadId : job'.uploadId = before.uploadId := congrArg Birth.uploadId same
    exact back before.uploadId (owners.jobs id before there).born uploadId (verified.jobs id before there)

theorem looksAt_asks {key : ObjectKey} (looked : looksAt key ⟨op, r⟩ = true) :
    op = .stat key ∨ op = .getBytes key := by
  cases op with
  | stat other =>
    rcases r with e | _ | info
    · cases looked
    · cases looked
    · exact .inl (by rw [of_decide_eq_true (show decide (other = key) = true from looked)])
  | getBytes other =>
    cases r with
    | error e => cases looked
    | ok data => exact .inr (by rw [of_decide_eq_true (show decide (other = key) = true from looked)])
  | _ => cases looked

theorem Task.owner_of_completes {task : Task} (completes : task.completes = true) :
    ∃ ownerId, task.owner? = some ownerId := by
  cases task with
  | completeUpload => exact ⟨_, rfl⟩
  | _ => cases completes

/-- A call looks at the object of an upload that it has found awaiting it. -/
theorem Verified.looks_answered (owners : Owners s) (verified : Verified s) (member : call ∈ s.calls)
    (prog : call.prog = .call op next) (completes : call.task.completes = true)
    (looked : List.any (⟨op, r⟩ :: call.past) (looksAt (.source id)) = true) : call.past.any (awaits id) = true := by
  rcases (Bool.or_eq_true _ _).mp looked with here | before
  · obtain ⟨ownerId, owner⟩ := Task.owner_of_completes completes
    have requested := (owners.accessing call member).requests prog owner
    have checks : ∃ upload, Past.Checks call.past ownerId upload ∧ upload.objectKey = .source id := by
      rcases looksAt_asks here with rfl | rfl
      · exact requested.2
      · exact requested.2
    obtain ⟨upload, checks, key⟩ := checks
    have source := (owners.told_upload member checks.read).2.1
    rw [key] at source
    exact any_awaits.mpr ⟨_, upload, checks.read, (ObjectKey.source.inj source).symm, checks.state⟩
  · exact verified.looks call member completes id before

/-- A call whose answer has it check the upload checked it before, or has just
found it awaiting its document and has seen nothing of the object. -/
theorem Verified.checking_answered (owners : Owners s) (verified : Verified s) (member : call ∈ s.calls) (prog : call.prog = .call op next)
    (executed : World.exec settings i op choice s.world = some (r, w))
    (checks : checking id (call.answered (S := Sig) op r next) = true) :
    checking id call = true ∨ w = s.world ∧ call.past.any (looksAt (.source id)) = false ∧
      ∀ row, w.uploads id = some row → row.upload.state = .uploading := by
  obtain ⟨completes, -, awaited⟩ := checking_iff.mp checks
  by_cases before : call.past.any (awaits id) = true
  · exact .inl (checking_iff.mpr ⟨completes, running_of prog, before⟩)
  · obtain ⟨at_id, upload, told, own, state⟩ := any_awaits.mp awaited
    rcases List.mem_cons.mp told with here | earlier
    · cases here
      obtain ⟨same, read⟩ := World.exec_getUpload executed
      obtain ⟨row, found, -, rfl⟩ := World.getUpload_row read.symm
      have here : at_id = id := (owners.uploads at_id row found).1.symm.trans own
      subst here
      refine .inr ⟨same, ?_, fun other there => ?_⟩
      · by_contra looked
        exact before (verified.looks call member completes _ (Bool.eq_true_of_not_eq_false looked))
      · rw [same] at there
        cases Option.some.inj (found.symm.trans there)
        exact state
    · exact absurd (any_awaits.mpr ⟨at_id, upload, earlier, own, state⟩) before

/-- The step lemma: all checks keep seeing what is there, and no upload that was
completed is rejected. -/
theorem Verified.step (coherent : Coherent s) (owners : Owners s) (fit : SweepsFit s)
    (storing : ∀ call ∈ s.calls, Storing call) (verified : Verified s) (steady : Steady s action)
    (moves : Moves settings s action s') : Verified s' := by
  have begun : ∀ {id : Id} {task : Task}, checking id (Call.begin (system settings) task) ≠ true := by
    intro id task checks
    cases (checking_iff.mp checks).2.2
  have killed : ∀ {id : Id} {call : SystemCall}, checking id call.killed ≠ true := by
    intro id call checks
    cases (checking_iff.mp checks).2.1
  refine ⟨?_, ?_, ?_, ?_, fun id job stored row found => verified.jobs_moves coherent owners moves stored found⟩
  · refine moves.calls verified.looks (fun task _ id looked => by cases looked) (fun call held => held) ?_
    intro i choice call op r next member prog executed there completes id looked
    exact (Bool.or_eq_true _ _).mpr (.inr (verified.looks_answered owners member prog completes looked))
  · refine moves.calls (fun call member id checks row found free =>
      verified.seen_moves owners fit storing steady moves member checks found free)
      (fun task id checks => absurd checks begun) (fun call _ id checks => absurd checks killed) ?_
    intro i choice call op r next member prog executed there id checks row found free
    have sees : Past.SeesNow call.past s'.world id row.upload := by
      rcases verified.checking_answered owners member prog executed checks with before | ⟨-, unseen, -⟩
      · exact verified.seen_moves owners fit storing steady moves member before found free
      · refine ⟨fun info told => ?_, fun data told => ?_⟩
        · cases (any_looksAt_stat told).symm.trans unseen
        · cases (any_looksAt_getBytes told).symm.trans unseen
    exact sees.answered executed
  · refine moves.calls (fun call member id checks row found free completed =>
      verified.completed_moves owners fit storing steady moves member checks found free completed)
      (fun task id checks => absurd checks begun) (fun call _ id checks => absurd checks killed) ?_
    intro i choice call op r next member prog executed there id checks row found free completed
    rcases verified.checking_answered owners member prog executed checks with before | ⟨-, -, waiting⟩
    · exact verified.completed_moves owners fit storing steady moves member before found free completed
    · rw [waiting row found] at completed
      cases completed
  · have kept : ∀ call ∈ s.calls, ∀ id upload, ⟨.getUpload id, .ok (some upload)⟩ ∈ call.past →
        upload.state = .completed → ∀ row, s'.world.uploads upload.id = some row → row.upload.state = .completed := by
      intro call member id upload told state row' stored
      obtain ⟨row, found, -⟩ := moves.session (owners.told_upload member told).2.2.born stored
      exact verified.kept owners moves found (verified.read call member id upload told state row found) stored
    refine moves.calls kept (fun task id upload told => by cases told) (fun call held => held) ?_
    intro i choice call op r next member prog executed there id upload told
    rcases List.mem_cons.mp told with here | before
    · cases here
      obtain ⟨same, read⟩ := World.exec_getUpload executed
      obtain ⟨row, found, -, rfl⟩ := World.getUpload_row read.symm
      intro state row' stored
      rw [same, (owners.uploads id row found).1] at stored
      cases Option.some.inj (found.symm.trans stored)
      exact state
    · exact kept call member id upload before

/-- All that is known of a deployment that was only written to as `Steady` says. -/
structure Checked (s : State) : Prop where
  owners : Owners s
  fit : SweepsFit s
  storing : ∀ call ∈ s.calls, Storing call
  verified : Verified s

theorem Checked.step (coherent : Coherent s) (checked : Checked s) (steady : Steady s action)
    (moves : Moves settings s action s') : Checked s' where
  owners := checked.owners.step coherent moves
  fit := checked.fit.step coherent moves
  storing := moves.storing checked.storing
  verified := checked.verified.step coherent checked.owners checked.fit checked.storing steady moves

theorem Initial.checked (initial : Initial s) : Checked s :=
  ⟨initial.owners, initial.sweepsFit, by simp [initial.calls], initial.verified⟩

/-- As long as the object of an upload is not replaced by one that its running
checks judge in another way, an upload that was completed stays completed, and
so are the uploads of all jobs. -/
theorem verified_upload_permanent (initial : Initial first) (reached : (system settings).Run Steady first s)
    (run : (system settings).Run Steady s s') :
    (∀ id row row', s.world.uploads id = some row → row.upload.state = .completed →
      s'.world.uploads id = some row' → row'.upload.state = .completed) ∧
    ∀ id job row, s'.world.jobs id = some job → s'.world.uploads job.uploadId = some row →
      row.upload.state = .completed := by
  obtain ⟨coherent, checked⟩ := initial.coherent.induction reached initial.checked
    fun _ _ _ coherent checked steady moves => checked.step coherent steady moves
  have used : ∀ id row, s.world.uploads id = some row → ¬ Unborn s id :=
    fun id row found => coherent.consistent.used_born found
  obtain ⟨-, checked', completed⟩ := coherent.induction run
    (J := fun s' => Checked s' ∧ ∀ id row, s.world.uploads id = some row → row.upload.state = .completed →
      ¬ Unborn s' id ∧ ∀ row', s'.world.uploads id = some row' → row'.upload.state = .completed)
    ⟨checked, fun id row found state => ⟨used id row found, fun row' stored => by
      cases Option.some.inj (found.symm.trans stored)
      exact state⟩⟩
    fun before action after coherent ⟨checked, completed⟩ steady moves => by
      refine ⟨checked.step coherent steady moves, fun id row found state => ?_⟩
      obtain ⟨born, kept⟩ := completed id row found state
      refine ⟨moves.born born, fun row' stored => ?_⟩
      obtain ⟨between, there, -⟩ := moves.session born stored
      exact checked.verified.kept checked.owners moves there (kept between there) stored
  exact ⟨fun id row row' found state stored => (completed id row found state).2 row' stored,
    fun id job row stored found => checked'.verified.jobs id job stored row found⟩

end

/-- A PDF document of five bytes. -/
def shortDocument : Content := .raw [37, 80, 68, 70, 45]

/-- An upload of the user 7 that awaits its document. -/
def awaitingUpload : Upload where
  id := 0
  ownerId := 7
  filename := "scan.pdf"
  sizeBytes := 5
  contentType := "application/pdf"
  sha256 := shortDocument.sha256
  objectKey := .source 0
  state := .uploading
  createdAt := 0
  completedAt := none
  detectedContentType := none
  multipartUploadId := none

/-- The document of the upload was put and not checked yet. -/
def oneSession : State where
  world :=
    { nextId := 1
      uploads := fun id => if id = 0 then some { upload := awaitingUpload, expiresAt := 100 } else none
      objects := fun key => if key = .source 0 then some ⟨shortDocument, "application/pdf", none⟩ else none }
  calls := []

theorem oneSession_initial : Initial oneSession where
  calls := rfl
  world :=
    { jobs := fun _ => rfl
      uploads := fun id row stored => by
        simp only [oneSession] at stored
        split at stored
        · rename_i zero
          cases stored
          exact ⟨zero ▸ Nat.one_pos, zero.symm, by rw [zero]; rfl, rfl⟩
        · cases stored
      objects := fun key id own => by
        cases key with
        | source => cases own
        | _ => rfl
      outbox := rfl
      kafka := rfl }

/-- `complete_upload` of the session. -/
def completeTask : Task := .completeUpload 0 7 none none []

/-- Two requests find the upload awaiting its document, and the first reads it. -/
def doubleClick : List Step :=
  [.start completeTask, .start completeTask] ++ answered 0 [.go] ++ answered 1 [.go] ++ answered 0 [.go, .go, .go]

/-- The state after that, with what the first request has left to do. -/
def documentRead (verifying : Program CompleteUploadDTO) : State where
  world := oneSession.world
  calls := [
    ⟨completeTask, [⟨.getBytes (.source 0), .ok shortDocument⟩,
      ⟨.stat (.source 0), .ok (some ⟨.source 0, 5, none, "application/pdf"⟩)⟩,
      ⟨.completeUpload (.source 0) none [], .ok ()⟩, ⟨.getUpload 0, .ok (some awaitingUpload)⟩],
      verifying.bind fun dto => .ret (.ok (.completed dto))⟩,
    ⟨completeTask, [⟨.getUpload 0, .ok (some awaitingUpload)⟩],
      (OCRApplicationService.checkUpload awaitingUpload []).bind fun dto => .ret (.ok (.completed dto))⟩]

/-- `verify_upload` of the document, which has the hash that was announced. -/
def verifyShort : Program CompleteUploadDTO := do
  let now ← await .utcNow
  let upload ← Prog.ofExcept (awaitingUpload.complete "application/pdf" now)
  OCRApplicationService.database (.saveUpload upload)
  return ⟨upload.id, upload.state, "application/pdf"⟩

theorem verifyUpload_short : OCRApplicationService.verifyUpload awaitingUpload shortDocument = verifyShort := by
  have same : ¬ shortDocument.sha256 ≠ awaitingUpload.sha256 := not_not.mpr rfl
  rw [OCRApplicationService.verifyUpload, if_neg same]
  rfl

theorem doubleClick_reads : (system {}).runsIf Steady oneSession doubleClick = some (documentRead verifyShort) := by
  rw [← verifyUpload_short]
  rfl

/-- The first request completes the upload. -/
def firstCompletes : List Step := answered 0 [.now, .go]

/-- The document is put again, and the second request goes on. -/
def putAgain : List Step :=
  .start (.presignedPut 0 ⟨.raw [], "application/pdf", none⟩) :: answered 2 [.go] ++ answered 1 [.go, .go, .go]

/-- A job is created for a completed upload while another request to complete
it is running. -/
theorem verified_upload_permanent_created : ∃ s s' row row' job,
    (system {}).Run Steady oneSession s ∧ (system {}).Run Steady s s' ∧
    (s.world.uploads 0 = some row ∧ row.upload.state = .completed) ∧
    (s'.world.uploads 0 = some row' ∧ row'.upload.state = .completed) ∧
    s'.world.jobs 1 = some job ∧
      ∀ row, s'.world.uploads job.uploadId = some row → row.upload.state = .completed := by
  have played : ((system {}).runsIf Steady (documentRead verifyShort) firstCompletes).any (fun s =>
      (s.world.uploads 0).any (fun row => row.upload.state = .completed) &&
        ((system {}).runsIf Steady s (answered 1 [.go, .go] ++ createSteps 2)).any fun s' =>
          (s'.world.uploads 0).isSome && (s'.world.jobs 1).isSome) = true := by decide +kernel
  obtain ⟨s, runs, rest⟩ := (Option.any_eq_true _ _).mp played
  have reached := (Machine.Run.of_runsIf doubleClick_reads).trans (.of_runsIf runs)
  obtain ⟨completed, rest⟩ := (Bool.and_eq_true _ _).mp rest
  obtain ⟨row, found, completed⟩ := (Option.any_eq_true _ _).mp completed
  obtain ⟨s', runs', there⟩ := (Option.any_eq_true _ _).mp rest
  obtain ⟨kept, created⟩ := (Bool.and_eq_true _ _).mp there
  obtain ⟨row', found'⟩ := Option.isSome_iff_exists.mp kept
  obtain ⟨job, stored⟩ := Option.isSome_iff_exists.mp created
  have state : row.upload.state = .completed := of_decide_eq_true completed
  have permanent := verified_upload_permanent oneSession_initial reached (.of_runsIf runs')
  exact ⟨s, s', row, row', job, reached, .of_runsIf runs', ⟨found, state⟩, ⟨found', permanent.1 0 row row' found state found'⟩,
    stored, fun row => permanent.2 1 job row stored⟩

/-- The second request rejects the upload that the first has completed. -/
theorem verified_upload_rejected : ¬ ∀ (settings : Settings) (first s s' : State), Initial first →
    Reaches settings first s → Reaches settings s s' → ∀ id row row', s.world.uploads id = some row →
      row.upload.state = .completed → s'.world.uploads id = some row' → row'.upload.state = .completed := by
  intro claim
  have played : ((system {}).runs (documentRead verifyShort) firstCompletes).any (fun s =>
      (s.world.uploads 0).any (fun row => row.upload.state = .completed) &&
        ((system {}).runs s putAgain).any fun s' =>
          (s'.world.uploads 0).any fun row => row.upload.state = .rejected) = true := by decide +kernel
  obtain ⟨s, runs, rest⟩ := (Option.any_eq_true _ _).mp played
  obtain ⟨completed, rest⟩ := (Bool.and_eq_true _ _).mp rest
  obtain ⟨row, found, completed⟩ := (Option.any_eq_true _ _).mp completed
  obtain ⟨s', runs', rejected⟩ := (Option.any_eq_true _ _).mp rest
  obtain ⟨row', found', rejected⟩ := (Option.any_eq_true _ _).mp rejected
  have read : Reaches {} oneSession (documentRead verifyShort) :=
    (Machine.Run.of_runsIf doubleClick_reads).mono fun _ _ _ => trivial
  have completes : Reaches {} (documentRead verifyShort) s := .of_runs runs fun _ _ _ => trivial
  have state : row'.upload.state = .completed :=
    claim {} oneSession s s' oneSession_initial (read.trans completes)
      (.of_runs runs' fun _ _ _ => trivial) 0 row row' found (of_decide_eq_true completed) found'
  rw [of_decide_eq_true rejected] at state
  cases state

end MonkeyOcr
