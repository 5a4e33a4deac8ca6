import MonkeyOcr.Infrastructure.Execution

namespace MonkeyOcr

namespace JobRow

variable {row : JobRow} {event : JobEvent}

/-- An append leaves everything but the log as it is. -/
theorem append_row (event : JobEvent) :
    (row.append event).2 = { row with events := (row.append event).2.events } := by
  unfold append
  split <;> rfl

@[simp] theorem append_revision : (row.append event).2.revision = row.revision := by rw [append_row]

@[simp] theorem append_claim : (row.append event).2.claim = row.claim := by rw [append_row]

@[simp] theorem append_pages : (row.append event).2.pages = row.pages := by rw [append_row]

@[simp] theorem append_artifacts : (row.append event).2.artifacts = row.artifacts := by rw [append_row]

@[simp] theorem append_attempts : (row.append event).2.attempts = row.attempts := by rw [append_row]

@[simp] theorem append_currentAttempt : (row.append event).2.currentAttempt = row.currentAttempt := by
  rw [append_row]

@[simp] theorem append_status : (row.append event).2.status = row.status := by rw [append_row]

@[simp] theorem append_uploadId : (row.append event).2.uploadId = row.uploadId := by rw [append_row]

@[simp] theorem append_progressPercent :
    (row.append event).2.progressPercent = row.progressPercent := by rw [append_row]

end JobRow

/-- The parts of the shared state. -/
inductive Part
  | jobs | uploads | outbox | objects | kafka | ids
  deriving DecidableEq

/-- The parts a call may write. -/
def Op.writes : Op → List Part
  | .addUpload _ | .saveUpload _ => [.uploads]
  | .saveWithEvent .. | .appendEvent _ => [.jobs]
  | .addWithOutboxAndEvent .. | .saveWithOutboxAndEvent .. => [.jobs, .outbox]
  | .markPublished _ => [.outbox]
  | .claimExpired .. => [.jobs, .uploads, .ids]
  | .complete _ => [.jobs, .uploads, .outbox]
  | .defer .. => [.jobs, .uploads]
  | .putBytes .. | .deleteObject _ | .prepare .. | .presignedPut .. | .completeUpload .. => [.objects]
  | .sendAndWait .. | .getMany | .commit .. => [.kafka]
  | .uuid7 => [.ids]
  | _ => []

def World.Same (w w' : World) : Part → Prop
  | .jobs => w'.jobs = w.jobs
  | .uploads => w'.uploads = w.uploads
  | .outbox => w'.outbox = w.outbox
  | .objects => w'.objects = w.objects
  | .kafka => w'.kafka = w.kafka
  | .ids => w'.nextId = w.nextId

theorem World.Same.refl {w : World} (part : Part) : w.Same w part := by cases part <;> rfl

namespace World

variable {settings : Settings} {consumer : Nat} {w w' : World} {op : Op} {choice : Choice}
  {answer : Answer} {r : Except Exc op.Val}

/-- A call fails and does nothing, or does its work and may fail to say so. -/
theorem exec_cases (executed : exec settings consumer op choice w = some (r, w')) :
    (∃ e, r = .error e ∧ op.mayRaise e = true ∧ w' = w) ∨
      ∃ r₀, w.perform settings consumer op choice.answer = some (r₀, w') ∧
        (r = r₀ ∨ ∃ e, r = .error e ∧ op.mayRaise e = true ∧ op.failsLate = true) := by
  unfold exec at executed
  split at executed
  · exact .inr ⟨r, executed, .inl rfl⟩
  · split at executed
    · rename_i e _ allowed
      cases executed
      exact .inl ⟨e, rfl, allowed, rfl⟩
    · cases executed
  · split at executed
    · rename_i e _ allowed
      obtain ⟨⟨r₀, w₀⟩, performed, same⟩ := Option.map_eq_some_iff.mp executed
      cases same
      exact .inr ⟨r₀, performed, .inr ⟨e, rfl, allowed.1, allowed.2⟩⟩
    · cases executed

/-- A call that answers has done its work. -/
theorem exec_ok {a : op.Val} (executed : exec settings consumer op choice w = some (.ok a, w')) :
    w.perform settings consumer op choice.answer = some (.ok a, w') := by
  rcases exec_cases executed with ⟨_, failed, -⟩ | ⟨r₀, performed, rfl | ⟨_, failed, -⟩⟩
  · cases failed
  · exact performed
  · cases failed

/-! ### The transactions on a job -/

theorem saveWithEvent_ok {job : Job} {event : JobEvent} {days : Nat} {saved : Nat × JobEvent}
    (done : w.saveWithEvent job event days = .ok (saved, w')) :
    ∃ row row', w.jobs job.id = some row ∧ row.save job days = .ok row' ∧
      saved.1 = row'.revision ∧ w' = w.setJob job.id (some (row'.append event).2) := by
  unfold saveWithEvent saveJob at done
  split at done
  · rename_i row found
    cases stored : row.save job days with
    | error e => rw [stored] at done; cases done
    | ok row' =>
      rw [stored] at done
      obtain ⟨rfl, rfl⟩ := Prod.mk.inj (Except.ok.inj done)
      exact ⟨row, row', found, stored, JobRow.append_revision, rfl⟩
  · cases done

theorem saveWithOutboxAndEvent_ok {job : Job} {outboxEvent : OutboxEvent} {event : JobEvent}
    {days : Nat} {saved : Nat × JobEvent}
    (done : w.saveWithOutboxAndEvent job outboxEvent event days = .ok (saved, w')) :
    ∃ row row', w.jobs job.id = some row ∧ row.save job days = .ok row' ∧
      saved.1 = row'.revision ∧
      w' = (w.setJob job.id (some (row'.append event).2)).insertOutbox outboxEvent := by
  unfold saveWithOutboxAndEvent at done
  cases stored : w.saveWithEvent job event days with
  | error e => rw [stored] at done; cases done
  | ok pair =>
    obtain ⟨saved', w₁⟩ := pair
    obtain ⟨row, row', found, rest, revision, rfl⟩ := saveWithEvent_ok stored
    rw [stored] at done
    cases done
    exact ⟨row, row', found, rest, revision, rfl⟩

theorem addWithOutboxAndEvent_ok {job : Job} {outboxEvent : OutboxEvent} {event saved : JobEvent}
    {days : Nat} (done : w.addWithOutboxAndEvent job outboxEvent event days = .ok (saved, w')) :
    w.jobs job.id = none ∧ (w.uploads job.uploadId).isSome = true ∧
      w' = (w.setJob job.id (some ((JobRow.insert job days).append event).2)).insertOutbox
        outboxEvent := by
  unfold addWithOutboxAndEvent at done
  split at done
  · cases done
  · rename_i absent
    split at done
    · cases done
    · rename_i referenced
      split at done
      · cases done
      · obtain ⟨-, rfl⟩ := Prod.mk.inj (Except.ok.inj done)
        exact ⟨by simpa using absent, by simpa [Option.isSome_iff_ne_none] using referenced, rfl⟩

theorem appendEvent_ok {event saved : JobEvent} (done : w.appendEvent event = .ok (saved, w')) :
    ∃ row, w.jobs event.jobId = some row ∧
      w' = w.setJob event.jobId (some (row.append event).2) := by
  unfold appendEvent at done
  split at done
  · rename_i row found
    obtain ⟨-, rfl⟩ := Prod.mk.inj (Except.ok.inj done)
    exact ⟨row, found, rfl⟩
  · cases done

theorem addUpload_ok {upload : Upload} {ttlSeconds : Nat} {saved : Unit}
    (done : w.addUpload upload ttlSeconds = .ok (saved, w')) :
    w.uploads upload.id = none ∧ w' = w.setUpload upload.id (some
      { upload := { upload with completedAt := none, detectedContentType := none }
        expiresAt := upload.createdAt + seconds ttlSeconds }) := by
  unfold addUpload at done
  split at done
  · cases done
  · rename_i absent
    obtain ⟨-, rfl⟩ := Prod.mk.inj (Except.ok.inj done)
    exact ⟨by simpa using absent, rfl⟩

theorem saveUpload_ok {upload : Upload} {saved : Unit} (done : w.saveUpload upload = .ok (saved, w')) :
    ∃ row, w.uploads upload.id = some row ∧ row.claim = none ∧
      w' = w.setUpload upload.id (some { row with
        upload := { row.upload with
          state := upload.state
          detectedContentType := upload.detectedContentType
          completedAt := upload.completedAt } }) := by
  unfold saveUpload at done
  split at done
  · rename_i row found
    split at done
    · cases done
    · rename_i free
      obtain ⟨-, rfl⟩ := Prod.mk.inj (Except.ok.inj done)
      exact ⟨row, found, by simpa using free, rfl⟩
  · cases done

theorem transact_cases {α : Type} {result : Except Exc (α × World)} {r : Except Exc α}
    (done : w.transact result = (r, w')) :
    (∃ a, result = .ok (a, w') ∧ r = .ok a) ∨ ∃ e, r = .error e ∧ w' = w := by
  cases result with
  | ok pair => cases done; exact .inl ⟨_, rfl, rfl⟩
  | error e => cases done; exact .inr ⟨e, rfl, rfl⟩

/-! ### Frames -/

theorem putPageObjects_same (job : Job) (written : List PageObject) {part : Part}
    (other : part ≠ .objects) : w.Same (written.foldl (putPageObject job) w) part := by
  induction written generalizing w with
  | nil => exact .refl part
  | cons object rest ih =>
    have rest' := ih (w := putPageObject job w object)
    cases part <;> first | exact absurd rfl other | exact rest'

theorem claimJobs_same (ids : List Id) (claim : Claim) (part : Part) (other : part ≠ .jobs) :
    w.Same (ids.foldl (fun v id => v.claimJob id claim) w) part := by
  induction ids generalizing w with
  | nil => exact .refl part
  | cons id rest ih =>
    have rest' := ih (w := w.claimJob id claim)
    cases part <;> first | exact absurd rfl other | exact rest'

theorem claimUploads_same (ids : List Id) (claim : Claim) (part : Part) (other : part ≠ .uploads) :
    w.Same (ids.foldl (fun v id => v.claimUpload id claim) w) part := by
  induction ids generalizing w with
  | nil => exact .refl part
  | cons id rest ih =>
    have rest' := ih (w := w.claimUpload id claim)
    cases part <;> first | exact absurd rfl other | exact rest'

theorem claimJobs_jobs (ids : List Id) (claim : Claim) (id : Id) :
    (ids.foldl (fun v id => v.claimJob id claim) w).jobs id =
      if id ∈ ids then (w.jobs id).map fun row => { row with claim := some claim } else w.jobs id := by
  induction ids generalizing w with
  | nil => simp
  | cons head rest ih =>
    rw [List.foldl_cons, ih]
    by_cases here : id = head
    · subst here
      simp only [claimJob, setJob, Function.update_self, List.mem_cons, true_or, if_true]
      split
      · rw [Option.map_map]; rfl
      · rfl
    · simp only [claimJob, setJob, Function.update_of_ne here, List.mem_cons, here, false_or]

theorem claimUploads_uploads (ids : List Id) (claim : Claim) (id : Id) :
    (ids.foldl (fun v id => v.claimUpload id claim) w).uploads id =
      if id ∈ ids then (w.uploads id).map fun row => { row with claim := some claim }
      else w.uploads id := by
  induction ids generalizing w with
  | nil => simp
  | cons head rest ih =>
    rw [List.foldl_cons, ih]
    by_cases here : id = head
    · subst here
      simp only [claimUpload, setUpload, Function.update_self, List.mem_cons, true_or, if_true]
      split
      · rw [Option.map_map]; rfl
      · rfl
    · simp only [claimUpload, setUpload, Function.update_of_ne here, List.mem_cons, here, false_or]

/-- What a claim of expired rows finds and does. -/
structure Claims (w : World) (now : Time) (leaseSeconds : Nat) (jobs uploads : List Id)
    (candidates : List RetentionCandidate) (w' : World) : Prop where
  expired : ∀ id ∈ jobs, ∃ row, w.jobs id = some row ∧ jobExpired now row = true
  unused : ∀ id ∈ uploads, ∃ row, w.uploads id = some row ∧ w.uploadExpired now id row = true
  candidates : candidates = jobs.map (w.jobCandidate w.nextId) ++
    uploads.map (w.uploadCandidate (w.nextId + 1))
  jobs : ∀ id, w'.jobs id = if id ∈ jobs then
    (w.jobs id).map fun row =>
      { row with claim := some ⟨w.nextId, now + seconds leaseSeconds⟩ } else w.jobs id
  uploads : ∀ id, w'.uploads id = if id ∈ uploads then
    (w.uploads id).map fun row =>
      { row with claim := some ⟨w.nextId + 1, now + seconds leaseSeconds⟩ } else w.uploads id
  nextId : w'.nextId = w.nextId + 2
  outbox : w'.outbox = w.outbox
  objects : w'.objects = w.objects
  kafka : w'.kafka = w.kafka

theorem claimExpired_some {now : Time} {limit leaseSeconds : Nat} {jobs uploads : List Id}
    {candidates : List RetentionCandidate}
    (done : w.claimExpired now limit leaseSeconds jobs uploads = some (candidates, w')) :
    candidates = [] ∧ w' = w ∨ w.Claims now leaseSeconds jobs uploads candidates w' := by
  unfold claimExpired at done
  split at done
  · cases done; exact .inl ⟨rfl, rfl⟩
  · split at done
    · rename_i fits
      obtain ⟨-, -, expired, -, -, unused⟩ := fits
      obtain ⟨rfl, rfl⟩ := Prod.mk.inj (Option.some.inj done)
      refine .inr ⟨fun id member => ?_, fun id member => ?_, rfl, fun id => ?_, fun id => ?_, rfl, ?_, ?_, ?_⟩
      · simpa [Option.any_eq_true_iff_get, Option.any] using (Option.any_eq_true _ _).mp (expired id member)
      · simpa using (Option.any_eq_true _ _).mp (unused id member)
      · exact (congrFun (claimUploads_same uploads _ .jobs (by simp)) id).trans
          (claimJobs_jobs jobs _ id)
      · refine (claimUploads_uploads uploads _ id).trans ?_
        rw [show _ = w.uploads from claimJobs_same jobs _ .uploads (by simp)]
      · exact (claimUploads_same uploads _ .outbox (by simp)).trans
          (claimJobs_same jobs _ .outbox (by simp))
      · exact (claimUploads_same uploads _ .objects (by simp)).trans
          (claimJobs_same jobs _ .objects (by simp))
      · exact (claimUploads_same uploads _ .kafka (by simp)).trans
          (claimJobs_same jobs _ .kafka (by simp))
    · cases done

/-- The frame rule: a call leaves what it does not write as it is. -/
theorem perform_same {part : Part} (other : part ∉ op.writes)
    (performed : w.perform settings consumer op answer = some (r, w')) : w.Same w' part := by
  cases op with
  | saveWithEvent job event =>
    rcases transact_cases (Option.some.inj performed) with ⟨saved, done, -⟩ | ⟨e, -, rfl⟩
    · obtain ⟨row, row', -, -, -, rfl⟩ := saveWithEvent_ok done
      cases part <;> first | rfl | exact absurd (by simp [Op.writes]) other
    · exact .refl part
  | saveWithOutboxAndEvent job outboxEvent event =>
    rcases transact_cases (Option.some.inj performed) with ⟨saved, done, -⟩ | ⟨e, -, rfl⟩
    · obtain ⟨row, row', -, -, -, rfl⟩ := saveWithOutboxAndEvent_ok done
      cases part <;> first | rfl | exact absurd (by simp [Op.writes]) other
    · exact .refl part
  | addWithOutboxAndEvent job outboxEvent event =>
    rcases transact_cases (Option.some.inj performed) with ⟨saved, done, -⟩ | ⟨e, -, rfl⟩
    · obtain ⟨-, -, rfl⟩ := addWithOutboxAndEvent_ok done
      cases part <;> first | rfl | exact absurd (by simp [Op.writes]) other
    · exact .refl part
  | appendEvent event =>
    rcases transact_cases (Option.some.inj performed) with ⟨saved, done, -⟩ | ⟨e, -, rfl⟩
    · obtain ⟨row, -, rfl⟩ := appendEvent_ok done
      cases part <;> first | rfl | exact absurd (by simp [Op.writes]) other
    · exact .refl part
  | addUpload upload =>
    rcases transact_cases (Option.some.inj performed) with ⟨saved, done, -⟩ | ⟨e, -, rfl⟩
    · obtain ⟨-, rfl⟩ := addUpload_ok done
      cases part <;> first | rfl | exact absurd (by simp [Op.writes]) other
    · exact .refl part
  | saveUpload upload =>
    rcases transact_cases (Option.some.inj performed) with ⟨saved, done, -⟩ | ⟨e, -, rfl⟩
    · obtain ⟨row, -, -, rfl⟩ := saveUpload_ok done
      cases part <;> first | rfl | exact absurd (by simp [Op.writes]) other
    · exact .refl part
  | completeUpload key uploadId parts =>
    cases uploadId with
    | none =>
      cases performed
      exact .refl part
    | some multipart =>
      cases answer with
      | assembled object =>
        simp only [perform] at performed
        split at performed
        · cases performed
          exact .refl part
        · cases performed
          cases part <;> first | rfl | exact absurd (by simp [Op.writes]) other
      | _ => cases performed
  | claimExpired now limit leaseSeconds =>
    cases answer with
    | picked jobs uploads =>
      obtain ⟨⟨candidates, w₀⟩, done, same⟩ := Option.map_eq_some_iff.mp performed
      cases same
      rcases claimExpired_some done with ⟨-, rfl⟩ | claims
      · exact .refl part
      · cases part with
        | outbox => exact claims.outbox
        | objects => exact claims.objects
        | kafka => exact claims.kafka
        | _ => exact absurd (by simp [Op.writes]) other
    | _ => cases performed
  | complete candidate =>
    have effect : w' = (w.complete candidate).2 := (Prod.mk.inj (Option.some.inj performed)).2.symm
    rw [effect]
    unfold complete
    split <;> split <;> cases part <;> first | rfl | exact absurd (by simp [Op.writes]) other
  | defer candidate retryAt =>
    have effect : w' = w.defer candidate retryAt := (Prod.mk.inj (Option.some.inj performed)).2.symm
    rw [effect]
    unfold defer
    dsimp only
    split <;> cases part <;> first | rfl | exact absurd (by simp [Op.writes]) other
  | prepare upload job =>
    cases answer with
    | prepared written result =>
      simp only [perform] at performed
      split at performed
      · cases performed
        exact putPageObjects_same job written (by simpa [Op.writes] using other)
      · cases performed
    | _ => cases performed
  | getBytes key =>
    simp only [perform] at performed
    split at performed <;> cases performed <;> exact .refl part
  | getMany =>
    cases answer with
    | none => cases performed; exact .refl part
    | partition p =>
      simp only [perform] at performed
      split at performed
      · cases performed
      · split at performed
        · cases performed
        · cases performed
          cases part <;> first | rfl | exact absurd (by simp [Op.writes]) other
    | _ => cases performed
  | pendingOutbox limit =>
    cases answer with
    | picked ids _ =>
      obtain ⟨events, -, same⟩ := Option.map_eq_some_iff.mp performed
      cases same; exact .refl part
    | _ => cases performed
  | _ =>
    cases answer <;> cases performed <;> cases part <;>
      first | rfl | exact absurd (by simp [Op.writes]) other

theorem exec_same {part : Part} (other : part ∉ op.writes)
    (executed : exec settings consumer op choice w = some (r, w')) : w.Same w' part := by
  rcases exec_cases executed with ⟨_, -, -, rfl⟩ | ⟨r₀, performed, -⟩
  · exact .refl part
  · exact perform_same other performed

/-- Identifiers are only ever given out. -/
theorem exec_nextId (executed : exec settings consumer op choice w = some (r, w')) :
    w.nextId ≤ w'.nextId := by
  rcases exec_cases executed with ⟨_, -, -, rfl⟩ | ⟨r₀, performed, -⟩
  · rfl
  · by_cases quiet : Part.ids ∉ op.writes
    · exact (perform_same quiet performed : w'.nextId = w.nextId).ge
    · cases op with
      | uuid7 => cases performed; exact Nat.le_succ _
      | claimExpired now limit leaseSeconds =>
        generalize choice.answer = answer at performed
        cases answer with
        | picked jobs uploads =>
          obtain ⟨⟨candidates, w₀⟩, done, same⟩ := Option.map_eq_some_iff.mp performed
          cases same
          rcases claimExpired_some done with ⟨-, rfl⟩ | claims
          · rfl
          · exact (Nat.le_add_right w.nextId 2).trans claims.nextId.ge
        | _ => cases performed
      | _ => exact absurd (by simp [Op.writes]) quiet

end World
end MonkeyOcr
