import MonkeyOcr.Lifecycle.Rows
import MonkeyOcr.Lifecycle.SystemContract

namespace MonkeyOcr

open Calls

/-- The job and the event a save is called with. -/
def Op.saved? : Op → Option (Job × JobEvent)
  | .saveWithEvent job event => some (job, event)
  | .saveWithOutboxAndEvent job _ event => some (job, event)
  | _ => none

/-- All that one call, made with the memory `m`, does to the row of a job. -/
inductive RowChange (m : Memory) (w : World) (op : Op) (id : Id) :
    Option JobRow → Option JobRow → Prop
  | same {row} : RowChange m w op id row row
  | inserted {job outboxEvent event days} (call : op = .addWithOutboxAndEvent job outboxEvent event)
      (own : job.id = id) (drawn : id ∈ m.ids) (new : job.New) (reports : event.Reports job)
      (type : event.eventType = .jobQueued) (upload : (w.uploads job.uploadId).isSome = true) :
      RowChange m w op id none (some ((JobRow.insert job days).append event).2)
  | saved {row row' origin v job event} (call : op.saved? = some (job, event)) (own : job.id = id)
      (member : (origin, v) ∈ m.seen) (adopts : m.Adopts origin v)
      (edits : v.Edits origin event.eventType job) (current : row.version = v.version)
      (saves : row.Saves job row') (reports : event.Reports job) :
      RowChange m w op id (some row) (some (row'.append event).2)
  | reported {row job event} (call : op = .appendEvent event) (own : job.id = id)
      (member : (some .entry, job) ∈ m.seen)
      (ended : job.state.terminalEvent? = some event.eventType) (reports : event.Reports job) :
      RowChange m w op id (some row) (some (row.append event).2)
  | claimed {row now limit leaseSeconds} (call : op = .claimExpired now limit leaseSeconds)
      (expired : World.jobExpired now row = true) :
      RowChange m w op id (some row)
        (some { row with claim := some ⟨w.nextId, now + seconds leaseSeconds⟩ })
  | deferred {row claim candidate retryAt} (call : op = .defer candidate retryAt)
      (kind : candidate.aggregateKind = .job) (own : candidate.aggregateId = id)
      (held : row.claim = some claim) (token : claim.token = candidate.claimToken) :
      RowChange m w op id (some row) (some { row with claim := some { claim with leaseExpiresAt := retryAt } })
  | deleted {row claim candidate} (call : op = .complete candidate)
      (kind : candidate.aggregateKind = .job) (own : candidate.aggregateId = id)
      (held : row.claim = some claim) (token : claim.token = candidate.claimToken) :
      RowChange m w op id (some row) none

/-- The row is the version `v`, or one that came from it by later saves. -/
structure JobRow.Follows (row : JobRow) (v : Job) : Prop where
  revision : v.revision ≤ row.revision
  current : v.revision = row.revision → row.version = v.version
  evolves : v.version.Evolves row.version

def World.Knows (w : World) (v : Job) : Prop := ∀ row, w.jobs v.id = some row → row.Follows v

/-- The version `v` is the one that is stored. -/
def World.Stores (w : World) (v : Job) : Prop :=
  ∃ row, w.jobs v.id = some row ∧ row.revision = v.revision ∧ row.version = v.version

/-- No read finds the job any more. -/
def World.Gone (w : World) (id : Id) : Prop := ∀ row, w.jobs id = some row → row.claim.isSome = true

theorem World.Stores.knows {w : World} {v : Job} (stores : w.Stores v) : w.Knows v := by
  obtain ⟨row, stored, revision, version⟩ := stores
  intro other found
  cases Option.some.inj (stored.symm.trans found)
  exact ⟨revision.ge, fun _ => version, version ▸ .refl⟩

theorem JobRow.Follows.congr {row row' : JobRow} {v : Job} (follows : row.Follows v)
    (revision : row'.revision = row.revision) (version : row'.version = row.version) : row'.Follows v where
  revision := revision ▸ follows.revision
  current same := version.trans (follows.current (same.trans revision))
  evolves := version ▸ follows.evolves

namespace Memory

/-- What every contract asks of a call that writes a job. -/
def writes (s : Memory) : Op → Prop
  | .saveWithEvent job event =>
    s.Derived event.eventType job ∧ event.Reports job ∧ event.eventType ≠ .jobRetrying
  | .saveWithOutboxAndEvent job outboxEvent event =>
    s.Derived event.eventType job ∧ event.Reports job ∧ event.eventType = .jobRetrying ∧
      outboxEvent.Requests s job
  | .addWithOutboxAndEvent job outboxEvent event =>
    job.New ∧ job.id ∈ s.ids ∧ outboxEvent.Requests s job ∧ event.Reports job ∧
      event.eventType = .jobQueued
  | .appendEvent event =>
    ∃ job, (some .entry, job) ∈ s.seen ∧ job.state.terminalEvent? = some event.eventType ∧
      event.Reports job
  | .addUpload upload => upload.id ∈ s.ids ∧ upload.objectKey = .source upload.id
  | _ => True

theorem workerCalls_writes {s : Memory} {message : JobWorkMessage} {op : Op}
    (allowed : s.workerCalls message op) : s.writes op := by
  cases op with
  | saveWithEvent job event =>
    obtain ⟨-, derived, reports, ofWorker⟩ := allowed
    exact ⟨derived, reports, fun same => by rw [same] at ofWorker; cases ofWorker⟩
  | appendEvent event =>
    obtain ⟨job, member, -, -, ended, reports⟩ := allowed
    exact ⟨job, member, ended, reports⟩
  | addWithOutboxAndEvent => exact allowed.elim
  | saveWithOutboxAndEvent => exact allowed.elim
  | addUpload => exact allowed.elim
  | _ => trivial

theorem serviceCalls_writes {s : Memory} {op : Op} (allowed : s.serviceCalls op) : s.writes op := by
  cases op with
  | saveWithEvent job event =>
    obtain ⟨derived, reports, type⟩ := allowed
    refine ⟨derived, reports, fun same => ?_⟩
    rw [same] at type
    rcases type with asked | ⟨cancelled, -⟩
    · cases asked
    · cases cancelled
  | saveWithOutboxAndEvent => exact allowed
  | addWithOutboxAndEvent => exact allowed
  | addUpload => exact allowed
  | appendEvent => exact allowed.elim
  | _ => trivial

end Memory

theorem Task.contract_writes {task : Task} {s : Memory} {op : Op}
    (allowed : task.contract.allow s op) : s.writes op := by
  have worker : (∃ message, s.message = some message ∧ s.workerCalls message op) → s.writes op :=
    fun ⟨_, _, allowed⟩ => Memory.workerCalls_writes allowed
  cases task with
  | process => exact worker allowed
  | runWorker =>
    rcases allowed with own | other
    · exact worker own
    · cases op <;> first | exact other.elim | trivial
  | createJob => exact Memory.serviceCalls_writes allowed
  | getJob => exact Memory.serviceCalls_writes allowed
  | listJobs => exact Memory.serviceCalls_writes allowed
  | cancelJob => exact Memory.serviceCalls_writes allowed
  | retryJob => exact Memory.serviceCalls_writes allowed
  | dispatchOnce => cases op <;> first | exact allowed.elim | trivial
  | runBatch => cases op <;> first | exact allowed.elim | trivial
  | streamJobEvents => cases op <;> first | exact allowed.elim | trivial
  | createUpload => exact Memory.serviceCalls_writes allowed
  | completeUpload => exact Memory.serviceCalls_writes allowed
  | listArtifacts => exact Memory.serviceCalls_writes allowed
  | presignedPut => cases op <;> first | exact allowed.elim | trivial

namespace World

variable {settings : Settings} {consumer : Nat} {w w' : World} {op : Op} {choice : Choice}
  {r : Except Exc op.Val} {m : Memory}

theorem setJob_jobs (id other : Id) (row : Option JobRow) :
    (w.setJob id row).jobs other = if other = id then row else w.jobs other := by
  simp only [setJob, Function.update_apply]

/-- A save that succeeds found the very version it was derived from. -/
theorem saved_edit {job : Job} {type : EventType} {row row' : JobRow}
    (known : ∀ entry ∈ m.seen, w.Knows entry.2) (lost : ∀ id ∈ m.lost, w.Gone id)
    (derived : m.Derived type job) (found : w.jobs job.id = some row) (saves : row.Saves job row') :
    ∃ origin v, (origin, v) ∈ m.seen ∧ m.Adopts origin v ∧ v.Edits origin type job ∧
      row.version = v.version := by
  rcases derived with gone | ⟨origin, v, member, adopts, edits⟩
  · have claimed := lost _ gone.1 row found
    rw [saves.unclaimed] at claimed
    cases claimed
  · have follows := known _ member row (edits.id ▸ found)
    have current := follows.current (edits.revision.symm.trans saves.revision.symm)
    exact ⟨origin, v, member, adopts, edits, current⟩

theorem saved_change {job : Job} {event : JobEvent} {row row' : JobRow} {days : Nat}
    (known : ∀ entry ∈ m.seen, w.Knows entry.2) (lost : ∀ id ∈ m.lost, w.Gone id)
    (derived : m.Derived event.eventType job) (reports : event.Reports job)
    (call : op.saved? = some (job, event)) (found : w.jobs job.id = some row)
    (done : row.save job days = .ok row') :
    RowChange m w op job.id (w.jobs job.id) (some (row'.append event).2) := by
  have saves := JobRow.save_ok done
  obtain ⟨origin, v, member, adopts, edits, current⟩ := saved_edit known lost derived found saves
  rw [found]
  exact .saved call rfl member adopts edits current saves reports

theorem exec_rows (writes : m.writes op) (known : ∀ entry ∈ m.seen, w.Knows entry.2)
    (lost : ∀ id ∈ m.lost, w.Gone id)
    (executed : exec settings consumer op choice w = some (r, w')) (id : Id) :
    RowChange m w op id (w.jobs id) (w'.jobs id) := by
  rcases exec_cases executed with ⟨_, -, -, rfl⟩ | ⟨r₀, performed, -⟩
  · exact .same
  by_cases quiet : Part.jobs ∉ op.writes
  · rw [(perform_same quiet performed : w'.jobs = w.jobs)]
    exact .same
  cases op with
  | saveWithEvent job event =>
    rcases transact_cases (Option.some.inj performed) with ⟨saved, done, -⟩ | ⟨e, -, rfl⟩
    · obtain ⟨row, row', found, stored, -, rfl⟩ := saveWithEvent_ok done
      rw [setJob_jobs]
      split
      · rename_i here
        exact here ▸ saved_change known lost writes.1 writes.2.1 rfl found stored
      · exact .same
    · exact .same
  | saveWithOutboxAndEvent job outboxEvent event =>
    rcases transact_cases (Option.some.inj performed) with ⟨saved, done, -⟩ | ⟨e, -, rfl⟩
    · obtain ⟨row, row', found, stored, -, rfl⟩ := saveWithOutboxAndEvent_ok done
      change RowChange _ _ _ _ _ ((w.setJob job.id _).jobs id)
      rw [setJob_jobs]
      split
      · rename_i here
        exact here ▸ saved_change known lost writes.1 writes.2.1 rfl found stored
      · exact .same
    · exact .same
  | addWithOutboxAndEvent job outboxEvent event =>
    rcases transact_cases (Option.some.inj performed) with ⟨saved, done, -⟩ | ⟨e, -, rfl⟩
    · obtain ⟨absent, upload, rfl⟩ := addWithOutboxAndEvent_ok done
      obtain ⟨new, drawn, -, reports, type⟩ := writes
      change RowChange _ _ _ _ _ ((w.setJob job.id _).jobs id)
      rw [setJob_jobs]
      split
      · rename_i here
        rw [here, absent]
        exact .inserted rfl rfl drawn new reports type upload
      · exact .same
    · exact .same
  | appendEvent event =>
    rcases transact_cases (Option.some.inj performed) with ⟨saved, done, -⟩ | ⟨e, -, rfl⟩
    · obtain ⟨row, found, rfl⟩ := appendEvent_ok done
      obtain ⟨job, member, ended, reports⟩ := writes
      rw [setJob_jobs]
      split
      · rename_i here
        rw [here, found]
        exact .reported rfl reports.jobId.symm member ended reports
      · exact .same
    · exact .same
  | claimExpired now limit leaseSeconds =>
    generalize choice.answer = answer at performed
    cases answer with
    | picked jobs uploads =>
      obtain ⟨⟨candidates, w₀⟩, done, same⟩ := Option.map_eq_some_iff.mp performed
      cases same
      rcases claimExpired_some done with ⟨-, rfl⟩ | claims
      · exact .same
      · rw [claims.jobs]
        split
        · rename_i member
          obtain ⟨row, found, expired⟩ := claims.expired id member
          rw [found]
          exact .claimed rfl expired
        · exact .same
    | _ => cases performed
  | complete candidate =>
    have effect : w' = (w.complete candidate).2 := (Prod.mk.inj (Option.some.inj performed)).2.symm
    rw [effect]
    unfold complete
    split
    · rename_i kind
      split
      · rename_i held
        change RowChange _ _ _ _ _ ((w.setJob candidate.aggregateId none).jobs id)
        rw [setJob_jobs]
        split
        · rename_i here
          obtain ⟨row, found, holds⟩ := (Option.any_eq_true _ _).mp held
          obtain ⟨claim, claimed, token⟩ := (Option.any_eq_true _ _).mp holds
          rw [here, found]
          exact .deleted rfl kind rfl claimed (by simpa using token)
        · exact .same
      · exact .same
    · split <;> exact .same
  | defer candidate retryAt =>
    have effect : w' = w.defer candidate retryAt := (Prod.mk.inj (Option.some.inj performed)).2.symm
    rw [effect]
    unfold defer
    dsimp only
    split
    · rename_i kind
      rw [setJob_jobs]
      split
      · rename_i here
        subst here
        cases found : w.jobs candidate.aggregateId with
        | none => exact .same
        | some row =>
          simp only [Option.map_some]
          cases held : row.claim with
          | none =>
            simp only [Option.map_none]
            rw [← held]
            exact .same
          | some claim =>
            simp only [Option.map_some]
            split
            · rename_i token
              exact .deferred rfl kind rfl held token
            · rw [← held]
              exact .same
      · exact .same
    · exact .same
  | _ => exact absurd (by simp [Op.writes]) quiet

end World
end MonkeyOcr
