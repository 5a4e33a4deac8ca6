import MonkeyOcr.Calls.Trace
import MonkeyOcr.Lifecycle.Work
import MonkeyOcr.Statements.Notes

namespace MonkeyOcr

open Calls

/-- The row has the columns that a save of `v` writes, and pages and artifacts
as `v` has them. -/
structure JobRow.Holds (row : JobRow) (v : Job) : Prop where
  revision : row.revision = v.revision
  version : row.version = v.version
  requestId : row.requestId = v.requestId
  options : row.options = v.options
  finishedAt : row.finishedAt = v.completedAt
  lastInternalCode : row.lastInternalCode = v.internalCode
  lastErrorReason : row.lastErrorReason = v.errorReason
  updatedAt : row.updatedAt = v.updatedAt

/-- The revision that a save returns. -/
def Op.revision? : (op : Op) → op.Val → Option Nat
  | .saveWithEvent .., saved => some saved.1
  | .saveWithOutboxAndEvent .., saved => some saved.1
  | _, _ => none

/-- The client has put the version together from the answers to the three
queries of one read, or it is what a transaction of its own has stored. -/
def Stems (past : Trace StatementSig) : Option Site → Job → Prop
  | some site, v => ∃ head pages artifacts, v = AsyncpgJobRepository.fromRows head pages artifacts ∧
      [⟨.selectArtifacts v.id head.attempt, .ok artifacts⟩, ⟨.selectPages v.id head.attempt, .ok pages⟩,
        ⟨.selectJob site v.id, .ok (some head)⟩] <:+: past
  | none, v => ∃ job op event saved, v = { job with revision := v.revision } ∧ op.saved? = some (job, event) ∧
      op.revision? saved = some v.revision ∧ ⟨.other op, .ok saved⟩ ∈ past

/-- The call saves the job over the row, made from a version that is all the row
is, and that it has read or stored itself. -/
def Commits (call : ClientCall) (id : Id) (row row' : JobRow) : Prop :=
  ∃ op next job event origin v, call.prog = .call (.other op) next ∧ op.saved? = some (job, event) ∧ job.id = id ∧
    Stems call.past origin v ∧ row.Holds v ∧ (origin.isSome = true → v = row.toJob id) ∧
    v.Edits origin event.eventType job ∧ row'.Holds { job with revision := row.revision + 1 }

namespace JobRow

variable {row row' : JobRow} {job v : Job} {event : JobEvent} {days : Nat} {id : Id} {origin : Option Site}
  {type : EventType}

theorem append_toJob : (row.append event).2.toJob id = row.toJob id := by
  rw [append_row]
  rfl

theorem holds_toJob : row.Holds (row.toJob id) := ⟨rfl, (version_toJob id).symm, rfl, rfl, rfl, rfl, rfl, rfl⟩

theorem Holds.append (holds : row.Holds v) : (row.append event).2.Holds v := by
  rw [append_row]
  exact ⟨holds.revision, holds.version, holds.requestId, holds.options, holds.finishedAt, holds.lastInternalCode,
    holds.lastErrorReason, holds.updatedAt⟩

/-- A save stores the job. -/
theorem save_holds (done : row.save job days = .ok row') (tidy : row.Tidy)
    (edit : Edit origin row.version type job.version) : row'.Holds { job with revision := row.revision + 1 } := by
  have saves := save_ok done
  refine ⟨saves.next, saves.version tidy edit, ?_, saves.options, ?_, ?_, ?_, ?_⟩
  all_goals
    unfold save at done
    split at done
    · cases done
    · split at done
      · cases done
      · split at done
        · cases done
        · cases done
          rfl

end JobRow

namespace World

variable {settings : Settings} {client : Nat} {w w' : World} {op : Op} {choice : Choice} {r : Except Exc op.Val}
  {m : Memory} {task : Client} {job : Job} {event : JobEvent} {origin : Option Site} {v : Job} {id : Id}

/-- The version is a stored one, or an older one. -/
def Current (w : World) (origin : Option Site) (v : Job) : Prop :=
  ∃ row, w.jobs v.id = some row ∧ v.revision ≤ row.revision ∧
    (v.revision = row.revision → row.Holds v ∧ (origin.isSome = true → v = row.toJob v.id))

/-- What a read has found so far belongs to the stored version, or to older ones. -/
def Begun (w : World) (reading : PartialRead) : Prop :=
  ∃ row, w.jobs reading.head.id = some row ∧ reading.head.revision ≤ row.revision ∧
    (reading.head.revision = row.revision → reading.head = (row.toJob reading.head.id).head ∧
      ∀ pages ∈ reading.pages, pages = row.pages row.currentAttempt)

/-- No row is lost, and a version changes only with its revision. -/
def Advances (w w' : World) : Prop :=
  ∀ id row, w.jobs id = some row → ∃ row', w'.jobs id = some row' ∧
    ((∃ events, row' = { row with events }) ∨ row.revision < row'.revision)

theorem Advances.of_same (same : w'.jobs = w.jobs) : w.Advances w' :=
  fun id row stored => ⟨row, by rw [same]; exact stored, .inl ⟨row.events, rfl⟩⟩

theorem Current.advances (current : w.Current origin v) (advances : w.Advances w') : w'.Current origin v := by
  obtain ⟨row, stored, older, abreast⟩ := current
  obtain ⟨row', stored', change⟩ := advances _ row stored
  rcases change with ⟨events, rfl⟩ | later
  · refine ⟨_, stored', older, fun same => ?_⟩
    obtain ⟨holds, read⟩ := abreast same
    exact ⟨⟨holds.revision, holds.version, holds.requestId, holds.options, holds.finishedAt, holds.lastInternalCode,
      holds.lastErrorReason, holds.updatedAt⟩, read⟩
  · exact ⟨row', stored', by omega, fun same => by omega⟩

theorem Begun.advances {reading : PartialRead} (begun : w.Begun reading) (advances : w.Advances w') :
    w'.Begun reading := by
  obtain ⟨row, stored, older, abreast⟩ := begun
  obtain ⟨row', stored', change⟩ := advances _ row stored
  rcases change with ⟨events, rfl⟩ | later
  · exact ⟨_, stored', older, abreast⟩
  · exact ⟨row', stored', by omega, fun same => by omega⟩

/-- What a save does, and what is remembered of it. -/
theorem exec_save (call : op.saved? = some (job, event))
    (executed : exec settings client op choice w = some (r, w')) :
    (∀ entry ∈ (m.next op r).seen, entry ∈ m.seen) ∧ w'.jobs = w.jobs ∨
      ∃ row row', w.jobs job.id = some row ∧ row.save job settings.jobRetentionDays = .ok row' ∧
        w'.jobs = Function.update w.jobs job.id (some (row'.append event).2) ∧
        ∀ entry ∈ (m.next op r).seen, entry ∈ m.seen ∨ entry = (none, { job with revision := row'.revision }) ∧
          ∃ saved, r = .ok saved ∧ op.revision? saved = some row'.revision := by
  cases op with
  | saveWithEvent own event =>
    cases call
    rcases exec_cases executed with ⟨e, rfl, -, rfl⟩ | ⟨r₀, performed, same⟩
    · exact .inl ⟨fun entry member => member, rfl⟩
    · rcases transact_cases (Option.some.inj performed) with ⟨saved, done, rfl⟩ | ⟨e, rfl, rfl⟩
      · obtain ⟨row, row', found, stored, revision, rfl⟩ := saveWithEvent_ok done
        refine .inr ⟨row, row', found, stored, rfl, fun entry member => ?_⟩
        rcases same with rfl | ⟨e, rfl, -⟩
        · rcases List.mem_cons.mp member with rfl | old
          · exact .inr ⟨by rw [revision], saved, rfl, congrArg some revision⟩
          · exact .inl old
        · exact .inl member
      · refine .inl ⟨fun entry member => ?_, rfl⟩
        rcases same with rfl | ⟨e', rfl, -⟩ <;> exact member
  | saveWithOutboxAndEvent own outboxEvent event =>
    cases call
    rcases exec_cases executed with ⟨e, rfl, -, rfl⟩ | ⟨r₀, performed, same⟩
    · exact .inl ⟨fun entry member => member, rfl⟩
    · rcases transact_cases (Option.some.inj performed) with ⟨saved, done, rfl⟩ | ⟨e, rfl, rfl⟩
      · obtain ⟨row, row', found, stored, revision, rfl⟩ := saveWithOutboxAndEvent_ok done
        refine .inr ⟨row, row', found, stored, rfl, fun entry member => ?_⟩
        rcases same with rfl | ⟨e, rfl, -⟩
        · rcases List.mem_cons.mp member with rfl | old
          · exact .inr ⟨by rw [revision], saved, rfl, congrArg some revision⟩
          · exact .inl old
        · exact .inl member
      · refine .inl ⟨fun entry member => ?_, rfl⟩
        rcases same with rfl | ⟨e', rfl, -⟩ <;> exact member
  | _ => cases call

/-- What a client does to the rows of jobs. -/
inductive Turn (w w' : World) : Prop
  | same (jobs : w'.jobs = w.jobs)
  | inserted {id : Id} {row' : JobRow} (jobs : w'.jobs = Function.update w.jobs id (some row'))
      (absent : w.jobs id = none) (tidy : row'.Tidy) (free : row'.claim = none)
  | logged {id : Id} {row : JobRow} {events : List JobEvent}
      (jobs : w'.jobs = Function.update w.jobs id (some { row with events })) (stored : w.jobs id = some row)
  | saved {id : Id} {row row' : JobRow} (jobs : w'.jobs = Function.update w.jobs id (some row'))
      (stored : w.jobs id = some row) (later : row.revision < row'.revision) (tidy : row'.Tidy) (free : row'.claim = none)

theorem Turn.advances (turn : Turn w w') : w.Advances w' := by
  have updated : ∀ {id row row'}, w'.jobs = Function.update w.jobs id (some row') → w.jobs id = some row →
      (∃ events, row' = { row with events }) ∨ row.revision < row'.revision → w.Advances w' := by
    intro id row row' jobs stored change other found there
    rw [jobs, Function.update_apply]
    split
    · rename_i here
      cases Option.some.inj (stored.symm.trans (here ▸ there))
      exact ⟨row', rfl, change⟩
    · exact ⟨found, there, .inl ⟨found.events, rfl⟩⟩
  cases turn with
  | same jobs => exact .of_same jobs
  | @inserted id row' jobs absent =>
    intro other found there
    have apart : other ≠ id := fun here => by
      rw [here, absent] at there
      cases there
    exact ⟨found, by rw [jobs, Function.update_of_ne apart]; exact there, .inl ⟨found.events, rfl⟩⟩
  | @logged id row events jobs stored => exact updated jobs stored (.inl ⟨events, rfl⟩)
  | saved jobs stored later => exact updated jobs stored (.inr later)

/-- All rows are tidy, and none is claimed. -/
def Unclaimed (w : World) : Prop := ∀ id row, w.jobs id = some row → row.Tidy ∧ row.claim = none

theorem Turn.unclaimed (turn : Turn w w') (unclaimed : w.Unclaimed) : w'.Unclaimed := by
  have updated : ∀ {id row'}, w'.jobs = Function.update w.jobs id (some row') → row'.Tidy ∧ row'.claim = none →
      w'.Unclaimed := by
    intro id row' jobs good other found there
    rw [jobs, Function.update_apply] at there
    split at there
    · cases there
      exact good
    · exact unclaimed other found there
  cases turn with
  | same jobs => exact fun id row there => unclaimed id row (by rw [← jobs]; exact there)
  | inserted jobs absent tidy free => exact updated jobs ⟨tidy, free⟩
  | @logged id row events jobs stored =>
    obtain ⟨tidy, free⟩ := unclaimed id row stored
    exact updated jobs ⟨tidy.congr rfl rfl rfl rfl, free⟩
  | saved jobs stored later tidy free => exact updated jobs ⟨tidy, free⟩

/-- What a client does that saves nothing. -/
theorem exec_quiet (allowed : task.task.contract.allow m op) (quiet : op.saved? = none)
    (executed : exec settings client op choice w = some (r, w')) :
    w'.jobs = w.jobs ∨ ∃ id row', w'.jobs = Function.update w.jobs id (some row') ∧
      (w.jobs id = none ∧ row'.Tidy ∧ row'.claim = none ∨
        ∃ row events, w.jobs id = some row ∧ row' = { row with events }) := by
  have keeps : op.retains = false := by
    cases retains : op.retains with
    | false => rfl
    | true =>
      obtain ⟨_, _, _, same⟩ := Task.contract_retains allowed retains
      cases task <;> cases same
  rcases exec_cases executed with ⟨_, -, -, rfl⟩ | ⟨r₀, performed, -⟩
  · exact .inl rfl
  by_cases other : Part.jobs ∉ op.writes
  · exact .inl (perform_same other performed : w'.jobs = w.jobs)
  cases op with
  | saveWithEvent => cases quiet
  | saveWithOutboxAndEvent => cases quiet
  | claimExpired => cases keeps
  | complete => cases keeps
  | defer => cases keeps
  | addWithOutboxAndEvent job outboxEvent event =>
    rcases transact_cases (Option.some.inj performed) with ⟨saved, done, -⟩ | ⟨e, -, rfl⟩
    · obtain ⟨absent, -, rfl⟩ := addWithOutboxAndEvent_ok done
      exact .inr ⟨job.id, _, rfl, .inl ⟨absent, JobRow.insert_tidy.append, JobRow.append_claim⟩⟩
    · exact .inl rfl
  | appendEvent event =>
    rcases transact_cases (Option.some.inj performed) with ⟨saved, done, -⟩ | ⟨e, -, rfl⟩
    · obtain ⟨row, found, rfl⟩ := appendEvent_ok done
      refine .inr ⟨event.jobId, _, rfl, .inr ⟨row, (row.append event).2.events, found, ?_⟩⟩
      exact JobRow.append_row event
    · exact .inl rfl
  | _ => exact absurd (by simp [Op.writes]) other

theorem Turn.of_quiet (change : w'.jobs = w.jobs ∨ ∃ id row', w'.jobs = Function.update w.jobs id (some row') ∧
    (w.jobs id = none ∧ row'.Tidy ∧ row'.claim = none ∨
      ∃ row events, w.jobs id = some row ∧ row' = { row with events })) : Turn w w' := by
  rcases change with same | ⟨id, row', jobs, ⟨absent, tidy, free⟩ | ⟨row, events, stored, rfl⟩⟩
  · exact .same same
  · exact .inserted jobs absent tidy free
  · exact .logged jobs stored

end World

namespace Shared

variable {settings : Settings} {client : Nat} {s s' : Shared} {op : Op} {choice : StatementChoice}
  {r : Except Exc op.Val}

/-- A call of a client whose job objects are all as it has read or stored them. -/
theorem execute_other (plain : op.saved?.isSome = true → s.raised client = [])
    (executed : execute settings client (.other op) choice s = some (r, s')) :
    s.world.exec settings client op choice.choice = some (r, s'.world) ∧
      (∀ i, i ≠ client → s'.raised i = s.raised i) ∧ (op.rollsBack r = false → s'.raised = s.raised) := by
  have quiet : (s.world.exec settings client op choice.choice).map
      (fun answer => (answer.1, { s with world := answer.2 })) = some (r, s') → s.world.exec settings client op choice.choice = some (r, s'.world) ∧
        (∀ i, i ≠ client → s'.raised i = s.raised i) ∧ (op.rollsBack r = false → s'.raised = s.raised) := by
    intro executed
    obtain ⟨⟨r₀, w⟩, done, same⟩ := Option.map_eq_some_iff.mp executed
    cases same
    exact ⟨done, fun _ _ => rfl, fun _ => rfl⟩
  have unraised : ∀ {job : Job}, s.raised client = [] → s.holds client job choice.raised = true →
      choice.raised = none := by
    intro job none holds
    cases found : choice.raised with
    | none => rfl
    | some revision => simp [Shared.holds, none, found] at holds
  have raises : ∀ {α : Type} {job : Job} {r : Except Exc α} {w : World},
      (∀ i, i ≠ client → (s.afterSave client job r w).raised i = s.raised i) ∧
        (unconfirmed r = false → (s.afterSave client job r w).raised = s.raised) := by
    intro α job r w
    refine ⟨fun i apart => ?_, fun confirmed => by simp [afterSave, confirmed]⟩
    simp only [afterSave]
    split
    · exact Function.update_of_ne apart _ _
    · rfl
  cases op with
  | getJob => cases executed
  | saveWithEvent job event =>
    simp only [execute] at executed
    split at executed
    · rename_i holds
      rw [unraised (plain rfl) holds] at executed
      obtain ⟨⟨r₀, w⟩, done, same⟩ := Option.map_eq_some_iff.mp executed
      cases same
      exact ⟨done, raises.1, fun confirmed => raises.2 confirmed⟩
    · cases executed
  | saveWithOutboxAndEvent job outboxEvent event =>
    simp only [execute] at executed
    split at executed
    · rename_i holds
      rw [unraised (plain rfl) holds] at executed
      obtain ⟨⟨r₀, w⟩, done, same⟩ := Option.map_eq_some_iff.mp executed
      cases same
      exact ⟨done, raises.1, fun confirmed => raises.2 confirmed⟩
    · cases executed
  | _ => exact quiet executed

end Shared
/-- What a client remembers, read off its past. -/
def notesOf (call : ClientCall) : Notes := call.ghost Notes.ghost fun client => ⟨client.task.memory, false, none⟩

@[simp] theorem notesOf_begin (settings : Settings) (client : Client) :
    notesOf (Call.begin (clients settings) client) = ⟨client.task.memory, false, none⟩ := rfl

@[simp] theorem notesOf_killed (call : ClientCall) : notesOf call.killed = notesOf call := rfl

@[simp] theorem notesOf_answered (call : ClientCall) (statement : Statement) (r : Except Exc statement.Val)
    (next : Except Exc statement.Val → Prog StatementSig Exc Reply) :
    notesOf (call.answered (S := StatementSig) statement r next) = (notesOf call).next statement r := rfl

/-- The queries of the read are the last statements of the past. -/
def PartialRead.Sent (reading : PartialRead) (past : Trace StatementSig) : Prop :=
  match reading.pages with
  | none => [⟨.selectJob reading.site reading.head.id, .ok (some reading.head)⟩] <+: past
  | some pages =>
    [⟨.selectPages reading.head.id reading.head.attempt, .ok pages⟩,
      ⟨.selectJob reading.site reading.head.id, .ok (some reading.head)⟩] <+: past

/-- All that the call knows of jobs is stored, or older. -/
structure Abreast (w : World) (call : ClientCall) : Prop where
  seen : ∀ entry ∈ (notesOf call).memory.seen, w.Current entry.1 entry.2 ∧ Stems call.past entry.1 entry.2
  lost : (notesOf call).memory.lost = []
  reading : ∀ reading ∈ (notesOf call).reading, w.Begun reading ∧ reading.Sent call.past

structure Chained (s : ClientState) : Prop where
  unclaimed : s.world.world.Unclaimed
  abreast : ∀ call ∈ s.calls, Abreast s.world.world call
  raised : ∀ i, (∀ call ∈ s.calls[i]?, (notesOf call).failed = false) → s.world.raised i = []

section

variable {settings : Settings} {w w' : World} {call : ClientCall} {op : Op} {choice : Choice} {i : Nat}
  {r : Except Exc op.Val} {job : Job} {event : JobEvent} {row row' : JobRow} {days : Nat} {past : Trace StatementSig}
  {origin : Option Site} {v : Job} {next : Except Exc op.Val → Prog StatementSig Exc Reply}

theorem Abreast.advances (abreast : Abreast w call) (advances : w.Advances w') : Abreast w' call where
  seen entry member := ⟨(abreast.seen entry member).1.advances advances, (abreast.seen entry member).2⟩
  lost := abreast.lost
  reading reading member := ⟨(abreast.reading reading member).1.advances advances, (abreast.reading reading member).2⟩

theorem Stems.cons (stems : Stems past origin v) (entry : (statement : Statement) × Except Exc statement.Val) :
    Stems (entry :: past) origin v := by
  cases origin with
  | some site =>
    obtain ⟨head, pages, artifacts, same, sent⟩ := stems
    exact ⟨head, pages, artifacts, same, sent.trans (List.suffix_cons entry past).isInfix⟩
  | none =>
    obtain ⟨job, op, event, saved, same, saving, revision, member⟩ := stems
    exact ⟨job, op, event, saved, same, saving, revision, List.mem_cons_of_mem _ member⟩

/-- A save that finds its row was made from all that the row is. -/
theorem Abreast.saves (abreast : Abreast w call) (allowed : call.task.task.contract.allow (notesOf call).memory op)
    (saving : op.saved? = some (job, event)) (found : w.jobs job.id = some row) (done : row.save job days = .ok row') :
    ∃ origin v, Stems call.past origin v ∧ row.Holds v ∧ (origin.isSome = true → v = row.toJob job.id) ∧
      v.Edits origin event.eventType job := by
  have derived : (notesOf call).memory.Derived event.eventType job := by
    have writes := Task.contract_writes allowed
    cases op with
    | saveWithEvent =>
      cases saving
      exact writes.1
    | saveWithOutboxAndEvent =>
      cases saving
      exact writes.1
    | _ => cases saving
  rcases derived with lost | ⟨origin, v, member, -, edits⟩
  · have gone := lost.1
    rw [abreast.lost] at gone
    cases gone
  · obtain ⟨⟨stored, there, -, same⟩, stems⟩ := abreast.seen _ member
    have own : v.id = job.id := edits.id.symm
    rw [own] at there same
    cases Option.some.inj (there.symm.trans found)
    have revision : v.revision = row.revision := edits.revision.symm.trans (JobRow.save_ok done).revision.symm
    obtain ⟨holds, read⟩ := same revision
    exact ⟨origin, v, stems, holds, read, edits⟩

/-- A client learns of jobs by its reads and its saves. -/
theorem client_learns {client : Client} {m : Memory} (allowed : client.task.contract.allow m op)
    (quiet : op.saved? = none) (unread : ∀ site id, op ≠ .getJob site id) :
    (m.next op r).seen = m.seen ∧ (m.next op r).lost = m.lost := by
  cases op with
  | getJob site id => exact absurd rfl (unread site id)
  | saveWithEvent => cases quiet
  | saveWithOutboxAndEvent => cases quiet
  | getMany =>
    cases client with
    | process =>
      obtain ⟨_, -, no⟩ := allowed
      exact no.elim
    | _ => exact allowed.elim
  | _ => cases r <;> exact ⟨rfl, rfl⟩

theorem save_forgets {m : Memory} (saving : op.saved? = some (job, event)) : (m.next op r).lost = m.lost := by
  cases op with
  | saveWithEvent => cases r <;> rfl
  | saveWithOutboxAndEvent => cases r <;> rfl
  | _ => cases saving

/-- The step of a client that is no query. -/
theorem Abreast.other (abreast : Abreast w call) (unclaimed : w.Unclaimed)
    (next : Except Exc op.Val → Prog StatementSig Exc Reply)
    (allowed : call.task.task.contract.allow (notesOf call).memory op) (idle : (notesOf call).reading = none)
    (unread : ∀ site id, op ≠ .getJob site id)
    (executed : w.exec settings i op choice = some (r, w')) :
    World.Turn w w' ∧ Abreast w' (call.answered (S := StatementSig) (.other op) r next) := by
  have still : ∀ reading ∈ (notesOf (call.answered (S := StatementSig) (.other op) r next)).reading,
      w'.Begun reading ∧ reading.Sent (call.answered (S := StatementSig) (.other op) r next).past := by
    intro reading member
    have none : (notesOf (call.answered (S := StatementSig) (.other op) r next)).reading = none := idle
    rw [none] at member
    cases member
  cases saving : op.saved? with
  | none =>
    obtain ⟨seen, lost⟩ := client_learns (r := r) allowed saving unread
    have turn : World.Turn w w' := .of_quiet (World.exec_quiet allowed saving executed)
    refine ⟨turn, fun entry member => ?_, lost.trans abreast.lost, still⟩
    have old : entry ∈ (notesOf call).memory.seen := seen ▸ member
    exact ⟨(abreast.seen entry old).1.advances turn.advances, (abreast.seen entry old).2.cons _⟩
  | some saved =>
    obtain ⟨job, event⟩ := saved
    have lost : ((notesOf call).memory.next op r).lost = [] := (save_forgets saving).trans abreast.lost
    rcases World.exec_save (m := (notesOf call).memory) saving executed with
      ⟨seen, jobs⟩ | ⟨row, row', found, done, jobs, seen⟩
    · have turn : World.Turn w w' := .same jobs
      refine ⟨turn, fun entry member => ?_, lost, still⟩
      have old := seen entry member
      exact ⟨(abreast.seen entry old).1.advances turn.advances, (abreast.seen entry old).2.cons _⟩
    · obtain ⟨origin, v, -, holds, -, edits⟩ := abreast.saves allowed saving found done
      have saves := JobRow.save_ok done
      have tidy := (unclaimed _ row found).1
      have edit : Edit origin row.version event.eventType job.version := holds.version ▸ edits.edit
      have later : row.revision < (row'.append event).2.revision := by
        rw [JobRow.append_revision, saves.next]
        omega
      have turn : World.Turn w w' := .saved jobs found later (saves.tidy tidy edit).append
        (JobRow.append_claim.trans saves.claim)
      refine ⟨turn, fun entry member => ?_, lost, still⟩
      rcases seen entry member with old | ⟨rfl, saved, rfl, revision⟩
      · exact ⟨(abreast.seen entry old).1.advances turn.advances, (abreast.seen entry old).2.cons _⟩
      · have stored : (row'.append event).2.Holds { job with revision := row'.revision } := by
          rw [saves.next]
          exact (JobRow.save_holds done tidy edit).append
        refine ⟨⟨(row'.append event).2, ?_, stored.revision.ge, fun _ => ⟨stored, by simp⟩⟩, ?_⟩
        · rw [jobs]
          exact Function.update_self ..
        · exact ⟨job, op, event, saved, rfl, saving, revision, List.mem_cons_self⟩

/-- A query answers what is stored, or fails. -/
theorem query_cases {α : Type} {rows : α} {r : Except Exc α} {shared shared' : Shared}
    (executed : (choice.query rows).map (fun r => (r, shared)) = some (r, shared')) :
    shared' = shared ∧ (r = .ok rows ∨ ∃ e, r = .error e) := by
  obtain ⟨r₀, asked, same⟩ := Option.map_eq_some_iff.mp executed
  cases same
  refine ⟨rfl, ?_⟩
  unfold Choice.query at asked
  split at asked
  · exact .inl (Option.some.inj asked).symm
  all_goals
    split at asked
    · exact .inr ⟨_, (Option.some.inj asked).symm⟩
    · cases asked

theorem World.selectJob_some {id : Id} {head : Job} (found : w.selectJob id = some head) :
    ∃ row, w.jobs id = some row ∧ head = (row.toJob id).head := by
  obtain ⟨job, read, rfl⟩ := Option.map_eq_some_iff.mp found
  obtain ⟨row, stored, -, rfl⟩ := World.getJob_some read
  exact ⟨row, stored, rfl⟩

/-- A job that the client has seen is found. -/
theorem Abreast.found (abreast : Abreast w call) (unclaimed : w.Unclaimed) {id : Id} (none : w.selectJob id = none) :
    ((notesOf call).memory.seen.any fun entry => entry.2.id = id) = false := by
  rw [List.any_eq_false]
  intro entry member
  rw [decide_eq_true_eq]
  intro own
  obtain ⟨⟨row, stored, -⟩, -⟩ := abreast.seen entry member
  rw [own] at stored
  have free := (unclaimed id row stored).2
  simp [World.selectJob, World.getJob, stored, free] at none

/-- What the queries of one read have found together is one version, if the row
has not changed since the first. -/
theorem World.Begun.whole {reading : PartialRead} {pages : List PageRow} (begun : w.Begun reading)
    (paged : reading.pages = some pages) :
    w.Current (some reading.site) (AsyncpgJobRepository.fromRows reading.head pages
      (w.selectArtifacts reading.head.id reading.head.attempt)) := by
  obtain ⟨row, stored, older, same⟩ := begun
  refine ⟨row, stored, older, fun current => ?_⟩
  obtain ⟨head, rows⟩ := same current
  have attempt : reading.head.attempt = row.currentAttempt := by rw [head]; rfl
  have whole : AsyncpgJobRepository.fromRows reading.head pages
      (w.selectArtifacts reading.head.id reading.head.attempt) = row.toJob reading.head.id := by
    rw [rows pages paged, World.selectArtifacts, stored, attempt]
    generalize reading.head.id = id at head
    rw [head]
    rfl
  have own : (AsyncpgJobRepository.fromRows reading.head pages
      (w.selectArtifacts reading.head.id reading.head.attempt)).id = reading.head.id := rfl
  rw [own, whole]
  exact ⟨JobRow.holds_toJob, fun _ => rfl⟩

/-- A statement that teaches the client at most one version. -/
theorem Abreast.learns (abreast : Abreast w call) {call' : ClientCall}
    {entry : (statement : Statement) × Except Exc statement.Val} (past : call'.past = entry :: call.past)
    (seen : ∀ entry ∈ (notesOf call').memory.seen, entry ∈ (notesOf call).memory.seen ∨
      w.Current entry.1 entry.2 ∧ Stems call'.past entry.1 entry.2)
    (lost : (notesOf call').memory.lost = [])
    (reading : ∀ reading ∈ (notesOf call').reading, w.Begun reading ∧ reading.Sent call'.past) :
    Abreast w call' := by
  refine ⟨fun known member => ?_, lost, reading⟩
  rcases seen known member with old | new
  · rw [past]
    exact ⟨(abreast.seen known old).1, (abreast.seen known old).2.cons entry⟩
  · exact new

theorem Abreast.selected (abreast : Abreast w call) (unclaimed : w.Unclaimed) {site : Site} {id : Id}
    {next : Except Exc (Option Job) → Prog StatementSig Exc Reply} (idle : (notesOf call).reading = none) :
    Abreast w (call.answered (S := StatementSig) (.selectJob site id) (.ok (w.selectJob id)) next) := by
  cases found : w.selectJob id with
  | none =>
    have unseen := abreast.found unclaimed found
    refine abreast.learns rfl (fun known member => .inl member) ?_ fun reading member => ?_
    · simp only [notesOf_answered, Notes.next, Memory.next, unseen]
      exact abreast.lost
    · have none : (notesOf (call.answered (S := StatementSig) (.selectJob site id) (.ok none) next)).reading = none :=
        idle
      rw [none] at member
      cases member
  | some head =>
    obtain ⟨row, stored, rfl⟩ := World.selectJob_some found
    refine abreast.learns rfl (fun known member => .inl member) abreast.lost fun reading member => ?_
    cases Option.some.inj member
    refine ⟨⟨row, stored, le_rfl, fun _ => ⟨rfl, by simp⟩⟩, ?_⟩
    exact ⟨call.past, rfl⟩

theorem Abreast.paged (abreast : Abreast w call) {id : Id} {attempt : Nat}
    {next : Except Exc (List PageRow) → Prog StatementSig Exc Reply}
    (allowed : (Notes.contract call.task).allow (notesOf call) (.selectPages id attempt)) :
    Abreast w (call.answered (S := StatementSig) (.selectPages id attempt) (.ok (w.selectPages id attempt)) next) := by
  obtain ⟨site, head, began, rfl, rfl⟩ := allowed
  obtain ⟨⟨row, stored, older, same⟩, sent⟩ := abreast.reading _ began
  refine abreast.learns rfl (fun known member => .inl member) abreast.lost fun reading member => ?_
  have now : reading = ⟨site, head, some (w.selectPages head.id head.attempt)⟩ := by
    simp only [notesOf_answered, Notes.next, began, Option.map_some] at member
    exact (Option.some.inj member).symm
  subst now
  refine ⟨⟨row, stored, older, fun current => ?_⟩, ?_⟩
  · obtain ⟨columns, -⟩ := same current
    refine ⟨columns, fun pages paged => ?_⟩
    have attempt : head.attempt = row.currentAttempt := (congrArg Job.attempt columns).trans rfl
    cases Option.some.inj paged
    rw [World.selectPages, stored, attempt]
    rfl
  · exact (List.prefix_cons_inj _).mpr sent

theorem Abreast.completed (abreast : Abreast w call) {id : Id} {attempt : Nat}
    {next : Except Exc (List Artifact) → Prog StatementSig Exc Reply}
    (allowed : (Notes.contract call.task).allow (notesOf call) (.selectArtifacts id attempt)) :
    Abreast w (call.answered (S := StatementSig) (.selectArtifacts id attempt) (.ok (w.selectArtifacts id attempt))
      next) := by
  obtain ⟨site, head, pages, began, rfl, rfl⟩ := allowed
  obtain ⟨begun, sent⟩ := abreast.reading _ began
  have after : notesOf (call.answered (S := StatementSig) (.selectArtifacts head.id head.attempt)
      (.ok (w.selectArtifacts head.id head.attempt)) next) =
      { notesOf call with
        memory := (notesOf call).memory.next (.getJob site head.id) (.ok (some
          (AsyncpgJobRepository.fromRows head pages (w.selectArtifacts head.id head.attempt))))
        reading := none } := by
    simp only [notesOf_answered, Notes.next, began]
  refine abreast.learns rfl (fun known member => ?_) ?_ fun reading member => ?_
  · rw [after] at member
    rcases List.mem_cons.mp member with rfl | old
    · refine .inr ⟨begun.whole rfl, head, pages, w.selectArtifacts head.id head.attempt, rfl, ?_⟩
      exact ((List.prefix_cons_inj _).mpr sent).isInfix
    · exact .inl old
  · rw [after]
    exact abreast.lost
  · rw [after] at member
    cases member

/-- A query that fails ends the read. -/
theorem Abreast.unanswered (abreast : Abreast w call) {statement : Statement} {e : Exc}
    {next : Except Exc statement.Val → Prog StatementSig Exc Reply} (query : ∀ op, statement ≠ .other op) :
    Abreast w (call.answered (S := StatementSig) statement (.error e) next) := by
  have notes : notesOf (call.answered (S := StatementSig) statement (.error e) next) =
      { notesOf call with reading := none } := by
    cases statement with
    | other op => exact absurd rfl (query op)
    | _ => rfl
  refine abreast.learns rfl (fun known member => ?_) ?_ fun reading member => ?_
  · rw [notes] at member
    exact .inl member
  · rw [notes]
    exact abreast.lost
  · rw [notes] at member
    cases member

/-- The step of a client that is a query. -/
theorem Abreast.query (abreast : Abreast w call) (unclaimed : w.Unclaimed) {statement : Statement}
    {r : Except Exc statement.Val} (next : Except Exc statement.Val → Prog StatementSig Exc Reply)
    {choice : StatementChoice} {shared shared' : Shared} (same : shared.world = w)
    (query : ∀ op, statement ≠ .other op) (allowed : (Notes.contract call.task).allow (notesOf call) statement)
    (executed : shared.execute settings i statement choice = some (r, shared')) :
    shared' = shared ∧ Abreast w (call.answered (S := StatementSig) statement r next) := by
  subst same
  cases statement with
  | other op => exact absurd rfl (query op)
  | selectJob site id =>
    obtain ⟨rfl, rfl | ⟨e, rfl⟩⟩ := query_cases executed
    · exact ⟨rfl, abreast.selected unclaimed allowed⟩
    · exact ⟨rfl, abreast.unanswered query⟩
  | selectPages id attempt =>
    obtain ⟨rfl, rfl | ⟨e, rfl⟩⟩ := query_cases executed
    · exact ⟨rfl, abreast.paged allowed⟩
    · exact ⟨rfl, abreast.unanswered query⟩
  | selectArtifacts id attempt =>
    obtain ⟨rfl, rfl | ⟨e, rfl⟩⟩ := query_cases executed
    · exact ⟨rfl, abreast.completed allowed⟩
    · exact ⟨rfl, abreast.unanswered query⟩

/-- The client keeps its contract from here on. -/
abbrev ClientTracked (call : ClientCall) : Prop :=
  Tracks Notes.ghost (fun client => ⟨client.task.memory, false, none⟩) Notes.contract (fun _ _ _ => True)
    (fun _ _ _ => True) call

variable {s s' : ClientState} {action : ClientStep} {id : Id}

/-- A statement of a client whose job objects are all as it has read or stored
them changes at most one row, and leaves all it knows abreast of the rows. -/
theorem Chained.statement (chained : Chained s) {statement : Statement} {r : Except Exc statement.Val}
    {choice : StatementChoice} {shared : Shared} (next : Except Exc statement.Val → Prog StatementSig Exc Reply)
    (at_i : s.calls[i]? = some call) (allowed : (Notes.contract call.task).allow (notesOf call) statement)
    (executed : s.world.execute settings i statement choice = some (r, shared)) :
    World.Turn s.world.world shared.world ∧
      Abreast shared.world (call.answered (S := StatementSig) statement r next) ∧
      (∀ j, j ≠ i → shared.raised j = s.world.raised j) ∧
      ((notesOf (call.answered (S := StatementSig) statement r next)).failed = false →
        (notesOf call).failed = false ∧ shared.raised = s.world.raised) := by
  have abreast := chained.abreast call (List.mem_of_getElem? at_i)
  by_cases other : ∃ op, statement = .other op
  · obtain ⟨op, rfl⟩ := other
    obtain ⟨idle, calls, saves⟩ := allowed
    have plain : op.saved?.isSome = true → s.world.raised i = [] := fun saving =>
      chained.raised i fun found there => by
        cases Option.some.inj (at_i.symm.trans there)
        exact saves saving
    have unread : ∀ site id, op ≠ .getJob site id := by
      intro site id same
      subst same
      cases executed
    obtain ⟨performed, apart, kept⟩ := Shared.execute_other plain executed
    obtain ⟨turn, later⟩ := abreast.other chained.unclaimed next calls idle unread performed
    refine ⟨turn, later, apart, fun good => ?_⟩
    have both : ((notesOf call).failed || op.rollsBack r) = false := good
    obtain ⟨before, stays⟩ := Bool.or_eq_false_iff.mp both
    exact ⟨before, kept stays⟩
  · have query : ∀ op, statement ≠ .other op := fun op same => other ⟨op, same⟩
    obtain ⟨rfl, later⟩ := abreast.query chained.unclaimed next rfl query allowed executed
    refine ⟨.same rfl, later, fun _ _ => rfl, fun good => ⟨?_, rfl⟩⟩
    have same : (notesOf (call.answered (S := StatementSig) statement r next)).failed = (notesOf call).failed := by
      cases statement with
      | other op => exact absurd rfl (query op)
      | selectJob => rcases r with e | _ | head <;> rfl
      | selectPages => rcases r with e | pages <;> rfl
      | selectArtifacts =>
        obtain ⟨site, head, pages, began, -⟩ := allowed
        rcases r with e | artifacts
        · rfl
        · simp only [notesOf_answered, Notes.next, began]
    exact same.symm.trans good

theorem Chained.step (chained : Chained s) (tracked : ∀ call ∈ s.calls, ClientTracked call)
    (step : (clients settings).step s action = some s') : Chained s' := by
  cases action with
  | start client =>
    cases Option.some.inj step
    refine ⟨chained.unclaimed, fun call member => ?_, fun j good => chained.raised j fun call there => ?_⟩
    · rcases List.mem_append.mp member with old | new
      · exact chained.abreast call old
      · cases List.mem_singleton.mp new
        have blank : client.task.memory.seen = [] ∧ client.task.memory.lost = [] := by
          cases client <;> exact ⟨rfl, rfl⟩
        refine ⟨fun entry seen => ?_, blank.2, fun reading none => by cases none⟩
        rw [notesOf_begin, blank.1] at seen
        cases seen
    · have inside : j < s.calls.length := (List.getElem?_eq_some_iff.mp there).1
      exact good call (by rw [List.getElem?_append_left inside]; exact there)
  | resume i choice =>
    obtain ⟨call, statement, next, r, shared, at_i, prog, executed, rfl⟩ := Machine.step_resume step
    have own : ClientTracked call := tracked call (List.mem_of_getElem? at_i)
    rw [ClientTracked, Tracks, prog, Prog.meets_call] at own
    obtain ⟨turn, later, apart, kept⟩ := chained.statement next at_i own.1 executed
    refine ⟨turn.unclaimed chained.unclaimed, fun other member => ?_, fun j good => ?_⟩
    · rcases Machine.mem_set_answered member with old | rfl
      · exact (chained.abreast other old).advances turn.advances
      · exact later
    · by_cases here : j = i
      · subst here
        have inside : j < s.calls.length := (List.getElem?_eq_some_iff.mp at_i).1
        obtain ⟨before, same⟩ := kept (good _ (by rw [List.getElem?_set_self inside]; rfl))
        change shared.raised j = []
        rw [same]
        refine chained.raised j fun found there => ?_
        cases Option.some.inj (at_i.symm.trans there)
        exact before
      · refine (apart j here).trans (chained.raised j fun found there => good found ?_)
        rw [List.getElem?_set_ne (Ne.symm here)]
        exact there
  | kill j =>
    cases Option.some.inj step
    refine ⟨chained.unclaimed, fun call member => ?_, fun l good => chained.raised l fun call there => ?_⟩
    · rcases Machine.mem_modify_killed member with old | ⟨before, old, rfl⟩
      · exact chained.abreast call old
      · exact ⟨(chained.abreast before old).seen, (chained.abreast before old).lost, (chained.abreast before old).reading⟩
    · by_cases here : j = l
      · have now : (s.calls.modify j Call.killed)[l]? = some call.killed := by
          rw [List.getElem?_modify, there]
          simp [here]
        exact good call.killed now
      · refine good call ?_
        rw [List.getElem?_modify, there]
        simp [here]
  | env event => exact event.elim

theorem Idle.chained (idle : Idle s) : Chained s where
  unclaimed id row stored := by
    rw [idle.world.jobs] at stored
    cases stored
  abreast := by simp [idle.calls]
  raised i _ := idle.raised i

theorem JobRow.save_error {e : Exc} (failed : row.save job days = .error e) :
    e = .concurrentJobUpdate ∨ e.isOther = true := by
  unfold JobRow.save at failed
  split at failed
  · exact .inl (Except.error.inj failed).symm
  · split at failed
    · exact .inr (Except.error.inj failed ▸ rfl)
    · split at failed
      · exact .inr (Except.error.inj failed ▸ rfl)
      · cases failed

theorem World.saveWithEvent_error {e : Exc} (failed : w.saveWithEvent job event days = .error e) :
    e = .concurrentJobUpdate ∨ e.isOther = true := by
  unfold World.saveWithEvent World.saveJob at failed
  split at failed
  · rename_i row _
    cases saved : row.save job days with
    | error e' =>
      rw [saved] at failed
      cases failed
      exact JobRow.save_error saved
    | ok row' =>
      rw [saved] at failed
      cases failed
  · cases failed
    exact .inl rfl

/-- A save fails by a conflict or by an exception that the code does not tell apart. -/
theorem save_raises {e : Exc} (saving : op.saved?.isSome = true)
    (executed : w.exec settings i op choice = some (.error e, w')) : e = .concurrentJobUpdate ∨ e.isOther = true := by
  cases op with
  | saveWithEvent own event =>
    rcases World.exec_cases executed with ⟨_, same, raises, -⟩ | ⟨r₀, performed, same | ⟨_, same, raises, -⟩⟩
    · cases same
      exact .inr raises
    · have done := congrArg Prod.fst (Option.some.inj performed)
      rw [← same] at done
      cases saved : w.saveWithEvent own event settings.jobRetentionDays with
      | ok pair =>
        rw [saved] at done
        cases done
      | error e' =>
        rw [saved] at done
        cases done
        exact World.saveWithEvent_error saved
    · cases same
      exact .inr raises
  | saveWithOutboxAndEvent own outboxEvent event =>
    rcases World.exec_cases executed with ⟨_, same, raises, -⟩ | ⟨r₀, performed, same | ⟨_, same, raises, -⟩⟩
    · cases same
      exact .inr raises
    · have done := congrArg Prod.fst (Option.some.inj performed)
      rw [← same] at done
      cases saved : w.saveWithEvent own event settings.jobRetentionDays with
      | ok pair =>
        simp only [World.saveWithOutboxAndEvent, saved] at done
        cases done
      | error e' =>
        simp only [World.saveWithOutboxAndEvent, saved] at done
        cases done
        exact World.saveWithEvent_error saved
    · cases same
      exact .inr raises
  | _ => cases saving

/-- A query or a call of a client answers as its contract relies on. -/
theorem execute_answers {statement : Statement} {r : Except Exc statement.Val} {choice : StatementChoice}
    {shared shared' : Shared} (executed : shared.execute settings i statement choice = some (r, shared')) :
    Notes.answers statement r := by
  cases statement with
  | selectJob site id =>
    obtain ⟨-, rfl | ⟨e, rfl⟩⟩ := query_cases executed
    · cases found : shared.world.selectJob id with
      | none => trivial
      | some head =>
        obtain ⟨row, -, rfl⟩ := World.selectJob_some found
        rfl
    · trivial
  | selectPages => trivial
  | selectArtifacts => trivial
  | other op =>
    have direct : (shared.world.exec settings i op choice.choice).map
        (fun answer => (answer.1, { shared with world := answer.2 })) = some (r, shared') → op.saved? = none → Notes.answers (.other op) r := by
      intro executed quiet
      obtain ⟨⟨r₀, w⟩, done, same⟩ := Option.map_eq_some_iff.mp executed
      cases same
      exact ⟨exec_answer done, fun saving => by simp [quiet] at saving⟩
    cases op with
    | getJob => cases executed
    | saveWithEvent job event =>
      simp only [Shared.execute] at executed
      split at executed
      · obtain ⟨⟨r₀, w⟩, done, same⟩ := Option.map_eq_some_iff.mp executed
        cases same
        refine ⟨trivial, fun _ e failed => ?_⟩
        have raised : r₀ = .error e := failed
        rw [raised] at done
        have saving : (Op.saveWithEvent (Shared.inMemory job choice.raised) event).saved?.isSome = true := rfl
        exact save_raises saving done
      · cases executed
    | saveWithOutboxAndEvent job outboxEvent event =>
      simp only [Shared.execute] at executed
      split at executed
      · obtain ⟨⟨r₀, w⟩, done, same⟩ := Option.map_eq_some_iff.mp executed
        cases same
        refine ⟨trivial, fun _ e failed => ?_⟩
        have raised : r₀ = .error e := failed
        rw [raised] at done
        have saving : (Op.saveWithOutboxAndEvent (Shared.inMemory job choice.raised) outboxEvent
          event).saved?.isSome = true := rfl
        exact save_raises saving done
      · cases executed
    | _ => exact direct executed rfl

theorem Chained.run {first : ClientState} (idle : Idle first)
    (run : (clients settings).Run (fun _ _ => True) first s) :
    Chained s ∧ ∀ call ∈ s.calls, ClientTracked call := by
  induction run with
  | start => exact ⟨idle.chained, by simp [idle.calls]⟩
  | next _ _ step ih =>
    refine ⟨ih.1.step ih.2 step, ?_⟩
    exact tracks_step (Notes.client_meets settings) (fun _ _ _ _ _ _ executed _ _ => execute_answers executed) ih.2 step

/-- What a call that is no query does to one row. -/
theorem Chained.commits (chained : Chained s) {row : JobRow} {shared : Shared} {choice : StatementChoice}
    (at_i : s.calls[i]? = some call) (prog : call.prog = .call (.other op) next)
    (allowed : (Notes.contract call.task).allow (notesOf call) (.other op))
    (executed : s.world.execute settings i (.other op) choice = some (r, shared))
    (stored : s.world.world.jobs id = some row) :
    ∃ row', shared.world.jobs id = some row' ∧ (row'.toJob id = row.toJob id ∨ Commits call id row row') := by
  obtain ⟨-, calls, saves⟩ := allowed
  have plain : op.saved?.isSome = true → s.world.raised i = [] := fun saving =>
    chained.raised i fun found there => by
      cases Option.some.inj (at_i.symm.trans there)
      exact saves saving
  obtain ⟨performed, -, -⟩ := Shared.execute_other plain executed
  have abreast := chained.abreast call (List.mem_of_getElem? at_i)
  have kept : shared.world.jobs = s.world.world.jobs → ∃ row', shared.world.jobs id = some row' ∧
      (row'.toJob id = row.toJob id ∨ Commits call id row row') :=
    fun same => ⟨row, by rw [same]; exact stored, .inl rfl⟩
  cases saving : op.saved? with
  | none =>
    rcases World.exec_quiet calls saving performed with same | ⟨other, row', jobs, change⟩
    · exact kept same
    · by_cases here : id = other
      · subst here
        refine ⟨row', by rw [jobs, Function.update_self], ?_⟩
        rcases change with ⟨absent, -⟩ | ⟨before, events, there, rfl⟩
        · rw [absent] at stored
          cases stored
        · cases Option.some.inj (there.symm.trans stored)
          exact .inl rfl
      · exact ⟨row, by rw [jobs, Function.update_of_ne here]; exact stored, .inl rfl⟩
  | some saved =>
    obtain ⟨job, event⟩ := saved
    rcases World.exec_save (m := (notesOf call).memory) saving performed with
      ⟨-, same⟩ | ⟨before, row', found, done, jobs, -⟩
    · exact kept same
    · by_cases here : id = job.id
      · subst here
        cases Option.some.inj (found.symm.trans stored)
        obtain ⟨origin, v, stems, holds, read, edits⟩ := abreast.saves calls saving found done
        have tidy := (chained.unclaimed _ row found).1
        have edit : Edit origin row.version event.eventType job.version := holds.version ▸ edits.edit
        refine ⟨(row'.append event).2, by rw [jobs, Function.update_self], .inr ?_⟩
        exact ⟨op, next, job, event, origin, v, prog, saving, rfl, stems, holds, read, edits,
          (JobRow.save_holds done tidy edit).append⟩
      · exact ⟨row, by rw [jobs, Function.update_of_ne here]; exact stored, .inl rfl⟩

/-- No update is lost and no torn read is stored: whatever the interleaving of
single statements, kills and rolled back transactions, a stored job changes only
by a save that was made from the version it replaces, in all that a save writes. -/
theorem saves_chained {first : ClientState} {row : JobRow} (idle : Idle first)
    (run : (clients settings).Run (fun _ _ => True) first s) (step : (clients settings).step s action = some s')
    (stored : s.world.world.jobs id = some row) :
    ∃ row', s'.world.world.jobs id = some row' ∧ (row'.toJob id = row.toJob id ∨
      ∃ i choice call, action = .resume i choice ∧ s.calls[i]? = some call ∧ Commits call id row row') := by
  obtain ⟨chained, tracked⟩ := Chained.run idle run
  cases action with
  | start client =>
    cases Option.some.inj step
    exact ⟨row, stored, .inl rfl⟩
  | kill j =>
    cases Option.some.inj step
    exact ⟨row, stored, .inl rfl⟩
  | env event => exact event.elim
  | resume i choice =>
    obtain ⟨call, statement, next, r, shared, at_i, prog, executed, rfl⟩ := Machine.step_resume step
    have own : ClientTracked call := tracked call (List.mem_of_getElem? at_i)
    rw [ClientTracked, Tracks, prog, Prog.meets_call] at own
    by_cases other : ∃ op, statement = .other op
    · obtain ⟨op, rfl⟩ := other
      obtain ⟨row', there, change⟩ := chained.commits at_i prog own.1 executed stored
      exact ⟨row', there, change.imp (fun same => same) fun commits => ⟨i, choice, call, rfl, at_i, commits⟩⟩
    · have query : ∀ op, statement ≠ .other op := fun op same => other ⟨op, same⟩
      have abreast := chained.abreast call (List.mem_of_getElem? at_i)
      obtain ⟨rfl, -⟩ := abreast.query chained.unclaimed next rfl query own.1 executed
      exact ⟨row, stored, .inl rfl⟩

end

/-- The deployment with one document, which no client uses yet. -/
def idleDocument : ClientState := ⟨⟨oneDocument.world, fun _ => []⟩, []⟩

theorem idleDocument_idle : Idle idleDocument := ⟨oneDocument_initial.world, fun _ => rfl, rfl⟩

/-- The client `i` gets these answers. -/
def replied (i : Nat) (choices : List Choice) : List ClientStep := choices.map fun choice => .resume i { choice }

/-- A job is created, and a delivery of its message has read it and begins it. -/
def beginSteps : List ClientStep :=
  .start (.createJob ⟨0, []⟩ 7 "request" none) :: replied 0 [.go, .go, .now, .go, .now, .go, .go] ++
    .start (.process 5 firstMessage) :: replied 1 [.go, .go, .go, .go, .now, .now]

/-- The save of the delivery is made from the version that its read found. -/
theorem saves_chained_begun : ∃ s s' row row', (clients {}).runs idleDocument beginSteps = some s ∧
    (clients {}).step s (.resume 1 {}) = some s' ∧ s.world.world.jobs 1 = some row ∧
    s'.world.world.jobs 1 = some row' ∧ (row'.toJob 1 = row.toJob 1 ∨
      ∃ i choice call, (.resume 1 {} : ClientStep) = .resume i choice ∧ s.calls[i]? = some call ∧
        Commits call 1 row row') ∧
    row'.status = .preprocessing := by
  have played : ((clients {}).runs idleDocument beginSteps).any (fun s => (s.world.world.jobs 1).isSome &&
      ((clients {}).step s (.resume 1 {})).any fun s' =>
        (s'.world.world.jobs 1).any fun row => row.status = .preprocessing) = true := by decide +kernel
  obtain ⟨s, runs, rest⟩ := (Option.any_eq_true _ _).mp played
  obtain ⟨there, rest⟩ := (Bool.and_eq_true _ _).mp rest
  obtain ⟨row, stored⟩ := Option.isSome_iff_exists.mp there
  obtain ⟨s', step, begun⟩ := (Option.any_eq_true _ _).mp rest
  obtain ⟨row', stored', change⟩ := saves_chained idleDocument_idle (.of_runs runs fun _ _ _ => trivial) step stored
  refine ⟨s, s', row, row', runs, step, stored, stored', change, ?_⟩
  rw [stored'] at begun
  exact of_decide_eq_true begun

end MonkeyOcr
