import MonkeyOcr.Cleanup.Claims
import MonkeyOcr.Requests.Creation
import MonkeyOcr.Requests.Stored

namespace MonkeyOcr

open Calls
open Codec (Json)

/-- The row is the job of the owner's key. -/
def JobRow.HasKey (row : JobRow) (ownerId : Id) (key : String) : Prop :=
  row.apiKeyId = ownerId ∧ row.idempotencyKey = some key

instance (row : JobRow) (ownerId : Id) (key : String) : Decidable (row.HasKey ownerId key) :=
  inferInstanceAs (Decidable (_ ∧ _))

/-- The candidate that a call completes next. -/
def completing? (call : SystemCall) : Option RetentionCandidate :=
  match call.prog with
  | .call (.complete candidate) _ => some candidate
  | _ => none

/-- Retention does not remove the job of the owner's key. -/
def KeepsKey (ownerId : Id) (key : String) (s : State) : Step → Prop
  | .resume i _ =>
    ∀ call ∈ s.calls[i]?, ∀ candidate ∈ completing? call, candidate.aggregateKind = .job →
      ∀ row ∈ s.world.jobs candidate.aggregateId, row.HasKey ownerId key →
        World.holds row.claim candidate.claimToken = false
  | _ => True

instance (ownerId : Id) (key : String) (s : State) : ∀ action, Decidable (KeepsKey ownerId key s action)
  | .resume i _ => inferInstanceAs (Decidable (∀ call ∈ s.calls[i]?, ∀ candidate ∈ completing? call,
      candidate.aggregateKind = .job → ∀ row ∈ s.world.jobs candidate.aggregateId, row.HasKey ownerId key →
        World.holds row.claim candidate.claimToken = false))
  | .start _ | .kill _ | .env _ => isTrue trivial

/-- What a `create_job` with the owner's key remembers fits the database. -/
structure Creation.Fits (m : Creation) (request : CreateJobRequest) (ownerId : Id) (key : String) (w : World) :
    Prop where
  uploads : ∀ entry ∈ m.uploads, entry.2.id = entry.1
  found : ∀ id, (ownerId, key, id) ∈ m.found → ∃ row, w.jobs id = some row ∧ row.HasKey ownerId key
  read : ∀ entry ∈ m.read, entry.2.id = entry.1 ∧
    ∃ row, w.jobs entry.1 = some row ∧ row.HasKey ownerId key ∧ row.birth = entry.2.birth
  inserted : ∀ job, m.inserted = some job → job.uploadId = request.uploadId ∧ job.options = request.options ∧
    ∃ row, w.jobs job.id = some row ∧ row.HasKey ownerId key ∧ row.birth = job.birth

/-- The invariant of the owner's key. -/
structure KeyedOnce (ownerId : Id) (key : String) (s : State) : Prop where
  births : Births s
  recorded : Recorded s
  creating : ∀ call ∈ s.calls, Creating call
  uploads : ∀ id row, s.world.uploads id = some row → row.upload.id = id
  once : ∀ id other row row', s.world.jobs id = some row → row.HasKey ownerId key →
    s.world.jobs other = some row' → row'.HasKey ownerId key → id = other
  fits : ∀ call ∈ s.calls, ∀ request requestId, call.task = .createJob request ownerId requestId (some key) →
    (creationOf call).Fits request ownerId key s.world

section

variable {settings : Settings} {first s s' : State} {action : Step} {call : SystemCall} {op : Op} {w w' : World}
  {m : Creation} {ownerId : Id} {key : String} {request : CreateJobRequest} {id : Id} {row row' : JobRow}

theorem JobRow.HasKey.birth (has : row.HasKey ownerId key) (same : row'.birth = row.birth) :
    row'.HasKey ownerId key :=
  ⟨(congrArg Birth.ownerId same).trans has.1, (congrArg Birth.idempotencyKey same).trans has.2⟩

/-- The job of the key stays, as it was created. -/
theorem Moves.keeps (coherent : Coherent s) (births : Births s) (permitted : KeepsKey ownerId key s action)
    (moves : Moves settings s action s') (stored : s.world.jobs id = some row) (has : row.HasKey ownerId key) :
    ∃ row', s'.world.jobs id = some row' ∧ row'.HasKey ownerId key ∧ row'.birth = row.birth := by
  cases after : s'.world.jobs id with
  | some row' =>
    obtain ⟨before, found, same⟩ := moves.birth coherent births (coherent.consistent.stored_born stored) after
    cases Option.some.inj (found.symm.trans stored)
    exact ⟨row', rfl, has.birth same, same⟩
  | none =>
    exfalso
    cases moves with
    | start =>
      rw [stored] at after
      cases after
    | kill =>
      rw [stored] at after
      cases after
    | env event =>
      rw [World.rebalance_kafka] at after
      rw [stored] at after
      cases after
    | @resume i choice call op r next w at_i prog executed allowed =>
      have change := coherent.consistent.rows at_i (Task.contract_writes allowed) executed id
      rw [stored, show w.jobs id = none from after] at change
      cases change with
      | @deleted _ claim candidate called kind own held token =>
        subst called own
        have kept := permitted call at_i candidate (by rw [completing?, prog]; rfl) kind row stored has
        simp [World.holds, held, token] at kept

theorem World.jobIds_eq_nil {p : JobRow → Bool} (none : w.jobIds p = []) (drawn : id < w.nextId)
    (stored : w.jobs id = some row) : p row = false := by
  by_contra holds
  have member : id ∈ w.jobIds p := by
    refine List.mem_filter.mpr ⟨List.mem_range.mpr drawn, ?_⟩
    rw [stored]
    simpa using holds
  rw [none] at member
  cases member

/-- The unique index: a job is inserted only if no other has the key. -/
theorem World.addWithOutboxAndEvent_unique {job : Job} {outboxEvent : OutboxEvent} {event saved : JobEvent}
    {days : Nat} (done : w.addWithOutboxAndEvent job outboxEvent event days = .ok (saved, w'))
    (own : job.ownerId = ownerId) (keyed : job.idempotencyKey = some key) (drawn : id < w.nextId)
    (stored : w.jobs id = some row) : ¬ row.HasKey ownerId key := by
  unfold addWithOutboxAndEvent at done
  split at done
  · cases done
  · split at done
    · cases done
    · split at done
      · cases done
      · rename_i free
        intro has
        have none : w.findIdByIdempotencyKey job.ownerId key = none := by simpa [keyed] using free
        have empty := World.jobIds_eq_nil (List.head?_eq_none_iff.mp none) drawn stored
        simp only [decide_eq_false_iff_not] at empty
        exact empty ⟨own.symm ▸ has.1, has.2⟩

theorem World.getUpload_some {upload : Upload} (read : w.getUpload id = some upload) :
    ∃ row, w.uploads id = some row ∧ row.upload = upload := by
  unfold getUpload at read
  split at read
  · rename_i row stored
    split at read
    · cases read
    · exact ⟨row, stored, Option.some.inj read⟩
  · cases read

theorem World.findIdByIdempotencyKey_some (found : w.findIdByIdempotencyKey ownerId key = some id) :
    ∃ row, w.jobs id = some row ∧ row.HasKey ownerId key := by
  have member := List.mem_of_head? found
  obtain ⟨-, holds⟩ := List.mem_filter.mp member
  obtain ⟨row, stored, has⟩ := (Option.any_eq_true _ _).mp holds
  exact ⟨row, stored, of_decide_eq_true has⟩

namespace Creation

theorem Fits.fresh : ({} : Creation).Fits request ownerId key w := by
  refine ⟨fun entry member => ?_, fun id member => ?_, fun entry member => ?_, fun job there => ?_⟩
  · cases member
  · cases member
  · cases member
  · cases there

/-- What was remembered still fits once the jobs of the key have gone on. -/
theorem Fits.later (fits : m.Fits request ownerId key w)
    (kept : ∀ id row, w.jobs id = some row → row.HasKey ownerId key →
      ∃ row', w'.jobs id = some row' ∧ row'.HasKey ownerId key ∧ row'.birth = row.birth) :
    m.Fits request ownerId key w' := by
  refine ⟨fits.uploads, fun id member => ?_, fun entry member => ?_, fun job there => ?_⟩
  · obtain ⟨row, stored, has⟩ := fits.found id member
    obtain ⟨row', stored', has', -⟩ := kept id row stored has
    exact ⟨row', stored', has'⟩
  · obtain ⟨own, row, stored, has, same⟩ := fits.read entry member
    obtain ⟨row', stored', has', birth⟩ := kept _ row stored has
    exact ⟨own, row', stored', has', birth.trans same⟩
  · obtain ⟨upload, options, row, stored, has, same⟩ := fits.inserted job there
    obtain ⟨row', stored', has', birth⟩ := kept _ row stored has
    exact ⟨upload, options, row', stored', has', birth.trans same⟩

/-- The step lemma of the call's own operations. -/
theorem Fits.answered {i : Nat} {choice : Choice} {r : Except Exc op.Val}
    (uploads : ∀ id row, w.uploads id = some row → row.upload.id = id) (fits : m.Fits request ownerId key w)
    (kept : ∀ id row, w.jobs id = some row → row.HasKey ownerId key →
      ∃ row', w'.jobs id = some row' ∧ row'.HasKey ownerId key ∧ row'.birth = row.birth)
    (allowed : m.calls request ownerId (some key) op)
    (executed : World.exec settings i op choice w = some (r, w')) :
    (m.next op r).Fits request ownerId key w' := by
  have later := fits.later kept
  cases op with
  | getUpload id =>
    rcases r with e | _ | upload
    · exact later
    · exact later
    · obtain ⟨read, rfl⟩ := Prod.mk.inj (Option.some.inj (World.exec_ok executed))
      refine ⟨fun entry member => ?_, fits.found, fits.read, fits.inserted⟩
      rcases List.mem_cons.mp member with rfl | old
      · obtain ⟨row, stored, same⟩ := World.getUpload_some (Except.ok.inj read)
        exact same ▸ uploads id row stored
      · exact fits.uploads entry old
  | findIdByIdempotencyKey owner own =>
    rcases r with e | _ | id
    · exact later
    · exact later
    · obtain ⟨rfl, given⟩ := allowed
      cases given
      obtain ⟨read, rfl⟩ := Prod.mk.inj (Option.some.inj (World.exec_ok executed))
      refine ⟨fits.uploads, fun other member => ?_, fits.read, fits.inserted⟩
      rcases List.mem_cons.mp member with same | old
      · cases same
        exact World.findIdByIdempotencyKey_some (Except.ok.inj read)
      · exact fits.found other old
  | getJob site id =>
    rcases r with e | _ | job
    · exact later
    · exact later
    · obtain ⟨own, given, member⟩ := allowed
      cases given
      obtain ⟨rfl, read⟩ := World.exec_getJob executed
      obtain ⟨row, stored, has⟩ := fits.found id member
      obtain ⟨row', found, -, rfl⟩ := World.getJob_some read.symm
      cases Option.some.inj (stored.symm.trans found)
      refine ⟨fits.uploads, fits.found, fun entry member => ?_, fits.inserted⟩
      rcases List.mem_cons.mp member with rfl | old
      · exact ⟨rfl, row, stored, has, rfl⟩
      · exact fits.read entry old
  | addWithOutboxAndEvent job outboxEvent event =>
    rcases r with e | saved
    · exact later
    · obtain ⟨owner, keyed, options, upload, member, own⟩ := allowed
      refine ⟨later.uploads, later.found, later.read, fun other there => ?_⟩
      cases there
      rcases World.transact_cases (Option.some.inj (World.exec_ok executed)) with ⟨_, done, -⟩ | ⟨_, failed, -⟩
      · obtain ⟨-, -, rfl⟩ := World.addWithOutboxAndEvent_ok done
        refine ⟨own.symm.trans (fits.uploads _ member), options,
          ((JobRow.insert job settings.jobRetentionDays).append event).2, ?_, ?_, ?_⟩
        · change (w.setJob job.id _).jobs job.id = _
          rw [World.setJob_jobs, if_pos rfl]
        · have fresh : (JobRow.insert job settings.jobRetentionDays).HasKey ownerId key := ⟨owner, keyed⟩
          exact fresh.birth JobRow.append_birth
        · exact JobRow.append_birth
      · cases failed
  | uuid7 => cases r <;> exact later
  | utcNow => cases r <;> exact later
  | _ => exact allowed.elim

end Creation

theorem Initial.keyedOnce (initial : Initial s) : KeyedOnce ownerId key s := by
  refine ⟨initial.births, initial.recorded, by simp [initial.calls], fun id row stored => ?_,
    fun id other row row' stored => ?_, by simp [initial.calls]⟩
  · exact (initial.world.uploads id row stored).2.1
  · rw [initial.world.jobs] at stored
    cases stored

/-- A job is inserted under a key that no other job has. -/
theorem Consistent.inserted_alone (inv : Consistent s) {i : Nat} {choice : Choice} {job : Job}
    {outboxEvent : OutboxEvent} {event : JobEvent} {r : Except Exc (Op.addWithOutboxAndEvent job outboxEvent event).Val}
    (executed : World.exec settings i (.addWithOutboxAndEvent job outboxEvent event) choice s.world = some (r, w))
    (absent : s.world.jobs job.id = none) (stored : w.jobs job.id = some row') (own : row'.birth = job.birth)
    (has : row'.HasKey ownerId key) (other : s.world.jobs id = some row) : ¬ row.HasKey ownerId key := by
  have unchanged : w ≠ s.world := by
    intro same
    rw [same, absent] at stored
    cases stored
  rcases World.exec_cases executed with ⟨_, -, -, same⟩ | ⟨r₀, performed, -⟩
  · exact absurd same unchanged
  · rcases World.transact_cases (Option.some.inj performed) with ⟨_, done, -⟩ | ⟨_, -, same⟩
    · have drawn : id < s.world.nextId := by
        by_contra later
        exact inv.stored_born other (.inl (Nat.le_of_not_lt later))
      have owner : job.ownerId = ownerId := (congrArg Birth.ownerId own).symm.trans has.1
      have keyed : job.idempotencyKey = some key := (congrArg Birth.idempotencyKey own).symm.trans has.2
      exact World.addWithOutboxAndEvent_unique done owner keyed drawn other
    · exact absurd same unchanged

/-- The step lemma: of two jobs with the key one was inserted while the other
was there. -/
theorem KeyedOnce.unique (coherent : Coherent s) (keyed : KeyedOnce ownerId key s)
    (moves : Moves settings s action s') :
    ∀ id other row row', s'.world.jobs id = some row → row.HasKey ownerId key →
      s'.world.jobs other = some row' → row'.HasKey ownerId key → id = other := by
  have inv := coherent.consistent
  cases moves with
  | start => exact keyed.once
  | kill => exact keyed.once
  | env event =>
    rw [World.rebalance_kafka]
    exact keyed.once
  | @resume i choice call op r next w at_i prog executed allowed =>
    have here := List.mem_of_getElem? at_i
    have source : ∀ id row', w.jobs id = some row' → row'.HasKey ownerId key →
        (∃ row, s.world.jobs id = some row ∧ row.HasKey ownerId key) ∨
          s.world.jobs id = none ∧ ∃ job outboxEvent event, op = .addWithOutboxAndEvent job outboxEvent event ∧
            job.id = id ∧ row'.birth = job.birth := by
      intro id row' stored has
      have change := inv.rows at_i (Task.contract_writes allowed) executed id
      rw [stored] at change
      cases before : s.world.jobs id with
      | some row =>
        rw [before] at change
        exact .inl ⟨row, rfl, has.birth (change.birth (keyed.births call here) before).symm⟩
      | none =>
        rw [before] at change
        cases change with
        | inserted called own => exact .inr ⟨rfl, _, _, _, called, own, JobRow.append_birth⟩
    intro id other row row' stored has stored' has'
    rcases source id row stored has with ⟨old, found, before⟩ | ⟨absent, job, outboxEvent, event, called, own, birth⟩
    · rcases source other row' stored' has' with
        ⟨old', found', before'⟩ | ⟨absent', job', outboxEvent', event', called', own', birth'⟩
      · exact keyed.once id other old old' found before found' before'
      · subst called' own'
        exact absurd before (inv.inserted_alone executed absent' stored' birth' has' found)
    · subst called own
      rcases source other row' stored' has' with ⟨old', found', before'⟩ | ⟨-, job', _, _, called', own', -⟩
      · exact absurd before' (inv.inserted_alone executed absent stored birth has found')
      · cases called'
        exact own'

theorem KeyedOnce.step (coherent : Coherent s) (keyed : KeyedOnce ownerId key s)
    (permitted : KeepsKey ownerId key s action) (moves : Moves settings s action s') :
    KeyedOnce ownerId key s' := by
  have kept : ∀ id row, s.world.jobs id = some row → row.HasKey ownerId key →
      ∃ row', s'.world.jobs id = some row' ∧ row'.HasKey ownerId key ∧ row'.birth = row.birth :=
    fun id row stored has => moves.keeps coherent keyed.births permitted stored has
  refine ⟨keyed.births.step coherent moves, keyed.recorded.step coherent moves, moves.creating keyed.creating,
    fun id row' stored => ?_, keyed.unique coherent moves, ?_⟩
  · rcases moves.upload stored with ⟨-, own, -⟩ | ⟨row, found, ⟨state, detected, completed, same⟩, -⟩
    · exact own
    · rw [same]
      exact keyed.uploads id row found
  · cases moves with
    | start task =>
      intro call member request requestId given
      rcases List.mem_append.mp member with old | new
      · exact (keyed.fits call old request requestId given).later kept
      · cases List.mem_singleton.mp new
        exact .fresh
    | kill i =>
      intro call member request requestId given
      rcases Machine.mem_modify_killed member with old | ⟨before, memberBefore, rfl⟩
      · exact (keyed.fits call old request requestId given).later kept
      · exact (keyed.fits before memberBefore request requestId given).later kept
    | env event =>
      intro call member request requestId given
      exact (keyed.fits call member request requestId given).later kept
    | @resume i choice call op r next w at_i prog executed allowed =>
      have here := List.mem_of_getElem? at_i
      intro other member request requestId given
      rcases Machine.mem_set_answered member with old | rfl
      · exact (keyed.fits other old request requestId given).later kept
      · have own : call.task = .createJob request ownerId requestId (some key) := given
        have creating := keyed.creating call here
        rw [Creating, Tracks, prog, own] at creating
        obtain ⟨allow, -⟩ := creating
        exact (keyed.fits call here request requestId own).answered keyed.uploads kept allow executed

theorem KeyedOnce.run (coherent : Coherent first) (keyed : KeyedOnce ownerId key first)
    (run : (system settings).Run (KeepsKey ownerId key) first s) : Coherent s ∧ KeyedOnce ownerId key s :=
  coherent.induction run keyed fun _ _ _ coherent keyed permitted moves => keyed.step coherent permitted moves

/-- The job of the key outlasts a run. -/
theorem KeyedOnce.stays (coherent : Coherent first) (keyed : KeyedOnce ownerId key first)
    (run : (system settings).Run (KeepsKey ownerId key) first s) (stored : first.world.jobs id = some row)
    (has : row.HasKey ownerId key) : ∃ row', s.world.jobs id = some row' ∧ row'.HasKey ownerId key := by
  induction run with
  | start => exact ⟨row, stored, has⟩
  | next before permitted moved ih =>
    obtain ⟨coherent', keyed'⟩ := keyed.run coherent before
    obtain ⟨middle, found, holds⟩ := ih
    obtain ⟨-, moves⟩ := coherent'.step moved
    obtain ⟨row', stored', has', -⟩ := moves.keeps coherent' keyed'.births permitted found holds
    exact ⟨row', stored', has'⟩

/-- The job is what the request asks for. -/
structure JobRow.Answers (row : JobRow) (request : CreateJobRequest) : Prop where
  upload : row.uploadId = request.uploadId
  options : row.options = request.options ∨ (Json.obj row.options).same (.obj request.options) = true

/-- A call that has returned has returned the job of the key. -/
theorem KeyedOnce.returned (keyed : KeyedOnce ownerId key s) (member : call ∈ s.calls) {requestId : String}
    {dto : JobDTO} (task : call.task = .createJob request ownerId requestId (some key))
    (prog : call.prog = .ret (.ok (.job dto))) :
    ∃ row, s.world.jobs dto.jobId = some row ∧ row.HasKey ownerId key ∧ row.Answers request := by
  have creating := keyed.creating call member
  have fits := keyed.fits call member request requestId task
  rw [Creating, Tracks, prog, task] at creating
  rcases creating with ⟨job, there, own⟩ | ⟨id, job, read, own, ⟨upload, uploads, same⟩, options⟩
  · obtain ⟨upload, options, row, stored, has, birth⟩ := fits.inserted job there
    have options' : row.options = job.options := congrArg Birth.options birth
    have upload' : row.uploadId = job.uploadId := congrArg Birth.uploadId birth
    exact ⟨row, own ▸ stored, has, upload'.trans upload, .inl (options'.trans options)⟩
  · obtain ⟨id', row, stored, has, birth⟩ := fits.read _ read
    have options' : row.options = job.options := congrArg Birth.options birth
    have upload' : row.uploadId = job.uploadId := congrArg Birth.uploadId birth
    have asked : job.uploadId = request.uploadId := same.symm.trans (fits.uploads _ uploads)
    refine ⟨row, ?_, has, upload'.trans asked, .inr (options' ▸ options)⟩
    rw [← own, show job.id = id from id']
    exact stored

/-- As long as retention leaves the job, all that is ever stored for a key is one
job with one event of its creation and one outbox row for each of its attempts,
of which `create_job` made the first. Every `create_job` with the key that
returns has asked for that job and got it. -/
theorem create_idempotent (initial : Initial first)
    (before : (system settings).Run (KeepsKey ownerId key) first s)
    (after : (system settings).Run (KeepsKey ownerId key) s s') :
    (∀ id other row row', s.world.jobs id = some row → row.HasKey ownerId key →
      s'.world.jobs other = some row' → row'.HasKey ownerId key → id = other) ∧
    (∀ id row, s.world.jobs id = some row → row.HasKey ownerId key →
      (∀ attempt, s.world.outbox.countP (·.requests id attempt) =
        if 1 ≤ attempt ∧ attempt ≤ row.currentAttempt then 1 else 0) ∧
      row.events.countP (·.eventType = .jobQueued) = 1) ∧
    ∀ call ∈ s.calls, ∀ request requestId dto, call.task = .createJob request ownerId requestId (some key) →
      call.prog = .ret (.ok (.job dto)) →
        ∃ row, s.world.jobs dto.jobId = some row ∧ row.HasKey ownerId key ∧ row.Answers request := by
  obtain ⟨coherent, keyed⟩ := initial.keyedOnce.run initial.coherent before
  refine ⟨fun id other row row' stored has stored' has' => ?_, fun id row stored _ => ?_,
    fun call member request requestId dto task prog => keyed.returned member task prog⟩
  · obtain ⟨-, keyed'⟩ := keyed.run coherent after
    obtain ⟨later, found, holds⟩ := keyed.stays coherent after stored has
    exact keyed'.once id other later row' found holds stored' has'
  · obtain ⟨-, queued⟩ := keyed.recorded.rows id row stored
    have once := keyed.recorded.once id
    rw [World.attemptsOf_some stored] at once
    exact ⟨once, queued⟩

def Reply.jobId? : Reply → Option Id
  | .job dto => some dto.jobId
  | _ => none

/-- Two calls look the key up before either inserts its job; the second one finds
the key taken and looks it up again. -/
def raceSteps : List Step :=
  [.start (.createJob ⟨0, []⟩ 7 "first" (some "key")), .start (.createJob ⟨0, []⟩ 7 "second" (some "key"))] ++
    answered 0 [.go, .go, .go, .now, .go, .now] ++ answered 1 [.go, .go, .go, .now, .go, .now] ++
    answered 0 [.go, .go] ++ answered 1 [.go, .go, .go, .go]

theorem create_idempotent_race : ∃ s, (system {}).runsIf (KeepsKey 7 "key") oneDocument raceSteps = some s ∧
    s.calls.map (fun call => call.prog.returned?.bind Reply.jobId?) = [some 1, some 1] ∧
    (∀ id row, s.world.jobs id = some row → row.HasKey 7 "key" →
      (∀ attempt, s.world.outbox.countP (·.requests id attempt) =
        if 1 ≤ attempt ∧ attempt ≤ row.currentAttempt then 1 else 0) ∧
      row.events.countP (·.eventType = .jobQueued) = 1) := by
  have played : ((system {}).runsIf (KeepsKey 7 "key") oneDocument raceSteps).map (fun s =>
      s.calls.map fun call => call.prog.returned?.bind Reply.jobId?) = some [some 1, some 1] := by decide +kernel
  obtain ⟨s, runs, returned⟩ := Option.map_eq_some_iff.mp played
  exact ⟨s, runs, returned, (create_idempotent oneDocument_initial (.of_runsIf runs) .start).2.1⟩

end
end MonkeyOcr
