import MonkeyOcr.Delivery.Messages
import MonkeyOcr.Lifecycle.EventLog
import MonkeyOcr.Lifecycle.Work

namespace MonkeyOcr

open Calls

/-- Retention does not run, and a delivery is one of a published message. -/
def WithoutRetention (s : State) : Step → Prop
  | .start (.runBatch ..) => False
  | .start (.process _ message) =>
    ∃ partition, ∃ entry ∈ s.world.kafka.log partition, decodeJobMessage entry.2 = .ok message
  | _ => True

/-- The attempts that a job has had so far. -/
def World.attemptsOf (w : World) (id : Id) : Nat := (w.jobs id).elim 0 JobRow.currentAttempt

/-- Every attempt of every job has its one row in the outbox. -/
structure Requested (s : State) : Prop where
  cleaners : ∀ call ∈ s.calls, ∀ limit leaseSeconds now, call.task ≠ .runBatch limit leaseSeconds now
  unclaimed : ∀ id row, s.world.jobs id = some row → row.claim = none ∧ 1 ≤ row.currentAttempt
  once : ∀ id attempt, s.world.outbox.countP (·.requests id attempt) =
    if 1 ≤ attempt ∧ attempt ≤ s.world.attemptsOf id then 1 else 0
  decoded : ∀ row ∈ s.world.outbox, ∃ message, messageOf row.event.payload = .ok message ∧
    message.schemaVersion = 1
  distinct : ∀ row ∈ s.world.outbox, ∀ other ∈ s.world.outbox, row.event.id = other.event.id →
    row.event = other.event

/-- The job has reached the attempt of the message. -/
def World.Asked (w : World) (message : JobWorkMessage) : Prop :=
  ∃ row, w.jobs message.jobId = some row ∧ message.attempt ≤ row.currentAttempt

/-- Nothing is left to do for the message. -/
def World.Handled (w : World) (message : JobWorkMessage) : Prop :=
  ∃ row, w.jobs message.jobId = some row ∧ message.attempt ≤ row.currentAttempt ∧
    (row.currentAttempt = message.attempt → row.version.terminal)

namespace World

variable {w w' : World} {id : Id} {attempt : Nat} {message : JobWorkMessage}

/-- Jobs only ever go on, by saves. -/
def Later (w w' : World) : Prop :=
  ∀ id row, w.jobs id = some row → ∃ row', w'.jobs id = some row' ∧ row.version.Evolves row'.version

theorem Later.refl : w.Later w := fun _ row stored => ⟨row, stored, .refl⟩

theorem Asked.later (asked : w.Asked message) (later : w.Later w') : w'.Asked message := by
  obtain ⟨row, stored, reached⟩ := asked
  obtain ⟨row', stored', evolves⟩ := later _ row stored
  have more : row.currentAttempt ≤ row'.currentAttempt := evolves.attempt_le
  exact ⟨row', stored', reached.trans more⟩

theorem Handled.later (handled : w.Handled message) (later : w.Later w') : w'.Handled message := by
  obtain ⟨row, stored, reached, ended⟩ := handled
  obtain ⟨row', stored', evolves⟩ := later _ row stored
  have more : row.currentAttempt ≤ row'.currentAttempt := evolves.attempt_le
  refine ⟨row', stored', reached.trans more, fun same => ?_⟩
  have here : row.currentAttempt = message.attempt := by omega
  have terminal := ended here
  have state := evolves.terminal_state (show row'.currentAttempt = row.currentAttempt by omega) terminal
  simpa [Version.terminal, state] using terminal

theorem attemptsOf_setJob (other : Id) (row : JobRow) :
    (w.setJob id (some row)).attemptsOf other = if other = id then row.currentAttempt else w.attemptsOf other := by
  unfold attemptsOf
  rw [setJob_jobs]
  split <;> rfl

theorem attemptsOf_some {row : JobRow} (stored : w.jobs id = some row) :
    w.attemptsOf id = row.currentAttempt := by rw [attemptsOf, stored]; rfl

theorem attemptsOf_none (absent : w.jobs id = none) : w.attemptsOf id = 0 := by rw [attemptsOf, absent]; rfl

end World

/-- All that one call, made with the memory `m`, does to the outbox and to the
attempts of jobs. -/
inductive OutboxChange (m : Memory) (op : Op) (w w' : World) : Prop
  | same (outbox : w'.outbox = w.outbox) (attempts : ∀ id, w'.attemptsOf id = w.attemptsOf id)
  | marked (id : Id) (call : op = .markPublished id) (outbox : w'.outbox = (w.markPublished id).outbox)
      (attempts : ∀ id, w'.attemptsOf id = w.attemptsOf id)
  | asked (event : OutboxEvent) (job : Job) (requests : event.Requests m job)
      (attempt : job.attempt = w.attemptsOf job.id + 1)
      (outbox : w'.outbox = w.outbox ++ [⟨event, false⟩])
      (attempts : ∀ id, w'.attemptsOf id = if id = job.id then job.attempt else w.attemptsOf id)

section

variable {settings : Settings} {s s' : State} {action : Step} {call : SystemCall} {op : Op} {i : Nat}
  {choice : Choice} {r : Except Exc op.Val} {w w' : World} {m : Memory} {id : Id} {attempt : Nat}

/-- A message of the outbox event of a job is for the attempt of the job. -/
theorem OutboxEvent.Requests.message {event : OutboxEvent} {job : Job} (requests : event.Requests m job) :
    ∃ message, messageOf event.payload = .ok message ∧ message.jobId = job.id ∧
      message.attempt = job.attempt ∧ message.schemaVersion = 1 := by
  obtain ⟨-, requestId, now, same⟩ := requests
  refine ⟨⟨job.id, job.attempt, requestId, 1⟩, ?_, rfl, rfl, rfl⟩
  rw [same]
  exact messageOf_requested _ _ _ _

theorem World.countP_markPublished (marked : Id) :
    (w.markPublished marked).outbox.countP (·.requests id attempt) =
      w.outbox.countP (·.requests id attempt) := by
  simp only [markPublished, List.countP_map]
  refine List.countP_congr fun row _ => ?_
  simp only [Function.comp]
  split <;> rfl

/-- The step lemma of the counts: an attempt and its outbox row come together. -/
theorem OutboxChange.once (change : OutboxChange m op w w')
    (before : ∀ id attempt, w.outbox.countP (·.requests id attempt) =
      if 1 ≤ attempt ∧ attempt ≤ w.attemptsOf id then 1 else 0) :
    w'.outbox.countP (·.requests id attempt) = if 1 ≤ attempt ∧ attempt ≤ w'.attemptsOf id then 1 else 0 := by
  have old := before id attempt
  cases change with
  | same outbox attempts => rw [outbox, attempts, old]
  | marked marked _ outbox attempts => rw [outbox, World.countP_markPublished, attempts, old]
  | asked event job requests next outbox attempts =>
    obtain ⟨message, decoded, own, asked, -⟩ := requests.message
    have row : (OutboxRow.mk event false).requests id attempt = decide (job.id = id ∧ job.attempt = attempt) := by
      simp only [OutboxRow.requests, decoded, own, asked]
    rw [outbox, List.countP_append, List.countP_singleton, row, old, attempts]
    by_cases here : id = job.id
    · subst here
      simp only [true_and, decide_eq_true_eq, if_true]
      rw [next]
      by_cases new : w.attemptsOf job.id + 1 = attempt
      · rw [if_neg (by omega), if_pos new, if_pos (by omega)]
      · by_cases low : 1 ≤ attempt ∧ attempt ≤ w.attemptsOf job.id
        · rw [if_pos low, if_neg new, if_pos (by omega)]
        · rw [if_neg low, if_neg new, if_neg (by omega)]
    · have other : ¬ decide (job.id = id ∧ job.attempt = attempt) = true := by
        simp only [decide_eq_true_eq]
        exact fun same => here same.1.symm
      rw [if_neg other, if_neg here]
      rfl

theorem Requested.quiet (requested : Requested s) (member : call ∈ s.calls)
    (allowed : call.task.contract.allow (memoryOf call) op) : op.retains = false := by
  cases retains : op.retains with
  | false => rfl
  | true =>
    obtain ⟨limit, leaseSeconds, now, task⟩ := Task.contract_retains allowed retains
    exact absurd task (requested.cleaners call member limit leaseSeconds now)

/-- Without retention a row is never claimed or deleted. -/
theorem RowChange.evolves {row : JobRow} {after : Option JobRow}
    (change : RowChange m w op id (some row) after) (tidy : row.Tidy) (quiet : op.retains = false) :
    ∃ row', after = some row' ∧ row.version.Evolves row'.version ∧ (row.claim = none → row'.claim = none) := by
  cases change with
  | same => exact ⟨row, rfl, .refl, fun free => free⟩
  | @saved row row' origin v job event call own member adopts edits current saves reports =>
    have edit : Edit origin row.version event.eventType job.version := current ▸ edits.edit
    refine ⟨_, rfl, ?_, fun _ => ?_⟩
    · rw [JobRow.append_version, saves.version tidy edit]
      exact .edit .refl edit
    · rw [JobRow.append_claim, saves.claim]
  | reported =>
    refine ⟨_, rfl, ?_, fun free => ?_⟩
    · rw [JobRow.append_version]
      exact .refl
    · rw [JobRow.append_claim, free]
  | claimed call => subst call; cases quiet
  | deferred call => subst call; cases quiet
  | deleted call => subst call; cases quiet

theorem Requested.later (coherent : Coherent s) (requested : Requested s)
    (moves : Moves settings s action s') : s.world.Later s'.world := by
  intro id row stored
  rcases moves.row coherent id with same | ⟨j, choice, call, op, -, at_j, allowed, change⟩
  · exact ⟨row, same ▸ stored, .refl⟩
  · rw [stored] at change
    have quiet := requested.quiet (List.mem_of_getElem? at_j) allowed
    obtain ⟨row', found, evolves, -⟩ := change.evolves (coherent.consistent.tidy id row stored) quiet
    exact ⟨row', found, evolves⟩

/-- What a committed save does to the attempts of jobs. -/
theorem Consistent.saved_attempt (inv : Consistent s) (member : call ∈ s.calls) {job : Job}
    {type : EventType} {row row' : JobRow} (derived : (memoryOf call).Derived type job)
    (stored : s.world.jobs job.id = some row) (saves : row.Saves job row') :
    row'.currentAttempt = if type = .jobRetrying then row.currentAttempt + 1 else row.currentAttempt := by
  obtain ⟨origin, v, -, -, edits, current⟩ :=
    World.saved_edit (inv.known call member) (inv.lost call member) derived stored saves
  have edit : Edit origin row.version type job.version := current ▸ edits.edit
  have attempt : row'.currentAttempt = job.version.attempt := saves.attempt
  split
  · rename_i retry
    exact attempt.trans (edit.retrying_state retry).2
  · rename_i other
    rcases edit.attempt with same | ⟨retry, -⟩
    · exact attempt.trans same
    · exact absurd retry other

theorem Consistent.outbox (inv : Consistent s) (at_i : s.calls[i]? = some call)
    (allowed : call.task.contract.allow (memoryOf call) op) (quiet : op.retains = false)
    (executed : World.exec settings i op choice s.world = some (r, w)) :
    OutboxChange (memoryOf call) op s.world w := by
  have here := List.mem_of_getElem? at_i
  have writes := Task.contract_writes allowed
  rcases World.exec_cases executed with ⟨_, -, -, rfl⟩ | ⟨r₀, performed, -⟩
  · exact .same rfl fun _ => rfl
  by_cases silent : Part.jobs ∉ op.writes ∧ Part.outbox ∉ op.writes
  · have jobs : w.jobs = s.world.jobs := World.perform_same silent.1 performed
    exact .same (World.perform_same silent.2 performed) fun id => by rw [World.attemptsOf, jobs]; rfl
  cases op with
  | saveWithEvent job event =>
    rcases World.transact_cases (Option.some.inj performed) with ⟨_, done, -⟩ | ⟨_, -, rfl⟩
    · obtain ⟨row, row', stored, save, _, rfl⟩ := World.saveWithEvent_ok done
      have reached := inv.saved_attempt here writes.1 stored (JobRow.save_ok save)
      rw [if_neg writes.2.2] at reached
      refine .same rfl fun id => ?_
      rw [World.attemptsOf_setJob, JobRow.append_currentAttempt, reached]
      split
      · rename_i same
        rw [same, World.attemptsOf_some stored]
      · rfl
    · exact .same rfl fun _ => rfl
  | appendEvent event =>
    rcases World.transact_cases (Option.some.inj performed) with ⟨_, done, -⟩ | ⟨_, -, rfl⟩
    · obtain ⟨row, stored, rfl⟩ := World.appendEvent_ok done
      refine .same rfl fun id => ?_
      rw [World.attemptsOf_setJob, JobRow.append_currentAttempt]
      split
      · rename_i same
        rw [same, World.attemptsOf_some stored]
      · rfl
    · exact .same rfl fun _ => rfl
  | saveWithOutboxAndEvent job outboxEvent event =>
    rcases World.transact_cases (Option.some.inj performed) with ⟨_, done, -⟩ | ⟨_, -, rfl⟩
    · obtain ⟨row, row', stored, save, _, rfl⟩ := World.saveWithOutboxAndEvent_ok done
      obtain ⟨derived, -, type, requests⟩ := writes
      have saves := JobRow.save_ok save
      have reached := inv.saved_attempt here derived stored saves
      rw [if_pos type, saves.attempt] at reached
      refine .asked outboxEvent job requests ?_ rfl fun id => ?_
      · rw [reached, World.attemptsOf_some stored]
      · refine (World.attemptsOf_setJob id _).trans ?_
        rw [JobRow.append_currentAttempt, saves.attempt]
    · exact .same rfl fun _ => rfl
  | addWithOutboxAndEvent job outboxEvent event =>
    rcases World.transact_cases (Option.some.inj performed) with ⟨_, done, -⟩ | ⟨_, -, rfl⟩
    · obtain ⟨absent, -, rfl⟩ := World.addWithOutboxAndEvent_ok done
      obtain ⟨new, -, requests, -⟩ := writes
      refine .asked outboxEvent job requests ?_ rfl fun id => ?_
      · rw [new.attempt, World.attemptsOf_none absent]
      · refine (World.attemptsOf_setJob id _).trans ?_
        rw [JobRow.append_currentAttempt]
        rfl
    · exact .same rfl fun _ => rfl
  | markPublished id =>
    cases performed
    exact .marked id rfl rfl fun _ => rfl
  | claimExpired => cases quiet
  | complete => cases quiet
  | defer => cases quiet
  | _ => exact absurd (by simp [Op.writes]) silent

theorem Requested.outbox (inv : Consistent s) (requested : Requested s) (at_i : s.calls[i]? = some call)
    (allowed : call.task.contract.allow (memoryOf call) op)
    (executed : World.exec settings i op choice s.world = some (r, w)) :
    OutboxChange (memoryOf call) op s.world w :=
  inv.outbox at_i allowed (requested.quiet (List.mem_of_getElem? at_i) allowed) executed

/-- A row of the outbox was there before, marked or not, or asks for a new attempt. -/
theorem OutboxChange.mem (change : OutboxChange m op w w') {row : OutboxRow} (member : row ∈ w'.outbox) :
    (∃ old ∈ w.outbox, old.event = row.event ∧
      (row.published = old.published ∨ op = .markPublished row.event.id)) ∨
    ∃ job, row.event.Requests m job ∧ row.published = false ∧ w'.outbox = w.outbox ++ [row] ∧
      w'.attemptsOf job.id = job.attempt := by
  cases change with
  | same outbox => exact .inl ⟨row, outbox ▸ member, rfl, .inl rfl⟩
  | marked id call outbox =>
    rw [outbox] at member
    obtain ⟨old, memberOld, rfl⟩ := List.mem_map.mp member
    refine .inl ⟨old, memberOld, ?_⟩
    split
    · rename_i same
      exact ⟨rfl, .inr (same ▸ call)⟩
    · exact ⟨rfl, .inl rfl⟩
  | asked event job requests _ outbox attempts =>
    rw [outbox] at member
    rcases List.mem_append.mp member with old | new
    · exact .inl ⟨row, old, rfl, .inl rfl⟩
    · cases List.mem_singleton.mp new
      exact .inr ⟨job, requests, rfl, outbox, by rw [attempts, if_pos rfl]⟩

/-- No row is taken from the outbox. -/
theorem OutboxChange.keeps (change : OutboxChange m op w w') {row : OutboxRow} (member : row ∈ w.outbox) :
    ∃ row' ∈ w'.outbox, row'.event = row.event := by
  cases change with
  | same outbox => exact ⟨row, outbox ▸ member, rfl⟩
  | marked id _ outbox =>
    rw [outbox]
    refine ⟨_, List.mem_map_of_mem member, ?_⟩
    split <;> rfl
  | asked _ _ _ _ outbox => exact ⟨row, outbox ▸ List.mem_append_left _ member, rfl⟩

theorem Initial.requested (initial : Initial s) : Requested s := by
  refine ⟨by simp [initial.calls], fun id row stored => ?_, fun id attempt => ?_, by simp [initial.world.outbox],
    by simp [initial.world.outbox]⟩
  · rw [initial.world.jobs] at stored
    cases stored
  · rw [initial.world.outbox, World.attemptsOf_none (initial.world.jobs id), if_neg (by omega)]
    rfl

/-- The step lemma: no row is claimed, an attempt and its outbox row come together. -/
theorem Requested.step (coherent : Coherent s) (requested : Requested s) (permitted : WithoutRetention s action)
    (moves : Moves settings s action s') : Requested s' := by
  have inv := coherent.consistent
  have unclaimed : ∀ id row, s'.world.jobs id = some row → row.claim = none ∧ 1 ≤ row.currentAttempt := by
    intro id row' stored
    have before := requested.unclaimed id
    rcases moves.row coherent id with same | ⟨j, choice, call, op, -, at_j, allowed, change⟩
    · exact before row' (same ▸ stored)
    · have quiet := requested.quiet (List.mem_of_getElem? at_j) allowed
      rw [stored] at change
      cases old : s.world.jobs id with
      | some row =>
        rw [old] at change
        obtain ⟨free, first⟩ := before row old
        obtain ⟨after, same, evolves, kept⟩ := change.evolves (inv.tidy id row old) quiet
        cases same
        exact ⟨kept free, first.trans evolves.attempt_le⟩
      | none =>
        rw [old] at change
        cases change with
        | inserted _ _ _ new =>
          refine ⟨JobRow.append_claim, ?_⟩
          rw [JobRow.append_currentAttempt]
          exact new.attempt.ge
  cases moves with
  | start task =>
    refine ⟨fun call member limit leaseSeconds now same => ?_, unclaimed, requested.once, requested.decoded,
      requested.distinct⟩
    rcases List.mem_append.mp member with old | new
    · exact requested.cleaners call old limit leaseSeconds now same
    · cases List.mem_singleton.mp new
      change task = _ at same
      subst same
      exact permitted
  | kill i =>
    refine ⟨fun call member => ?_, unclaimed, requested.once, requested.decoded, requested.distinct⟩
    rcases Machine.mem_modify_killed member with old | ⟨before, memberBefore, rfl⟩
    · exact requested.cleaners call old
    · exact requested.cleaners before memberBefore
  | env event =>
    rw [World.rebalance_kafka]
    exact ⟨requested.cleaners, requested.unclaimed, requested.once, requested.decoded, requested.distinct⟩
  | @resume i choice call op r next w at_i prog executed allowed =>
    have here := List.mem_of_getElem? at_i
    have change := requested.outbox inv at_i allowed executed
    refine ⟨fun other member => ?_, unclaimed, fun id attempt => change.once requested.once,
      fun row member => ?_, fun row member other memberOther same => ?_⟩
    · rcases Machine.mem_set_answered member with old | rfl
      · exact requested.cleaners other old
      · exact requested.cleaners call here
    · rcases change.mem member with ⟨old, memberOld, same, -⟩ | ⟨job, requests, -⟩
      · exact same ▸ requested.decoded old memberOld
      · obtain ⟨message, decoded, -, -, schema⟩ := requests.message
        exact ⟨message, decoded, schema⟩
    · have fresh : ∀ {event : OutboxEvent} {job : Job}, event.Requests (memoryOf call) job →
          ∀ old ∈ s.world.outbox, old.event.id ≠ event.id :=
        fun requests => inv.unsent _ (.inr ⟨call, here, requests.1⟩)
      rcases change.mem member with ⟨old, memberOld, event, -⟩ | ⟨job, requests, -, appended, -⟩
      · rcases change.mem memberOther with ⟨old', memberOld', event', -⟩ | ⟨job', requests', -⟩
        · rw [← event, ← event'] at same ⊢
          exact requested.distinct old memberOld old' memberOld' same
        · exact absurd (by rw [event, same]) (fresh requests' old memberOld)
      · rcases change.mem memberOther with ⟨old', memberOld', event', -⟩ | ⟨job', requests', -, appended', -⟩
        · exact absurd (by rw [event', same]) (fresh requests old' memberOld')
        · have both := List.append_cancel_left (appended.symm.trans appended')
          cases both
          rfl

end
end MonkeyOcr
