import MonkeyOcr.Delivery.Outbox

namespace MonkeyOcr

open Calls

/-- Every attempt of every stored job has its one row in the outbox, and the log
of a job has the one event of its creation. -/
structure Recorded (s : State) : Prop where
  once : ∀ id attempt, s.world.outbox.countP (·.requests id attempt) =
    if 1 ≤ attempt ∧ attempt ≤ s.world.attemptsOf id then 1 else 0
  named : ∀ row ∈ s.world.outbox, ∀ id attempt, row.requests id attempt = true → row.event.aggregateId = id
  rows : ∀ id row, s.world.jobs id = some row →
    1 ≤ row.currentAttempt ∧ row.events.countP (·.eventType = .jobQueued) = 1

section

variable {settings : Settings} {s s' : State} {action : Step} {call : SystemCall} {op : Op} {i : Nat}
  {choice : Choice} {r : Except Exc op.Val} {w w' : World} {m : Memory} {id : Id} {attempt : Nat}
  {row row' : JobRow} {event : JobEvent}

theorem JobRow.countP_append_queued (other : event.eventType ≠ .jobQueued) :
    (row.append event).2.events.countP (·.eventType = .jobQueued) =
      row.events.countP (·.eventType = .jobQueued) := by
  unfold append
  split
  · rfl
  · rw [List.countP_append, List.countP_singleton, if_neg (by simp [JobEvent.withSequence, other])]
    rfl

theorem Edit.not_queued {origin : Option Site} {v v' : Version} {type : EventType} (edit : Edit origin v type v') :
    type ≠ .jobQueued := by
  cases edit <;> simp

/-- What a row has recorded of its creation, a change keeps. -/
theorem RowChange.recorded (change : RowChange m w op id (some row) (some row'))
    (recorded : 1 ≤ row.currentAttempt ∧ row.events.countP (·.eventType = .jobQueued) = 1) :
    1 ≤ row'.currentAttempt ∧ row'.events.countP (·.eventType = .jobQueued) = 1 := by
  cases change with
  | same => exact recorded
  | saved call own member adopts edits current saves =>
    rw [JobRow.append_currentAttempt, JobRow.countP_append_queued edits.edit.not_queued, saves.events, saves.attempt]
    refine ⟨?_, recorded.2⟩
    have attempt := (current ▸ edits.edit : Edit _ _ _ _).attempt
    change _ = row.currentAttempt ∨ _ ∧ _ = row.currentAttempt + 1 at attempt
    have first := recorded.1
    change 1 ≤ Version.attempt (Job.version _)
    omega
  | @reported _ job event call own member ended =>
    have other : event.eventType ≠ .jobQueued := by
      intro same
      rw [same] at ended
      cases state : job.state <;> rw [state] at ended <;> cases ended
    rw [JobRow.append_currentAttempt, JobRow.countP_append_queued other]
    exact recorded
  | claimed => exact recorded
  | deferred => exact recorded

theorem OutboxEvent.Requests.named {event : OutboxEvent} {job : Job} {published : Bool} (requests : event.Requests m job)
    (asks : (OutboxRow.mk event published).requests id attempt = true) : event.aggregateId = id := by
  obtain ⟨message, decoded, own, -⟩ := requests.message
  obtain ⟨-, requestId, now, same⟩ := requests
  simp only [OutboxRow.requests, decoded, decide_eq_true_eq] at asks
  rw [same]
  exact own.symm.trans asks.1

theorem World.attemptsOf_removed (id : Id) (removed : w'.jobs = Function.update w.jobs id none) (other : Id) :
    w'.attemptsOf other = if other = id then 0 else w.attemptsOf other := by
  unfold attemptsOf
  rw [removed, Function.update_apply]
  split <;> rfl

/-- The claims of cleaners leave the attempts of jobs. -/
theorem RowChange.attemptsOf (change : RowChange m w op id (w.jobs id) (w'.jobs id))
    (claims : (∃ now limit leaseSeconds, op = .claimExpired now limit leaseSeconds) ∨
      ∃ candidate retryAt, op = .defer candidate retryAt) : w'.attemptsOf id = w.attemptsOf id := by
  unfold World.attemptsOf
  generalize w.jobs id = before at change ⊢
  generalize w'.jobs id = after at change ⊢
  cases change with
  | same => rfl
  | reported => exact JobRow.append_currentAttempt
  | claimed => rfl
  | deferred => rfl
  | inserted call => rcases claims with ⟨_, _, _, rfl⟩ | ⟨_, _, rfl⟩ <;> cases call
  | saved call => rcases claims with ⟨_, _, _, rfl⟩ | ⟨_, _, rfl⟩ <;> cases call
  | deleted call => rcases claims with ⟨_, _, _, rfl⟩ | ⟨_, _, rfl⟩ <;> cases call

/-- The step lemma of a deletion: the rows of the job leave the outbox with it. -/
theorem Recorded.complete (recorded : Recorded s) (candidate : RetentionCandidate) :
    (∀ id attempt, (s.world.complete candidate).2.outbox.countP (·.requests id attempt) =
      if 1 ≤ attempt ∧ attempt ≤ (s.world.complete candidate).2.attemptsOf id then 1 else 0) ∧
    ∀ row ∈ (s.world.complete candidate).2.outbox, row ∈ s.world.outbox := by
  unfold World.complete
  split
  · split
    · refine ⟨fun id attempt => ?_, fun row member => (List.mem_filter.mp member).1⟩
      have before := recorded.once id attempt
      rw [World.attemptsOf_removed candidate.aggregateId rfl, List.countP_filter]
      by_cases here : id = candidate.aggregateId
      · rw [if_pos here, if_neg (by omega)]
        refine List.countP_eq_zero.mpr fun row member counted => ?_
        simp only [Bool.and_eq_true, decide_eq_true_eq] at counted
        exact counted.2 ((recorded.named row member id attempt counted.1).trans here)
      · rw [if_neg here, ← before]
        refine List.countP_congr fun row member => ?_
        simp only [Bool.and_eq_true, decide_eq_true_eq, and_iff_left_iff_imp]
        intro asks same
        exact here ((recorded.named row member id attempt asks).symm.trans same)
    · exact ⟨recorded.once, fun _ member => member⟩
  · split
    · exact ⟨recorded.once, fun _ member => member⟩
    · exact ⟨recorded.once, fun _ member => member⟩

theorem Initial.recorded (initial : Initial s) : Recorded s := by
  refine ⟨fun id attempt => ?_, ?_, fun id row stored => ?_⟩
  · rw [initial.world.outbox, World.attemptsOf_none (initial.world.jobs id), if_neg (by omega)]
    rfl
  · rw [initial.world.outbox]
    simp
  · rw [initial.world.jobs] at stored
    cases stored

theorem Recorded.step (coherent : Coherent s) (recorded : Recorded s) (moves : Moves settings s action s') :
    Recorded s' := by
  have rows : ∀ id row, s'.world.jobs id = some row →
      1 ≤ row.currentAttempt ∧ row.events.countP (·.eventType = .jobQueued) = 1 := by
    intro id row' stored
    rcases moves.row coherent id with same | ⟨j, choice, call, op, -, at_j, allowed, change⟩
    · exact recorded.rows id row' (same ▸ stored)
    · rw [stored] at change
      cases before : s.world.jobs id with
      | some row =>
        rw [before] at change
        exact change.recorded (recorded.rows id row before)
      | none =>
        rw [before] at change
        cases change with
        | @inserted job outboxEvent event days call own drawn new reports type =>
          rw [JobRow.append_currentAttempt, JobRow.append_events (by rw [type]; nofun)]
          refine ⟨new.attempt.ge, ?_⟩
          simp [JobRow.insert, JobEvent.withSequence, type]
  cases moves with
  | start => exact ⟨recorded.once, recorded.named, rows⟩
  | kill => exact ⟨recorded.once, recorded.named, rows⟩
  | env event =>
    rw [World.rebalance_kafka] at rows ⊢
    exact ⟨recorded.once, recorded.named, rows⟩
  | @resume i choice call op r next w at_i prog executed allowed =>
    have kept : w.outbox = s.world.outbox → (∀ id, w.attemptsOf id = s.world.attemptsOf id) →
        Recorded (resumed s i call op r next w) := by
      intro outbox attempts
      refine ⟨fun id attempt => ?_, fun row member => ?_, rows⟩
      · change w.outbox.countP _ = if _ ∧ _ ≤ w.attemptsOf id then 1 else 0
        rw [outbox, attempts]
        exact recorded.once id attempt
      · exact recorded.named row (outbox ▸ member)
    by_cases quiet : op.retains = false
    · have change := coherent.consistent.outbox at_i allowed quiet executed
      refine ⟨fun id attempt => change.once recorded.once, fun row member => ?_, rows⟩
      rcases change.mem member with ⟨old, memberOld, same, -⟩ | ⟨job, requests, -⟩
      · intro id attempt asks
        rw [← same]
        refine recorded.named old memberOld id attempt ?_
        rwa [OutboxRow.requests, same]
      · intro id attempt asks
        exact requests.named asks
    · have change := fun id => coherent.consistent.rows at_i (Task.contract_writes allowed) executed id
      rcases World.exec_cases executed with ⟨_, -, -, rfl⟩ | ⟨r₀, performed, -⟩
      · exact kept rfl fun _ => rfl
      · cases op with
        | complete candidate =>
          obtain ⟨once, members⟩ := recorded.complete candidate
          have effect : w = (s.world.complete candidate).2 := (Prod.mk.inj (Option.some.inj performed)).2.symm
          subst effect
          exact ⟨once, fun row member => recorded.named row (members row member), rows⟩
        | claimExpired now limit leaseSeconds =>
          have same : w.outbox = s.world.outbox :=
            (World.perform_same (by simp [Op.writes]) performed : s.world.Same w .outbox)
          exact kept same fun id => (change id).attemptsOf (.inl ⟨_, _, _, rfl⟩)
        | defer candidate retryAt =>
          have same : w.outbox = s.world.outbox :=
            (World.perform_same (by simp [Op.writes]) performed : s.world.Same w .outbox)
          exact kept same fun id => (change id).attemptsOf (.inr ⟨_, _, rfl⟩)
        | deleteObject =>
          cases performed
          exact kept rfl fun _ => rfl
        | _ => exact absurd rfl quiet

end
end MonkeyOcr
