import MonkeyOcr.Delivery.Offsets

namespace MonkeyOcr

open Calls
open Codec (Json)

/-- The call has returned from `process` for the message. -/
inductive Processed (call : SystemCall) (message : JobWorkMessage) : Prop
  | returned {turns reply} (task : call.task = .process turns message) (prog : call.prog = .ret (.ok reply))
  | commits {p offset next} (works : workOf call = some message) (prog : call.prog = .call (.commit p offset) next)

/-- The attempt of the job waits in the outbox. -/
def World.Waits (w : World) (id : Id) (attempt : Nat) : Prop :=
  ∃ row ∈ w.outbox, row.requests id attempt = true ∧ row.published = false

/-- A message for the attempt of the job is in the topic and not yet committed. -/
def World.Uncommitted (w : World) (id : Id) (attempt : Nat) : Prop :=
  ∃ (p offset : Nat) (entry : String × Json) (message : JobWorkMessage),
    (w.kafka.log p)[offset]? = some entry ∧ w.kafka.committed p ≤ offset ∧
      decodeJobMessage entry.2 = .ok message ∧ message.jobId = id ∧ message.attempt = attempt

/-- What holds in every state without retention. -/
structure Supplied (s : State) : Prop where
  requested : Requested s
  delivered : Delivered s
  reading : Reading s
  messages : HoldsMessages s
  offsets : Offsets s

section

variable {settings : Settings} {first s s' : State} {action : Step} {call : SystemCall}
  {message : JobWorkMessage} {id : Id} {row : JobRow}

theorem Initial.supplied (initial : Initial s) : Supplied s where
  requested := initial.requested
  delivered := initial.delivered
  reading := initial.reading
  messages := by simp [HoldsMessages, initial.calls]
  offsets := initial.offsets

theorem Supplied.step (coherent : Coherent s) (supplied : Supplied s) (permitted : WithoutRetention s action)
    (moves : Moves settings s action s') : Supplied s' := by
  have requested' := supplied.requested.step coherent permitted moves
  exact ⟨requested', supplied.delivered.step coherent supplied.requested moves,
    supplied.reading.step coherent supplied.requested requested' supplied.delivered permitted moves,
    supplied.messages.step moves,
    supplied.offsets.step coherent supplied.requested supplied.delivered supplied.reading moves⟩

/-- A call that has returned from `process` knows that nothing is left to do. -/
theorem Supplied.processed (coherent : Coherent s) (supplied : Supplied s) (member : call ∈ s.calls)
    (processed : Processed call message) (schema : message.schemaVersion = 1) : s.world.Handled message := by
  have tracked := coherent.tracked call member
  cases processed with
  | returned task prog =>
    rw [Tracked, Tracks, prog, Prog.meets_ret_ok, task] at tracked
    have works : workOf call = some message := by rw [workOf, task]
    exact supplied.reading.settled coherent member works (tracked schema)
  | commits works prog =>
    rw [Tracked, Tracks, prog] at tracked
    obtain ⟨allowed, -⟩ := tracked
    obtain ⟨-, record, -, -, -, done⟩ := Task.contract_consumes allowed (.inr ⟨_, _, rfl⟩)
    have here := supplied.messages.memory member works
    exact supplied.reading.settled coherent member works (done message here schema)

/-- A job that is not terminal is on its way to a worker. -/
theorem Supplied.waiting (supplied : Supplied s) (stored : s.world.jobs id = some row)
    (open_ : ¬ row.version.terminal) :
    s.world.Waits id row.currentAttempt ∨ s.world.Uncommitted id row.currentAttempt := by
  have once := supplied.requested.once id row.currentAttempt
  have first := (supplied.requested.unclaimed id row stored).2
  rw [World.attemptsOf_some stored, if_pos ⟨first, le_rfl⟩] at once
  obtain ⟨asks, member, requests⟩ := List.countP_pos_iff.mp (once ▸ Nat.one_pos)
  cases marked : asks.published with
  | false => exact .inl ⟨asks, member, requests, marked⟩
  | true =>
    obtain ⟨message, decoded, p, entry, published, value⟩ := supplied.delivered.published asks member marked
    have named : message.jobId = id ∧ message.attempt = row.currentAttempt := by
      simpa [OutboxRow.requests, decoded] using requests
    have same : decodeJobMessage entry.2 = .ok message := by rw [value, decode_encode]
    obtain ⟨offset, found⟩ := List.mem_iff_getElem?.mp published
    refine .inr ⟨p, offset, entry, message, found, Nat.le_of_not_lt fun below => open_ ?_, same, named⟩
    obtain ⟨row', stored', -, ended⟩ := (supplied.offsets.committed p).2 offset below entry found message same
    cases Option.some.inj (stored.symm.trans (named.1 ▸ stored'))
    exact ended named.2.symm

/-- No job is stranded, and no attempt is requested twice. In every state
without retention each attempt of a job has its one row in the outbox, a job
that is not terminal waits there or in the topic, and `process` returns only
when its job is beyond the message. -/
theorem no_job_stranded (initial : Initial first) (run : (system settings).Run WithoutRetention first s) :
    (∀ id row, s.world.jobs id = some row → ∀ attempt, s.world.outbox.countP (·.requests id attempt) =
      if 1 ≤ attempt ∧ attempt ≤ row.currentAttempt then 1 else 0) ∧
    (∀ id row, s.world.jobs id = some row → ¬ row.version.terminal →
      s.world.Waits id row.currentAttempt ∨ s.world.Uncommitted id row.currentAttempt) ∧
    ∀ call ∈ s.calls, ∀ message, Processed call message → message.schemaVersion = 1 →
      ∀ row, s.world.jobs message.jobId = some row →
        message.attempt < row.currentAttempt ∨ row.version.terminal := by
  obtain ⟨coherent, supplied⟩ := initial.coherent.induction run initial.supplied
    fun _ _ _ coherent supplied permitted moves => supplied.step coherent permitted moves
  refine ⟨fun id row stored attempt => ?_, fun id row stored open_ => supplied.waiting stored open_,
    fun call member message processed schema row stored => ?_⟩
  · rw [supplied.requested.once, World.attemptsOf_some stored]
  · obtain ⟨row', stored', reached, ended⟩ := supplied.processed coherent member processed schema
    cases Option.some.inj (stored.symm.trans stored')
    rcases Nat.lt_or_eq_of_le reached with newer | same
    · exact .inl newer
    · exact .inr (ended same.symm)

/-- A worker has just begun with the job: its message is not committed yet. -/
theorem no_job_stranded_preprocessing : ∃ s row,
    (system {}).runs oneDocument (createSteps 0 ++ dispatchSteps 1 2 ++ pollSteps 2 ++
      answered 2 [.go, .go, .now, .now, .go]) = some s ∧
    s.world.jobs 1 = some row ∧ row.status = .preprocessing ∧
    (s.world.Waits 1 row.currentAttempt ∨ s.world.Uncommitted 1 row.currentAttempt) := by
  have played : (((system {}).runs oneDocument (createSteps 0 ++ dispatchSteps 1 2 ++ pollSteps 2 ++
      answered 2 [.go, .go, .now, .now, .go])).bind fun s => (s.world.jobs 1).map JobRow.status) =
        some .preprocessing := by decide +kernel
  obtain ⟨s, runs, rest⟩ := Option.bind_eq_some_iff.mp played
  obtain ⟨row, stored, status⟩ := Option.map_eq_some_iff.mp rest
  have run : (system {}).Run WithoutRetention oneDocument s := by
    refine .of_runs runs fun s action member => ?_
    simp only [createSteps, dispatchSteps, pollSteps, answered, List.map, List.cons_append, List.nil_append,
      List.mem_cons, List.not_mem_nil, or_false] at member
    rcases member with rfl | rfl | rfl | rfl | rfl | rfl | rfl | rfl | rfl | rfl | rfl | rfl | rfl | rfl |
      rfl | rfl | rfl | rfl | rfl | rfl | rfl <;> trivial
  refine ⟨s, row, runs, stored, status, (no_job_stranded oneDocument_initial run).2.1 1 row stored ?_⟩
  simp [Version.terminal, JobRow.version, status]

end
end MonkeyOcr
