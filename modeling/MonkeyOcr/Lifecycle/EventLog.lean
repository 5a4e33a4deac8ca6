import MonkeyOcr.Lifecycle.Invariant

namespace MonkeyOcr

open Calls

namespace Edit

variable {origin : Option Site} {v v' : Version} {type : EventType}

theorem retrying_state (edit : Edit origin v type v') (retry : type = .jobRetrying) :
    v'.state = .retrying ∧ v'.attempt = v.attempt + 1 := by
  cases edit <;> simp_all

/-- A terminal state is entered with its event, or was there before. -/
theorem terminalEvent (edit : Edit origin v type v') {last : EventType}
    (ended : v'.state.terminalEvent? = some last) :
    v'.attempt = v.attempt ∧ (type = last ∨ v'.state = v.state) := by
  cases edit <;> simp_all [JobState.terminalEvent?, Version.setPage]

end Edit

theorem Version.terminal_of_event {v : Version} {type : EventType}
    (ended : v.state.terminalEvent? = some type) : v.terminal ∧ type.terminal = true := by
  cases state : v.state <;> rw [state] at ended <;> cases ended <;>
    simp [Version.terminal, state, EventType.terminal]

namespace JobRow

variable {row row' : JobRow} {job : Job} {event : JobEvent} {origin : Option Site} {type : EventType}
  {attempt : Nat}

/-- The log holds an event of this type for this attempt. -/
def Records (row : JobRow) (type : EventType) (attempt : Nat) : Prop :=
  ∃ event ∈ row.events, event.eventType = type ∧ event.attempt = attempt

/-- The log of a job and its row agree. -/
structure Logged (row : JobRow) : Prop where
  sequences : row.events.map JobEvent.sequence = List.range' 1 row.events.length
  last : ∃ event, row.events.getLast? = some event ∧ event.state = row.status ∧
    event.attempt = row.currentAttempt ∧ event.progress = row.progressPercent
  once : ∀ attempt, row.events.countP (fun event => event.eventType.terminal ∧ event.attempt = attempt) ≤ 1
  terminal : ∀ event ∈ row.events, event.eventType.terminal = true →
    event.attempt < row.currentAttempt ∨
      event.attempt = row.currentAttempt ∧ row.status.terminalEvent? = some event.eventType
  recorded : ∀ type, row.status.terminalEvent? = some type → row.Records type row.currentAttempt

theorem foldl_max_range' (n low : Nat) : (List.range' 1 n).foldl max low = max low n := by
  induction n with
  | zero => simp
  | succ n ih =>
    rw [List.range'_1_concat, List.foldl_append, ih]
    simp only [List.foldl_cons, List.foldl_nil]
    omega

theorem Logged.nextSequence (logged : row.Logged) : row.nextSequence = row.events.length + 1 := by
  rw [JobRow.nextSequence, logged.sequences, foldl_max_range']
  omega

/-- A terminal event that the log has is not appended again. -/
theorem append_recorded (last : event.eventType.terminal = true)
    (recorded : row.Records event.eventType event.attempt) : (row.append event).2 = row := by
  obtain ⟨old, member, type, attempt⟩ := recorded
  have found : (row.terminalEvent? event.eventType event.attempt).isSome = true :=
    List.find?_isSome.mpr ⟨old, member, by simp [type, attempt]⟩
  obtain ⟨existing, found⟩ := Option.isSome_iff_exists.mp found
  simp only [append, last, if_true, found]

theorem append_events (new : event.eventType.terminal = true → ¬ row.Records event.eventType event.attempt) :
    (row.append event).2.events = row.events ++ [event.withSequence row.nextSequence] := by
  have absent : (if event.eventType.terminal then row.terminalEvent? event.eventType event.attempt else none) =
      none := by
    split
    · rename_i last
      refine List.find?_eq_none.mpr fun old member same => ?_
      simp only [decide_eq_true_eq] at same
      exact new last ⟨old, member, same⟩
    · rfl
  unfold append
  rw [absent]

/-- Appends only ever add events. -/
theorem append_grows : row.events <+: (row.append event).2.events := by
  unfold append
  split
  · exact List.prefix_rfl
  · exact List.prefix_append _ _

theorem Records.mono (records : row.Records type attempt) (grows : row.events <+: row'.events) :
    row'.Records type attempt := by
  obtain ⟨old, member, same⟩ := records
  exact ⟨old, grows.subset member, same⟩

/-- What an append makes of the log of a row it reports. -/
theorem logged_append (sequences : row.events.map JobEvent.sequence = List.range' 1 row.events.length)
    (once : ∀ attempt, row.events.countP
      (fun event => event.eventType.terminal ∧ event.attempt = attempt) ≤ 1)
    (older : ∀ old ∈ row.events, old.eventType.terminal = true →
      old.attempt < row.currentAttempt ∨
        event.eventType.terminal = false ∧ old.attempt = row.currentAttempt ∧
          row.status.terminalEvent? = some old.eventType)
    (state : event.state = row.status) (attempt : event.attempt = row.currentAttempt)
    (progress : event.progress = row.progressPercent)
    (own : event.eventType.terminal = true → row.status.terminalEvent? = some event.eventType)
    (recorded : ∀ type, row.status.terminalEvent? = some type →
      type = event.eventType ∨ row.Records type row.currentAttempt) :
    (row.append event).2.Logged := by
  have fresh : ∀ old ∈ row.events, event.eventType.terminal = true → old.eventType.terminal = true →
      old.attempt ≠ event.attempt := by
    intro old member last lastOld
    rcases older old member lastOld with less | ⟨other, -⟩
    · omega
    · rw [last] at other; cases other
  have events : (row.append event).2.events = row.events ++ [event.withSequence row.nextSequence] :=
    append_events fun last ⟨old, member, type, same⟩ => fresh old member last (type ▸ last) same
  have next : row.nextSequence = row.events.length + 1 := by
    rw [JobRow.nextSequence, sequences, foldl_max_range']
    omega
  refine ⟨?_, ?_, ?_, ?_, ?_⟩
  · rw [events, List.map_append, sequences, List.length_append]
    simp only [List.map_cons, List.map_nil, JobEvent.withSequence, next, List.length_singleton]
    rw [List.range'_1_concat, Nat.add_comm]
  · refine ⟨event.withSequence row.nextSequence, by rw [events, List.getLast?_concat], ?_, ?_, ?_⟩
    · rw [append_status]; exact state
    · rw [append_currentAttempt]; exact attempt
    · rw [append_progressPercent]; exact progress
  · intro at'
    rw [events, List.countP_append, List.countP_singleton]
    split
    · rename_i here
      obtain ⟨last, same⟩ := of_decide_eq_true here
      have none : row.events.countP (fun event => event.eventType.terminal ∧ event.attempt = at') = 0 := by
        refine List.countP_eq_zero.mpr fun old member counted => ?_
        obtain ⟨lastOld, sameOld⟩ := of_decide_eq_true counted
        exact fresh old member last lastOld (sameOld.trans same.symm)
      rw [none]
    · exact once at'
  · intro old member last
    rw [events] at member
    rw [append_currentAttempt, append_status]
    rcases List.mem_append.mp member with before | new
    · exact (older old before last).imp_right And.right
    · cases List.mem_singleton.mp new
      exact .inr ⟨attempt, own last⟩
  · intro type ended
    rw [append_status] at ended
    rw [append_currentAttempt]
    rcases recorded type ended with rfl | records
    · exact ⟨event.withSequence row.nextSequence, by simp [events], rfl, attempt⟩
    · exact records.mono append_grows

theorem insert_logged {days : Nat} (new : job.New) (reports : event.Reports job)
    (type : event.eventType = .jobQueued) : ((insert job days).append event).2.Logged := by
  refine logged_append rfl (fun _ => by simp [insert]) (fun old member => by cases member)
    reports.state reports.attempt reports.progress ?_ ?_
  · rw [type]
    intro last
    cases last
  · intro last ended
    have state : (insert job days).status = .queued := new.state
    rw [state] at ended
    cases ended

/-- The log of a saved job: the event of the save is appended, never taken for
one that was there. -/
theorem Saves.logged (saves : row.Saves job row') (logged : row.Logged)
    (edit : Edit origin row.version event.eventType job.version) (reports : event.Reports job) :
    (row'.append event).2.Logged := by
  have status : row'.status = job.version.state := saves.status
  have attempt : row'.currentAttempt = job.version.attempt := saves.attempt
  refine logged_append (by rw [saves.events]; exact logged.sequences)
    (by rw [saves.events]; exact logged.once) (fun old member last => ?_)
    (reports.state.trans saves.status.symm) (reports.attempt.trans saves.attempt.symm)
    (reports.progress.trans saves.progress.symm) (fun last => ?_) (fun type ended => ?_)
  · rw [saves.events] at member
    rw [attempt, status]
    rcases edit.attempt with same | ⟨-, more⟩
    · rw [same]
      rcases logged.terminal old member last with less | ⟨equal, ended⟩
      · exact .inl less
      · have terminal := (Version.terminal_of_event (v := row.version) ended).1
        refine .inr ⟨?_, equal, ?_⟩
        · by_contra other
          exact (edit.terminal_event (by simpa using other)).1 terminal
        · rw [edit.terminal_state terminal same]
          exact ended
    · refine .inl ?_
      rw [more]
      change old.attempt < row.currentAttempt + 1
      rcases logged.terminal old member last with less | ⟨equal, -⟩ <;> omega
  · obtain ⟨-, -, own⟩ := edit.terminal_event last
    rw [status]
    rcases own with ⟨type, state⟩ | ⟨type, state⟩ | ⟨type, state⟩ <;> rw [type, state] <;> rfl
  · rw [status] at ended
    obtain ⟨same, new | kept⟩ := edit.terminalEvent ended
    · exact .inl new.symm
    · right
      rw [kept] at ended
      obtain ⟨old, member, rest⟩ := logged.recorded type ended
      exact ⟨old, by rw [saves.events]; exact member, by rw [attempt, same]; exact rest⟩

end JobRow

/-- The terminal versions that `v` has reached are in the log of its job. -/
def World.Recorded (w : World) (v : Job) : Prop :=
  ∀ row, w.jobs v.id = some row → ∀ type, v.state.terminalEvent? = some type → row.Records type v.attempt

/-- The logs agree with the rows, and with all that was ever read of them. -/
structure LogsAgree (s : State) : Prop where
  rows : ∀ id row, s.world.jobs id = some row → row.Logged
  seen : ∀ call ∈ s.calls, ∀ entry ∈ (memoryOf call).seen, s.world.Recorded entry.2

section

variable {settings : Settings} {ok : State → Step → Prop} {s s' first : State} {action : Step}
  {m : Memory} {w : World} {op : Op} {id : Id} {row row' : JobRow}

theorem RowChange.logged (change : RowChange m w op id (some row) (some row')) (logged : row.Logged)
    (recorded : ∀ entry ∈ m.seen, entry.2.id = id → ∀ type, entry.2.state.terminalEvent? = some type →
      row.Records type entry.2.attempt) : row'.Logged := by
  cases change with
  | same => exact logged
  | saved call own member adopts edits current saves reports =>
    exact saves.logged logged (current ▸ edits.edit) reports
  | reported call own member ended reports =>
    have there := recorded _ member own _ ended
    rw [JobRow.append_recorded (Version.terminal_of_event (v := Job.version _) ended).2
      (reports.attempt ▸ there)]
    exact logged
  | claimed => exact ⟨logged.sequences, logged.last, logged.once, logged.terminal, logged.recorded⟩
  | deferred => exact ⟨logged.sequences, logged.last, logged.once, logged.terminal, logged.recorded⟩

/-- Events are never taken out of the log of a job. -/
theorem RowChange.events_grow (change : RowChange m w op id (some row) (some row')) :
    row.events <+: row'.events := by
  cases change with
  | saved _ _ _ _ _ _ saves => exact saves.events ▸ JobRow.append_grows
  | reported => exact JobRow.append_grows
  | _ => exact List.prefix_rfl

theorem LogsAgree.step (coherent : Coherent s) (agree : LogsAgree s)
    (moves : Moves settings s action s') : LogsAgree s' := by
  have rows : ∀ id row, s'.world.jobs id = some row → row.Logged := by
    intro id row' stored
    rcases moves.row coherent id with same | ⟨i, choice, call, op, -, at_i, -, change⟩
    · exact agree.rows id row' (same ▸ stored)
    · have here := List.mem_of_getElem? at_i
      rw [stored] at change
      cases before : s.world.jobs id with
      | some row =>
        rw [before] at change
        refine change.logged (agree.rows id row before) fun entry member same => ?_
        exact agree.seen call here entry member row (same ▸ before)
      | none =>
        rw [before] at change
        cases change with
        | inserted _ _ _ new reports type => exact JobRow.insert_logged new reports type
  refine ⟨rows, fun call' member entry seen row' stored type ended => ?_⟩
  rcases moves.seen coherent member seen with ⟨call, old, seenBefore⟩ | ⟨row, found, -, version⟩
  · obtain ⟨row, before, same | ⟨_, _, op, change⟩⟩ :=
      moves.kept coherent (coherent.consistent.seen_born old seenBefore) stored
    · exact same ▸ agree.seen call old entry seenBefore row before type ended
    · exact (agree.seen call old entry seenBefore row before type ended).mono change.events_grow
  · cases Option.some.inj (found.symm.trans stored)
    have state : row'.status = entry.2.state := congrArg Version.state version
    have attempt : row'.currentAttempt = entry.2.attempt := congrArg Version.attempt version
    rw [← attempt]
    exact (rows _ _ stored).recorded type (state ▸ ended)

theorem Coherent.logs (coherent : Coherent first) (agree : LogsAgree first)
    (run : (system settings).Run ok first s) : LogsAgree s :=
  (coherent.induction run agree fun _ _ _ coherent agree _ moves => agree.step coherent moves).2

theorem Initial.logs (initial : Initial first) : LogsAgree first := by
  refine ⟨fun id row stored => ?_, by simp [initial.calls]⟩
  rw [initial.world.jobs] at stored
  cases stored

/-- In every state of every run the events of a job are numbered without gaps,
the last one reports the row, and no attempt has two terminal events. -/
theorem eventLog_agrees (initial : Initial first) (run : Reaches settings first s)
    (stored : s.world.jobs id = some row) :
    row.events.map JobEvent.sequence = List.range' 1 row.events.length ∧
      (∃ event, row.events.getLast? = some event ∧ event.sequence = row.events.length ∧
        event.state = row.status ∧ event.attempt = row.currentAttempt ∧
        event.progress = row.progressPercent) ∧
      ∀ attempt, (row.events.filter fun event =>
        (event.eventType = .jobCancelled ∨ event.eventType = .jobFailed ∨
          event.eventType = .jobSucceeded) ∧ event.attempt = attempt).length ≤ 1 := by
  have logged := (initial.coherent.logs initial.logs run).rows id row stored
  obtain ⟨event, last, reports⟩ := logged.last
  refine ⟨logged.sequences, ⟨event, last, ?_, reports⟩, fun attempt => ?_⟩
  · have number := congrArg List.getLast? logged.sequences
    rw [List.getLast?_map, last, List.getLast?_range'] at number
    have some : row.events.length ≠ 0 := by
      intro none
      rw [List.length_eq_zero_iff.mp none] at last
      cases last
    simp only [Option.map_some, some, if_false, Option.some.injEq] at number
    omega
  · have terminal : ∀ event : JobEvent,
        decide ((event.eventType = .jobCancelled ∨ event.eventType = .jobFailed ∨
          event.eventType = .jobSucceeded) ∧ event.attempt = attempt) =
        decide (event.eventType.terminal = true ∧ event.attempt = attempt) := by
      intro event
      cases event.eventType <;> simp [EventType.terminal]
    simp only [terminal, ← List.countP_eq_length_filter]
    exact logged.once attempt

/-- A job that is created and cancelled at once. -/
theorem eventLog_agrees_cancelled : ∃ s row,
    (system {}).runs oneDocument (createSteps 0 ++ cancelSteps 1) = some s ∧
      s.world.jobs 1 = some row ∧ row.events.map JobEvent.sequence = List.range' 1 row.events.length := by
  have played : (((system {}).runs oneDocument (createSteps 0 ++ cancelSteps 1)).bind
      fun s => s.world.jobs 1).isSome = true := by decide +kernel
  obtain ⟨row, stored⟩ := Option.isSome_iff_exists.mp played
  obtain ⟨s, runs, stored⟩ := Option.bind_eq_some_iff.mp stored
  have run : Reaches {} oneDocument s := .of_runs runs fun _ _ _ => trivial
  exact ⟨s, row, runs, stored, (eventLog_agrees oneDocument_initial run stored).1⟩

end
end MonkeyOcr
