import MonkeyOcr.Lifecycle.EventLog
import MonkeyOcr.Lifecycle.Work

namespace MonkeyOcr

open Calls

/-- The step changes nothing of the job but its attempt `n`, and does not
change the job at all when another attempt is stored. -/
structure JobRow.Isolated (n : Nat) (row row' : JobRow) : Prop where
  other : row.currentAttempt ≠ n → row' = row
  current : row'.currentAttempt = row.currentAttempt
  attempts : ∀ attempt, attempt ≠ n → row'.attempts attempt = row.attempts attempt
  pages : ∀ attempt, attempt ≠ n → row'.pages attempt = row.pages attempt
  artifacts : ∀ attempt, attempt ≠ n → row'.artifacts attempt = row.artifacts attempt
  events : ∃ new, row'.events = row.events ++ new ∧ ∀ event ∈ new, event.attempt = n

/-- A read that a call with a message goes on with finds the job at the attempt
of that message. -/
def SameAttempt (s : State) : Step → Prop
  | .resume i _ =>
    ∀ call ∈ s.calls[i]?, ∀ read ∈ reading? call, ∀ message ∈ workOf call,
      ∀ job ∈ s.world.getJob read.2, (memoryOf call).Adopts (some read.1) job →
        job.attempt = message.attempt
  | _ => True

instance (s : State) : ∀ action, Decidable (SameAttempt s action)
  | .resume i _ => inferInstanceAs (Decidable (∀ call ∈ s.calls[i]?, ∀ read ∈ reading? call,
      ∀ message ∈ workOf call, ∀ job ∈ s.world.getJob read.2,
        (memoryOf call).Adopts (some read.1) job → job.attempt = message.attempt))
  | .start _ | .kill _ | .env _ => isTrue trivial

namespace JobRow

variable {row row' : JobRow} {n : Nat}

theorem Isolated.refl : row.Isolated n row :=
  ⟨fun _ => rfl, rfl, fun _ _ => rfl, fun _ _ => rfl, fun _ _ => rfl, [], by simp, by simp⟩

/-- An append adds the event or nothing. -/
theorem append_new (row : JobRow) (event : JobEvent) : ∃ new, (row.append event).2.events = row.events ++ new ∧
    ∀ added ∈ new, added.attempt = event.attempt := by
  unfold append
  split
  · exact ⟨[], by simp, by simp⟩
  · exact ⟨[event.withSequence row.nextSequence], rfl, by simp [JobEvent.withSequence]⟩

theorem Saves.isolated {job : Job} {event : JobEvent} (saves : row.Saves job row')
    (reports : event.Reports job) (stored : row.currentAttempt = n) (own : job.attempt = n) :
    row.Isolated n (row'.append event).2 := by
  refine ⟨fun other => absurd stored other, ?_, fun attempt other => ?_, fun attempt other => ?_,
    fun attempt other => ?_, ?_⟩
  · rw [append_currentAttempt, saves.attempt, own, stored]
  · rw [append_attempts, saves.attempts, upsertAttempt, own]
    exact Function.update_of_ne other _ _
  · rw [append_pages, saves.pages, own]
    exact Function.update_of_ne other _ _
  · rw [append_artifacts, saves.artifacts]
    split
    · rfl
    · rw [own]
      exact Function.update_of_ne other _ _
  · obtain ⟨new, events, attempts⟩ := append_new row' event
    exact ⟨new, saves.events ▸ events, fun added member =>
      (attempts added member).trans (reports.attempt.trans own)⟩

end JobRow

/-- What a call has gone on with is of its message's attempt. -/
structure OwnAttempts (s : State) : Prop where
  messages : HoldsMessages s
  seen : ∀ call ∈ s.calls, ∀ message, workOf call = some message →
    ∀ entry ∈ (memoryOf call).seen, (memoryOf call).Adopts entry.1 entry.2 →
      entry.2.attempt = message.attempt

section

variable {settings : Settings} {ok : State → Step → Prop} {first s s' : State} {action : Step}
  {call : SystemCall} {message : JobWorkMessage}

/-- What the worker newly sees and goes on with is of its own attempt. -/
theorem OwnAttempts.answered (coherent : Coherent s) (own : OwnAttempts s) {i : Nat} {choice : Choice}
    {op : Op} {r : Except Exc op.Val} {w : World} {next : Except Exc op.Val → Program Reply}
    (at_i : s.calls[i]? = some call) (prog : call.prog = .call (S := Sig) op next)
    (executed : World.exec settings i op choice s.world = some (r, w))
    (allowed : call.task.contract.allow (memoryOf call) op)
    (same : SameAttempt s (.resume i choice)) (works : workOf call = some message)
    (kept : ((memoryOf call).next op r).message = some message) :
    ∀ entry ∈ ((memoryOf call).next op r).seen, ((memoryOf call).next op r).Adopts entry.1 entry.2 →
      entry.2.attempt = message.attempt := by
  have here := List.mem_of_getElem? at_i
  have held := own.messages.memory here works
  have before := own.seen call here message works
  have adopts : ∀ entry : Option Site × Job, ((memoryOf call).next op r).Adopts entry.1 entry.2 →
      (memoryOf call).Adopts entry.1 entry.2 := by
    intro entry adopts
    unfold Memory.Adopts at *
    rw [kept] at adopts
    rw [held]
    exact adopts
  intro entry member taken
  cases op with
  | getJob site id =>
    rcases r with e | _ | job
    · exact before entry member (adopts _ taken)
    · exact before entry member (adopts _ taken)
    · rcases List.mem_cons.mp member with rfl | old
      · obtain ⟨-, read⟩ := World.exec_getJob executed
        have reads : reading? call = some (site, id) := by rw [reading?, prog]
        exact same call at_i _ reads message works job read.symm (adopts _ taken)
      · exact before entry old (adopts _ taken)
  | saveWithEvent job event =>
    rcases r with e | saved
    · exact before entry member (adopts _ taken)
    · rcases List.mem_cons.mp member with rfl | old
      · obtain ⟨row, row', found, saves, -, -⟩ := World.exec_saveWithEvent executed
        have inv := coherent.consistent
        obtain ⟨origin, v, memberV, adoptsV, edits, -⟩ := World.saved_edit (inv.known call here)
          (inv.lost call here) (Task.contract_writes allowed).1 found saves
        have attempt := before (origin, v) memberV adoptsV
        rcases edits.edit.attempt with stays | ⟨retry, -⟩
        · exact stays.trans attempt
        · exact absurd retry (Task.contract_writes allowed).2.2
      · exact before entry old (adopts _ taken)
  | saveWithOutboxAndEvent =>
    rcases workOf_allowed works allowed with ⟨_, -, worker⟩ | consumer
    · exact worker.elim
    · exact consumer.elim
  | getMany =>
    rcases r with e | _ | record
    · exact before entry member (adopts _ taken)
    · exact before entry member (adopts _ taken)
    · cases member
  | _ => cases r <;> exact before entry member (adopts _ taken)

theorem OwnAttempts.step (coherent : Coherent s) (own : OwnAttempts s) (same : SameAttempt s action)
    (moves : Moves settings s action s') : OwnAttempts s' := by
  refine ⟨own.messages.step moves, ?_⟩
  cases moves with
  | start task =>
    intro call' member
    rcases List.mem_append.mp member with old | new
    · exact own.seen call' old
    · cases List.mem_singleton.mp new
      intro message _ entry seen
      cases task <;> cases seen
  | kill i =>
    intro call' member
    rcases Machine.mem_modify_killed member with old | ⟨before, memberBefore, rfl⟩
    · exact own.seen call' old
    · exact own.seen before memberBefore
  | env => exact own.seen
  | @resume i choice call op r next w at_i prog executed allowed =>
    intro call' member
    rcases Machine.mem_set_answered member with old | rfl
    · exact own.seen call' old
    · intro message works entry seen adopts
      rcases Memory.next_message (memoryOf call) op r with kept | ⟨none, -⟩
      · have before := workOf_answered kept works
        have held := own.messages.memory (List.mem_of_getElem? at_i) before
        exact own.answered coherent at_i prog executed allowed same before (kept.trans held) entry seen
          adopts
      · rw [memoryOf_answered, none] at seen
        cases seen

theorem Initial.ownAttempts (initial : Initial first) : OwnAttempts first :=
  ⟨by simp [HoldsMessages, initial.calls], by simp [initial.calls]⟩

/-- What one call with a message does to a row it isolates, when it goes on
with versions of its own attempt only. -/
theorem RowChange.isolated {m : Memory} {w : World} {op : Op} {id : Id} {before after : Option JobRow}
    (change : RowChange m w op id before after)
    (calls : (∃ message, m.message = some message ∧ m.workerCalls message op) ∨ m.consumerCalls op)
    (own : ∀ entry ∈ m.seen, m.Adopts entry.1 entry.2 → entry.2.attempt = message.attempt)
    (recorded : ∀ row, before = some row → ∀ entry ∈ m.seen, entry.2.id = id → ∀ type,
      entry.2.state.terminalEvent? = some type → row.Records type entry.2.attempt) :
    Option.Rel (JobRow.Isolated message.attempt) before after := by
  cases change with
  | same =>
    cases before with
    | none => exact .none
    | some row => exact .some .refl
  | @saved row row' origin v job event call ownId member adopts edits current saves reports =>
    have attempt := own (origin, v) member adopts
    have stored : row.currentAttempt = v.attempt := congrArg Version.attempt current
    refine .some (saves.isolated reports (stored.trans attempt) ?_)
    rcases edits.edit.attempt with stays | ⟨retry, -⟩
    · exact stays.trans attempt
    · rcases calls with ⟨_, -, worker⟩ | consumer
      · cases op with
        | saveWithEvent =>
          cases call
          obtain ⟨-, -, -, ofWorker⟩ := worker
          rw [retry] at ofWorker
          cases ofWorker
        | saveWithOutboxAndEvent => exact worker.elim
        | _ => cases call
      · cases op <;> first | exact consumer.elim | cases call
  | @reported row job event call ownId member ended reports =>
    have there := recorded row rfl _ member ownId _ ended
    rw [JobRow.append_recorded (Version.terminal_of_event (v := job.version) ended).2
      (reports.attempt ▸ there)]
    exact .some .refl
  | _ call =>
    subst call
    rcases calls with ⟨_, -, worker⟩ | consumer
    · exact worker.elim
    · exact consumer.elim

/-- As long as every call finds its own attempt when it reads the job again, a
call for the attempt `n` of a job never touches another one. -/
theorem attempt_isolated (initial : Initial first) (run : (system settings).Run SameAttempt first s)
    {i : Nat} {choice : Choice} (step : (system settings).step s (.resume i choice) = some s') (at_i : s.calls[i]? = some call)
    (works : workOf call = some message) (id : Id) :
    Option.Rel (JobRow.Isolated message.attempt) (s.world.jobs id) (s'.world.jobs id) := by
  obtain ⟨coherent, own, logs⟩ := initial.coherent.induction run
    (J := fun s => OwnAttempts s ∧ LogsAgree s) ⟨initial.ownAttempts, initial.logs⟩
    fun _ _ _ coherent ⟨own, logs⟩ same moves => ⟨own.step coherent same moves, logs.step coherent moves⟩
  have here := List.mem_of_getElem? at_i
  obtain ⟨-, moves⟩ := coherent.step step
  rcases moves.row coherent id with unchanged | ⟨j, _, other, op, action, at_j, allowed, change⟩
  · rw [unchanged]
    cases s.world.jobs id with
    | none => exact .none
    | some row => exact .some .refl
  · cases action
    cases Option.some.inj (at_i.symm.trans at_j)
    refine change.isolated (workOf_allowed works allowed) (own.seen call here message works) fun row stored entry member same => ?_
    exact logs.seen call here entry member row (same ▸ stored)

/-- The first delivery dies, a second one finds the job cancelled, and the user retries it;
the first message comes once more, and that of the second attempt up to its first save. -/
def retriedSteps : List Step :=
  createSteps 0 ++ .start (.process 5 firstMessage) :: answered 1 [.go, .go, .now, .now, .go] ++
    .kill 1 :: cancelSteps 2 ++
    .start (.process 5 firstMessage) :: answered 3 [.go, .go, .go, .go, .now, .now, .go] ++
    retrySteps 4 ++
    .start (.process 5 firstMessage) :: answered 5 [.go] ++
    .start (.process 5 { firstMessage with attempt := 2 }) :: answered 6 [.go, .go, .now, .now]

/-- The save begins the second attempt and touches nothing of the first. -/
theorem attempt_isolated_retried : ∃ s s' row row',
    (system {}).runsIf SameAttempt oneDocument retriedSteps = some s ∧
      (system {}).step s (.resume 6 .go) = some s' ∧ s.world.jobs 1 = some row ∧ s'.world.jobs 1 = some row' ∧
      (row.currentAttempt, row.status, row'.status) = (2, .retrying, .preprocessing) ∧ row.Isolated 2 row' := by
  have played : ((system {}).runsIf SameAttempt oneDocument retriedSteps).bind (fun s =>
      ((system {}).step s (.resume 6 .go)).bind fun s' => (s.calls[6]?.bind workOf).bind fun message =>
        (s.world.jobs 1).bind fun row => (s'.world.jobs 1).map fun row' =>
          (message.attempt, row.currentAttempt, row.status, row'.status)) =
      some (2, 2, .retrying, .preprocessing) := by decide +kernel
  obtain ⟨s, runs, rest⟩ := Option.bind_eq_some_iff.mp played
  obtain ⟨s', step, rest⟩ := Option.bind_eq_some_iff.mp rest
  obtain ⟨message, works, rest⟩ := Option.bind_eq_some_iff.mp rest
  obtain ⟨call, at_6, works⟩ := Option.bind_eq_some_iff.mp works
  obtain ⟨row, stored, rest⟩ := Option.bind_eq_some_iff.mp rest
  obtain ⟨row', stored', same⟩ := Option.map_eq_some_iff.mp rest
  obtain ⟨attempt, shown⟩ := Prod.mk.inj same
  have isolated := attempt_isolated oneDocument_initial (.of_runsIf runs) step at_6 works 1
  rw [stored, stored', attempt, Option.rel_some_some] at isolated
  exact ⟨s, s', row, row', runs, step, stored, stored', shown, isolated⟩

/-- The job is cancelled by one delivery and retried while another one still
prepares the pages of the first attempt. -/
def staleFailure : List Step :=
  createSteps 0 ++ .start (.process 5 firstMessage) :: answered 1 [.go, .go, .now, .now, .go] ++
    cancelSteps 2 ++
    .start (.process 5 firstMessage) :: answered 3 [.go, .go, .go, .go, .now, .now, .go] ++
    retrySteps 4 ++
    answered 1 [{ answer := .prepared [] (.error .preprocessing) }, .go, .go, .now, .now]

/-- The failed delivery of attempt 1 reads the job again, finds it waiting for
attempt 2, and fails that one. -/
theorem attempt_not_isolated : ¬ ∀ (settings : Settings) (first s s' : State) (i : Nat) (choice : Choice)
    (call : SystemCall) (message : JobWorkMessage) (id : Id), Initial first → Reaches settings first s →
    (system settings).step s (.resume i choice) = some s' → s.calls[i]? = some call →
    workOf call = some message →
    Option.Rel (JobRow.Isolated message.attempt) (s.world.jobs id) (s'.world.jobs id) := by
  intro claim
  have played : ((system {}).runs oneDocument staleFailure).bind (fun s =>
      ((system {}).step s (.resume 1 .go)).bind fun s' => (s.calls[1]?.bind workOf).bind fun message =>
        (s.world.jobs 1).bind fun row => (s'.world.jobs 1).map fun row' =>
          (message, row.currentAttempt, row.status, row'.status)) =
      some (firstMessage, 2, .retrying, .failed) := by decide +kernel
  obtain ⟨s, runs, rest⟩ := Option.bind_eq_some_iff.mp played
  obtain ⟨s', step, rest⟩ := Option.bind_eq_some_iff.mp rest
  obtain ⟨message, works, rest⟩ := Option.bind_eq_some_iff.mp rest
  obtain ⟨call, at_1, works⟩ := Option.bind_eq_some_iff.mp works
  obtain ⟨row, stored, rest⟩ := Option.bind_eq_some_iff.mp rest
  obtain ⟨row', stored', same⟩ := Option.map_eq_some_iff.mp rest
  simp only [Prod.mk.injEq] at same
  obtain ⟨rfl, attempt, before, after⟩ := same
  have run : Reaches {} oneDocument s := .of_runs runs fun _ _ _ => trivial
  have isolated := claim {} oneDocument s s' 1 .go call _ 1 oneDocument_initial run step at_1 works
  rw [stored, stored'] at isolated
  cases isolated with
  | some isolated =>
    have unchanged := isolated.other (by rw [attempt]; decide)
    rw [unchanged, before] at after
    cases after

end
end MonkeyOcr
