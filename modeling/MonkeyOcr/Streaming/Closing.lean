import MonkeyOcr.Streaming.Terminal

namespace MonkeyOcr

open Calls

/-- A heartbeat that finds the job terminal finds it with nothing left to list
after the position of the stream. -/
def NothingUnlisted (s : State) : Step → Prop
  | .resume i _ =>
    ∀ call ∈ s.calls[i]?, ∀ read ∈ reading? call, ∀ job ∈ s.world.getJob read.2,
      read.1 = .stream true → job.terminal = true → s.world.listAfter read.2 (feedOf call).position = []
  | _ => True

instance (s : State) : ∀ action, Decidable (NothingUnlisted s action)
  | .resume i _ => inferInstanceAs (Decidable (∀ call ∈ s.calls[i]?, ∀ read ∈ reading? call,
      ∀ job ∈ s.world.getJob read.2, read.1 = .stream true → job.terminal = true →
        s.world.listAfter read.2 (feedOf call).position = []))
  | .start _ | .kill _ | .env _ => isTrue trivial

/-- A stream that has ended by itself, with a terminal job at its last read,
has sent the terminal event of the attempt it read, or started after it. -/
def ClosesAfterEnd (s : State) : Prop :=
  ∀ call ∈ s.calls, ∀ turns id ownerId lastEventId start reply site job row,
    call.task = .streamJobEvents turns id ownerId lastEventId →
    EventStream.parseLastEventId lastEventId = .ok start →
    call.prog = .ret (.ok reply) → (feedOf call).disconnected = false →
    (feedOf call).read = some (site, job) → job.terminal = true → s.world.jobs id = some row →
    ∃ event ∈ row.events, event.eventType.terminal = true ∧ event.attempt = job.attempt ∧
      (event ∈ (feedOf call).yielded ∨ event.sequence ≤ start)

/-- A stream of the job `id`, whatever it has read so far. -/
structure FeedAt (s : State) (m : Feed) (id : Id) (start : Nat) : Prop where
  fresh : m.read = none → m.Fresh start
  born : m.read.isSome = true → ¬ Unborn s id
  follows : ∀ row, s.world.jobs id = some row → m.Follows row start

structure FeedsFollow (s : State) : Prop where
  logs : LogsAgree s
  streams : ∀ call ∈ s.calls, Streams call
  ends : ∀ id row, s.world.jobs id = some row → row.Ends
  feeds : ∀ call ∈ s.calls, ∀ turns id ownerId lastEventId,
    call.task = .streamJobEvents turns id ownerId lastEventId →
      FeedAt s (feedOf call) id call.task.feed.position

section

variable {settings : Settings} {first s s' : State} {action : Step} {call : SystemCall} {op : Op}
  {m : Feed} {id : Id} {row : JobRow} {start : Nat}

/-- A stream follows the log of its job through what others do. -/
theorem FeedAt.moves (coherent : Coherent s) (agree : LogsAgree s) (agree' : LogsAgree s')
    (moves : Moves settings s action s') (feed : FeedAt s m id start) : FeedAt s' m id start := by
  refine ⟨feed.fresh, fun read => moves.born (feed.born read), fun row' stored => ?_⟩
  cases read : m.read with
  | none => exact (feed.fresh read).follows read
  | some entry =>
    have born := feed.born (read ▸ rfl)
    obtain ⟨row, found, same | ⟨_, _, _, change⟩⟩ := moves.kept coherent born stored
    · exact same ▸ feed.follows row found
    · exact (feed.follows row found).later (agree.rows id row found) (agree'.rows id row' stored)
        change.events_grow

/-- The terminal event of a job that ended lies at or below the position of a
stream that has nothing left to list. -/
theorem JobRow.Logged.ended (logged : row.Logged) (ended : (row.toJob id).terminal = true) {position : Nat}
    (listed : row.events.filter (fun event => position < event.sequence) = []) :
    ∃ event ∈ row.events, event.eventType.terminal = true ∧ event.attempt = row.currentAttempt ∧
      event.sequence ≤ position := by
  have type : ∃ type, row.status.terminalEvent? = some type := by
    have status : row.status = .cancelled ∨ row.status = .succeeded ∨ row.status = .failed :=
      of_decide_eq_true ended
    rcases status with state | state | state <;> exact ⟨_, by rw [state]; rfl⟩
  obtain ⟨type, state⟩ := type
  obtain ⟨event, member, same, attempt⟩ := logged.recorded type state
  have terminal := (Version.terminal_of_event (v := row.version) state).2
  refine ⟨event, member, same ▸ terminal, attempt, Nat.le_of_not_lt fun above => ?_⟩
  exact List.filter_eq_nil_iff.mp listed event member (by simpa using above)

/-- The step lemma of a stream's own calls. -/
theorem FeedAt.answered {i : Nat} {choice : Choice} {r : Except Exc op.Val} {w : World} (agree' : LogsAgree s')
    (world : s'.world = w) (feed : FeedAt s' m id start) (inv : Consistent s') (allowed : m.calls id op)
    (executed : World.exec settings i op choice s.world = some (r, w))
    (listed : ∀ job ∈ s.world.getJob id, op = .getJob (.stream true) id → job.terminal = true →
      s.world.listAfter id m.position = []) :
    FeedAt s' (m.next op r) id start := by
  cases op with
  | getJob site id' =>
    obtain ⟨rfl, sent⟩ := allowed
    rcases r with e | _ | job
    · exact feed
    · exact feed
    · obtain ⟨rfl, read⟩ := World.exec_getJob executed
      obtain ⟨row, found, -, rfl⟩ := World.getJob_some read.symm
      rw [← world] at found
      refine ⟨nofun, fun _ => inv.stored_born found, fun row' stored => ?_⟩
      cases Option.some.inj (found.symm.trans stored)
      have follows := feed.follows row found
      refine ⟨follows.shown, follows.ahead, follows.sent, follows.place, fun job same ended => ?_⟩
      obtain ⟨rfl, rfl⟩ := Prod.mk.inj (Option.some.inj same)
      have none := listed _ read.symm rfl ended
      simp only [World.listAfter, World.events, ← world, found, Option.elim, List.take_eq_nil_iff] at none
      exact (agree'.rows _ row found).ended ended (none.resolve_left (by decide))
  | listAfter id' sequence =>
    obtain ⟨rfl, rfl, sent, read⟩ := allowed
    cases r with
    | error e => exact feed
    | ok events =>
      refine ⟨fun unread => ?_, feed.born, fun row found => ?_⟩
      · rw [show m.read = none from unread] at read
        cases read
      · have follows := feed.follows row found
        refine ⟨follows.shown, ?_, follows.sent, follows.place, follows.told⟩
        rcases World.exec_cases executed with ⟨_, failed, -⟩ | ⟨r₀, performed, rfl | ⟨_, failed, -⟩⟩
        · cases failed
        · cases performed
          rw [← world]
          simp only [Feed.next, World.listAfter, World.events, found, Option.elim]
          exact ⟨_, (List.take_append_drop 100 _).symm⟩
        · cases failed
  | yieldEvent event =>
    obtain ⟨rest, pending⟩ := allowed
    cases r with
    | error e => exact feed
    | ok =>
      refine ⟨fun unread => ?_, feed.born, fun row found => ?_⟩
      · have none := (feed.fresh unread).pending
        rw [pending] at none
        cases none
      · have yielded := (feed.follows row found).yield (agree'.rows id row found) pending
        simp only [Feed.next, pending, List.tail_cons]
        exact yielded
  | isDisconnected =>
    cases r with
    | error e => exact feed
    | ok flag =>
      refine ⟨fun unread => ?_, feed.born, fun row found => ?_⟩
      · have fresh := feed.fresh unread
        exact ⟨fresh.pending, fresh.yielded, fresh.position⟩
      · have follows := feed.follows row found
        exact ⟨follows.shown, follows.ahead, follows.sent, follows.place, follows.told⟩
  | loopTime => cases r <;> exact feed
  | sleep => cases r <;> exact feed
  | yieldHeartbeat => cases r <;> exact feed
  | _ => exact allowed.elim

theorem Initial.feeds (initial : Initial s) : FeedsFollow s := by
  refine ⟨initial.logs, by simp [initial.calls], fun id row stored => ?_, by simp [initial.calls]⟩
  rw [initial.world.jobs] at stored
  cases stored

theorem FeedsFollow.step (coherent : Coherent s) (follow : FeedsFollow s) (permitted : NothingUnlisted s action)
    (moves : Moves settings s action s') : FeedsFollow s' := by
  have agree' := follow.logs.step coherent moves
  have inv' := (coherent.step moves.step).1.consistent
  have others : ∀ call ∈ s.calls, ∀ turns id ownerId lastEventId,
      call.task = .streamJobEvents turns id ownerId lastEventId →
        FeedAt s' (feedOf call) id call.task.feed.position := by
    intro call member turns id ownerId lastEventId task
    exact (follow.feeds call member turns id ownerId lastEventId task).moves coherent follow.logs agree' moves
  refine ⟨agree', moves.streams follow.streams, fun id row' stored => ?_, ?_⟩
  · rcases moves.row coherent id with same | ⟨_, _, _, _, -, -, -, change⟩
    · exact follow.ends id row' (same ▸ stored)
    · rw [stored] at change
      cases before : s.world.jobs id with
      | some row =>
        rw [before] at change
        exact (follow.ends id row before).snoc (agree'.rows id row' stored) change.events_snoc
      | none =>
        rw [before] at change
        cases change with
        | @inserted job _ event days =>
          have none : (JobRow.insert job days).Ends := nofun
          exact none.snoc (agree'.rows id _ stored) JobRow.append_snoc
  · cases moves with
    | start task =>
      intro call member turns id ownerId lastEventId given
      rcases List.mem_append.mp member with old | new
      · exact others call old turns id ownerId lastEventId given
      · cases List.mem_singleton.mp new
        change task = _ at given
        subst given
        have fresh : (Task.streamJobEvents turns id ownerId lastEventId).feed.Fresh
            (Task.streamJobEvents turns id ownerId lastEventId).feed.position := ⟨rfl, rfl, rfl⟩
        exact ⟨fun _ => fresh, nofun, fun row _ => fresh.follows rfl⟩
    | kill i =>
      intro call member
      rcases Machine.mem_modify_killed member with old | ⟨before, memberBefore, rfl⟩
      · exact others call old
      · exact others before memberBefore
    | env event => exact others
    | @resume i choice call op r next w at_i prog executed allowed =>
      have here := List.mem_of_getElem? at_i
      intro other member turns id ownerId lastEventId task
      rcases Machine.mem_set_answered member with old | rfl
      · exact others other old turns id ownerId lastEventId task
      · have own : call.task = .streamJobEvents turns id ownerId lastEventId := task
        have streams := follow.streams call here
        rw [Streams, Tracks, prog, own] at streams
        obtain ⟨allow, -⟩ := streams
        refine FeedAt.answered agree' rfl (others call here turns id ownerId lastEventId own) inv' allow executed ?_
        intro job read same ended
        subst same
        exact permitted call at_i (.stream true, id) (by rw [reading?, prog]; rfl) job read rfl ended

theorem FeedsFollow.closes (follow : FeedsFollow s) : ClosesAfterEnd s := by
  intro call member turns id ownerId lastEventId start reply site job row task parsed prog connected read terminal
    stored
  have streams := follow.streams call member
  have feed := follow.feeds call member turns id ownerId lastEventId task
  rw [Streams, Tracks, prog, task] at streams
  have position : call.task.feed.position = start := by
    rw [task, Task.feed, parsed]
    rfl
  have follows := feed.follows row stored
  rw [position] at follows
  have ended : (feedOf call).Ended := streams
  have below : ∃ event ∈ row.events, event.eventType.terminal = true ∧ event.attempt = job.attempt ∧
      event.sequence ≤ (feedOf call).position := by
    rcases ended with left | ⟨site', job', read', -, way⟩
    · rw [connected] at left
      cases left
    obtain ⟨rfl, rfl⟩ := Prod.mk.inj (Option.some.inj (read.symm.trans read'))
    rcases way with rfl | ⟨rfl, last, sent, state, attempt⟩
    · exact follows.told job read terminal
    · obtain ⟨there, low⟩ := follows.sent last sent
      have type : ∃ type, last.state.terminalEvent? = some type := by
        have status : job.state = .cancelled ∨ job.state = .succeeded ∨ job.state = .failed :=
          of_decide_eq_true terminal
        rw [state]
        rcases status with same | same | same <;> exact ⟨_, by rw [same]; rfl⟩
      obtain ⟨type, ends⟩ := type
      obtain ⟨event, found, same, attempt', before⟩ := follow.ends id row stored last there type ends
      have terminal := (Version.terminal_of_event (v := { Job.version job with state := last.state }) ends).2
      exact ⟨event, found, same ▸ terminal, attempt'.trans attempt, before.trans low⟩
  obtain ⟨event, found, type, attempt, low⟩ := below
  exact ⟨event, found, type, attempt, follows.shown event found low⟩

/-- As long as no heartbeat finds a job ended by something it has not listed
yet, no stream closes before the terminal event. -/
theorem stream_closes_after_end (initial : Initial first)
    (run : (system settings).Run NothingUnlisted first s) : ClosesAfterEnd s :=
  (initial.coherent.induction run initial.feeds fun _ _ _ coherent follow permitted moves =>
    follow.step coherent permitted moves).2.closes

/-- A stream that lists the end of a job that is cancelled while it waits. -/
theorem stream_closes_after_end_cancelled : ∃ s,
    (system {}).runsIf NothingUnlisted oneDocument
      (createSteps 0 ++ streamSteps 1 ++ cancelSteps 2 ++ answered 1 [.go, .go, .go]) = some s ∧
    s.calls[1]?.map (fun call => (feedOf call).yielded.map JobEvent.eventType) = some [.jobCancelled, .jobQueued] ∧
    ClosesAfterEnd s := by
  have played : ((system {}).runsIf NothingUnlisted oneDocument
      (createSteps 0 ++ streamSteps 1 ++ cancelSteps 2 ++ answered 1 [.go, .go, .go])).map (fun s =>
        s.calls[1]?.map fun call => (feedOf call).yielded.map JobEvent.eventType) =
      some (some [.jobCancelled, .jobQueued]) := by decide +kernel
  obtain ⟨s, runs, yielded⟩ := Option.map_eq_some_iff.mp played
  exact ⟨s, runs, yielded, stream_closes_after_end oneDocument_initial (.of_runsIf runs)⟩

/-- The stream has waited in vain and is about to read the job; the job is
cancelled, and read. -/
def missedEnd : List Step :=
  createSteps 0 ++ streamSteps 1 ++
    answered 1 [.go, .now, .now, .go, .now, .go, { answer := .time (seconds 15) }, { answer := .flag false }] ++
    cancelSteps 2 ++ answered 1 [.go]

/-- The job and the start of a stream. -/
def Task.streamed? : Task → Option (Id × Option String)
  | .streamJobEvents _ jobId _ lastEventId => some (jobId, lastEventId)
  | _ => none

/-- The stream closes at a heartbeat without the event it has not listed. -/
theorem stream_not_closes_after_end : ¬ ∀ (settings : Settings) (first s : State), Initial first →
    Reaches settings first s → ClosesAfterEnd s := by
  intro claim
  have played : ((system {}).runs oneDocument missedEnd).bind (fun s => s.calls[1]?.bind fun call =>
      call.task.streamed?.bind fun streamed => call.prog.returned?.bind fun _ =>
        (feedOf call).read.bind fun read => (s.world.jobs 1).map fun row =>
          (streamed, (feedOf call).disconnected, (feedOf call).yielded.map JobEvent.sequence, read.2.terminal,
            row.events.all fun event => !event.eventType.terminal || event.sequence == 2)) =
      some ((1, none), false, [1], true, true) := by decide +kernel
  obtain ⟨s, runs, rest⟩ := Option.bind_eq_some_iff.mp played
  obtain ⟨call, at_1, rest⟩ := Option.bind_eq_some_iff.mp rest
  obtain ⟨streamed, task, rest⟩ := Option.bind_eq_some_iff.mp rest
  obtain ⟨reply, returned, rest⟩ := Option.bind_eq_some_iff.mp rest
  obtain ⟨⟨site, job⟩, read, rest⟩ := Option.bind_eq_some_iff.mp rest
  obtain ⟨row, stored, same⟩ := Option.map_eq_some_iff.mp rest
  simp only [Prod.mk.injEq] at same
  obtain ⟨rfl, connected, yielded, terminal, events⟩ := same
  have run : Reaches {} oneDocument s := .of_runs runs fun _ _ _ => trivial
  cases given : call.task with
  | streamJobEvents turns id ownerId lastEventId =>
    rw [given] at task
    cases task
    obtain ⟨event, found, last, -, shown⟩ := claim {} oneDocument s oneDocument_initial run call
      (List.mem_of_getElem? at_1) turns 1 ownerId none 0 reply site job row given rfl
      (Prog.eq_of_returned? returned) connected read terminal stored
    have second : event.sequence = 2 := by simpa [last] using List.all_eq_true.mp events event found
    rcases shown with sent | low
    · have early : event.sequence ∈ [1] := yielded ▸ List.mem_map_of_mem sent
      rw [second] at early
      simp at early
    · omega
  | _ => rw [given] at task; cases task

end
end MonkeyOcr
