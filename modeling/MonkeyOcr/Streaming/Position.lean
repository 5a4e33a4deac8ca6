import MonkeyOcr.Streaming.Terminal
import Mathlib.Data.List.Infix

namespace MonkeyOcr

open Calls

section

variable {row row' : JobRow} {event : JobEvent}

/-- The sequences of a log are its positions, so what is listed after one is
the rest of the log. -/
theorem JobRow.Logged.filter_lt (logged : row.Logged) (position : Nat) :
    row.events.filter (fun event => position < event.sequence) = row.events.drop position := by
  have rest : ∀ (events : List JobEvent) (before : Nat),
      events.map JobEvent.sequence = List.range' (before + 1) events.length →
      events.filter (fun event => position < event.sequence) = events.drop (position - before) := by
    intro events
    induction events with
    | nil => simp
    | cons event later ih =>
      intro before sequences
      rw [List.map_cons, List.length_cons, List.range'_succ, List.cons.injEq] at sequences
      have tail := ih (before + 1) sequences.2
      by_cases listed : position ≤ before
      · have none : position - (before + 1) = 0 := by omega
        have none' : position - before = 0 := by omega
        rw [List.filter_cons_of_pos (by simp; omega), tail, none, none', List.drop_zero, List.drop_zero]
      · have one : position - before = position - (before + 1) + 1 := by omega
        rw [List.filter_cons_of_neg (by simp; omega), tail, one, List.drop_succ_cons]
  have sequences : row.events.map JobEvent.sequence = List.range' (0 + 1) row.events.length := logged.sequences
  exact rest row.events 0 sequences

theorem JobRow.Logged.sequence_of_getElem? (logged : row.Logged) {i : Nat} (there : row.events[i]? = some event) :
    event.sequence = i + 1 := by
  have inside : i < row.events.length := (List.getElem?_eq_some_iff.mp there).1
  have sequence : (row.events.map JobEvent.sequence)[i]? = some event.sequence := by
    rw [List.getElem?_map, there]
    rfl
  rw [logged.sequences, List.getElem?_range' inside, Option.some.injEq] at sequence
  omega

end

namespace Feed

variable {m : Feed} {row row' : JobRow} {start : Nat} {event : JobEvent}

/-- A stream that began after the sequence `start` has sent the events that
follow it, and has listed those that come next. -/
structure Reads (m : Feed) (row : JobRow) (start : Nat) : Prop where
  log : m.yielded.reverse ++ m.pending <+: row.events.drop start
  position : m.position = start + m.yielded.length

theorem Fresh.reads (fresh : m.Fresh start) : m.Reads row start := by
  refine ⟨?_, ?_⟩
  · rw [fresh.yielded, fresh.pending]
    exact List.nil_prefix
  · rw [fresh.yielded, fresh.position]
    rfl

theorem Reads.later (reads : m.Reads row start) (grows : row.events <+: row'.events) : m.Reads row' start :=
  ⟨reads.log.trans (grows.drop start), reads.position⟩

/-- A list after the position gives the events that come next. -/
theorem Reads.listed (reads : m.Reads row start) (logged : row.Logged) (sent : m.pending = []) :
    ({ m with pending := (row.events.filter fun event => m.position < event.sequence).take 100 } : Feed).Reads
      row start := by
  obtain ⟨rest, log⟩ := reads.log
  rw [sent, List.append_nil] at log
  refine ⟨?_, reads.position⟩
  have next : row.events.drop m.position = rest := by
    rw [reads.position, ← List.drop_drop, ← log, ← List.length_reverse, List.drop_left]
  rw [logged.filter_lt, next, ← log]
  exact (List.prefix_append_right_inj _).mpr (List.take_prefix 100 rest)

/-- An event sent is the next one of the log. -/
theorem Reads.yield (reads : m.Reads row start) (logged : row.Logged) {rest : List JobEvent}
    (pending : m.pending = event :: rest) :
    ({ m with position := event.sequence, pending := rest, yielded := event :: m.yielded } : Feed).Reads row start := by
  have log := reads.log
  rw [pending] at log
  refine ⟨by simpa using log, ?_⟩
  have there : row.events[start + m.yielded.length]? = some event := by
    obtain ⟨tail, whole⟩ := log
    rw [← List.getElem?_drop, ← whole, List.append_assoc, ← List.length_reverse, List.getElem?_append_right le_rfl]
    simp
  have sequence := logged.sequence_of_getElem? there
  simp only [List.length_cons]
  omega

end Feed

/-- A stream of the job `id`, whatever it has read so far. -/
structure ReadsAt (s : State) (m : Feed) (id : Id) (start : Nat) : Prop where
  fresh : m.read = none → m.Fresh start
  born : m.read.isSome = true → ¬ Unborn s id
  reads : ∀ row, s.world.jobs id = some row → m.Reads row start

structure StreamsRead (s : State) : Prop where
  logs : LogsAgree s
  streams : ∀ call ∈ s.calls, Streams call
  reads : ∀ call ∈ s.calls, ∀ turns id ownerId lastEventId,
    call.task = .streamJobEvents turns id ownerId lastEventId →
      ReadsAt s (feedOf call) id call.task.feed.position

section

variable {settings : Settings} {first s s' : State} {action : Step} {call : SystemCall} {op : Op}
  {m : Feed} {id : Id} {row : JobRow} {start : Nat}

theorem ReadsAt.moves (coherent : Coherent s) (moves : Moves settings s action s')
    (at_m : ReadsAt s m id start) : ReadsAt s' m id start := by
  refine ⟨at_m.fresh, fun read => moves.born (at_m.born read), fun row' stored => ?_⟩
  cases read : m.read with
  | none => exact (at_m.fresh read).reads
  | some entry =>
    have born := at_m.born (read ▸ rfl)
    obtain ⟨row, found, same | ⟨_, _, _, change⟩⟩ := moves.kept coherent born stored
    · exact same ▸ at_m.reads row found
    · exact (at_m.reads row found).later change.events_grow

/-- The step lemma of a stream's own calls. -/
theorem ReadsAt.answered {i : Nat} {choice : Choice} {r : Except Exc op.Val} {w : World} (agree' : LogsAgree s')
    (world : s'.world = w) (at_m : ReadsAt s' m id start) (inv : Consistent s') (allowed : m.calls id op)
    (executed : World.exec settings i op choice s.world = some (r, w)) : ReadsAt s' (m.next op r) id start := by
  cases op with
  | getJob site id' =>
    obtain ⟨rfl, sent⟩ := allowed
    rcases r with e | _ | job
    · exact at_m
    · exact at_m
    · obtain ⟨rfl, read⟩ := World.exec_getJob executed
      obtain ⟨row, found, -, rfl⟩ := World.getJob_some read.symm
      rw [← world] at found
      refine ⟨nofun, fun _ => inv.stored_born found, fun row' stored => ?_⟩
      have reads := at_m.reads row' stored
      exact ⟨reads.log, reads.position⟩
  | listAfter id' sequence =>
    obtain ⟨rfl, rfl, sent, read⟩ := allowed
    cases r with
    | error e => exact at_m
    | ok events =>
      refine ⟨fun unread => ?_, at_m.born, fun row found => ?_⟩
      · rw [show m.read = none from unread] at read
        cases read
      · have listed := (at_m.reads row found).listed (agree'.rows _ row found) sent
        rcases World.exec_cases executed with ⟨_, failed, -⟩ | ⟨r₀, performed, rfl | ⟨_, failed, -⟩⟩
        · cases failed
        · cases performed
          simp only [Feed.next, World.listAfter, World.events, ← world, found, Option.elim]
          exact listed
        · cases failed
  | yieldEvent event =>
    obtain ⟨rest, pending⟩ := allowed
    cases r with
    | error e => exact at_m
    | ok =>
      refine ⟨fun unread => ?_, at_m.born, fun row found => ?_⟩
      · have none := (at_m.fresh unread).pending
        rw [pending] at none
        cases none
      · have yielded := (at_m.reads row found).yield (agree'.rows id row found) pending
        simp only [Feed.next, pending, List.tail_cons]
        exact yielded
  | isDisconnected =>
    cases r with
    | error e => exact at_m
    | ok flag =>
      refine ⟨fun unread => ?_, at_m.born, fun row found => ?_⟩
      · have fresh := at_m.fresh unread
        exact ⟨fresh.pending, fresh.yielded, fresh.position⟩
      · have reads := at_m.reads row found
        exact ⟨reads.log, reads.position⟩
  | loopTime => cases r <;> exact at_m
  | sleep => cases r <;> exact at_m
  | yieldHeartbeat => cases r <;> exact at_m
  | _ => exact allowed.elim

theorem Initial.streamsRead (initial : Initial s) : StreamsRead s :=
  ⟨initial.logs, by simp [initial.calls], by simp [initial.calls]⟩

theorem StreamsRead.step (coherent : Coherent s) (read : StreamsRead s) (moves : Moves settings s action s') :
    StreamsRead s' := by
  have agree' := read.logs.step coherent moves
  have inv' := (coherent.step moves.step).1.consistent
  have others : ∀ call ∈ s.calls, ∀ turns id ownerId lastEventId,
      call.task = .streamJobEvents turns id ownerId lastEventId →
        ReadsAt s' (feedOf call) id call.task.feed.position := by
    intro call member turns id ownerId lastEventId task
    exact (read.reads call member turns id ownerId lastEventId task).moves coherent moves
  refine ⟨agree', moves.streams read.streams, ?_⟩
  cases moves with
  | start task =>
    intro call member turns id ownerId lastEventId given
    rcases List.mem_append.mp member with old | new
    · exact others call old turns id ownerId lastEventId given
    · cases List.mem_singleton.mp new
      change task = _ at given
      subst given
      have fresh : (Task.streamJobEvents turns id ownerId lastEventId).feed.Fresh
          (Task.streamJobEvents turns id ownerId lastEventId).feed.position := ⟨rfl, rfl, rfl⟩
      exact ⟨fun _ => fresh, nofun, fun row _ => fresh.reads⟩
  | kill i =>
    intro call member
    rcases Machine.mem_modify_killed member with old | ⟨before, memberBefore, rfl⟩
    · exact others call old
    · exact others before memberBefore
  | env event => exact others
  | @resume i choice call op r next w at_i prog executed allowed =>
    have here := List.mem_of_getElem? at_i
    intro other member turns id ownerId lastEventId task
    rcases Machine.mem_set_answered member with old | rfl
    · exact others other old turns id ownerId lastEventId task
    · have own : call.task = .streamJobEvents turns id ownerId lastEventId := task
      have streams := read.streams call here
      rw [Streams, Tracks, prog, own] at streams
      obtain ⟨allow, -⟩ := streams
      exact ReadsAt.answered agree' rfl (others call here turns id ownerId lastEventId own) inv' allow executed

end
end MonkeyOcr
