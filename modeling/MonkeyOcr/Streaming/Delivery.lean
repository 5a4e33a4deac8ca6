import MonkeyOcr.Streaming.Session

namespace MonkeyOcr

open Calls
open Browser (Subscription SubscriptionError Runtime)

/-- The job is still to come, or it is there. -/
def Live (s : State) (id : Id) : Prop := Unborn s id ∨ (s.world.jobs id).isSome = true

section

variable {settings : Settings} {serializer : Serializer} {runtime : Runtime} {jobId id : Id} {s s' : State}
  {action : Step} {x y : Session} {call : SystemCall}

theorem World.events_eq_nil {w : World} (absent : w.jobs id = none) : w.events id = [] := by
  rw [World.events, absent]
  rfl

/-- A job that is live was live before, and its log has only grown. -/
theorem Moves.live (coherent : Coherent s) (moves : Moves settings s action s') (live : Live s' id) :
    Live s id ∧ s.world.events id <+: s'.world.events id := by
  by_cases unborn : Unborn s id
  · rw [World.events_eq_nil (coherent.consistent.absent id unborn)]
    exact ⟨.inl unborn, List.nil_prefix⟩
  · rcases live with unborn' | stored
    · exact absurd unborn' (moves.born unborn)
    · obtain ⟨row', stored⟩ := Option.isSome_iff_exists.mp stored
      obtain ⟨row, found, change⟩ := moves.kept coherent unborn stored
      refine ⟨.inr (by rw [found]; rfl), ?_⟩
      rw [World.events, World.events, found, stored]
      rcases change with same | ⟨_, _, _, change⟩
      · exact same ▸ List.prefix_rfl
      · exact change.events_grow

theorem StreamsRead.numbered (streams : StreamsRead s) (coherent : Coherent s) (live : Live s id) :
    (s.world.events id).map JobEvent.sequence = List.range' 1 (s.world.events id).length := by
  rcases live with unborn | stored
  · rw [World.events_eq_nil (coherent.consistent.absent id unborn)]
    rfl
  · obtain ⟨row, stored⟩ := Option.isSome_iff_exists.mp stored
    rw [World.events, stored]
    exact (streams.logs.rows id row stored).sequences

/-- What a stream has sent follows its start in the log. -/
theorem StreamsRead.yielded (streams : StreamsRead s) (live : Live s id) (member : call ∈ s.calls) {turns : Nat}
    {ownerId : Id} {header : Option String} (task : call.task = .streamJobEvents turns id ownerId header) :
    (feedOf call).yielded.reverse <+: (s.world.events id).drop call.task.feed.position := by
  have reads := streams.reads call member turns id ownerId header task
  rcases live with unborn | stored
  · have unread : (feedOf call).read = none := by
      by_contra read
      exact reads.born (Option.isSome_iff_ne_none.mpr read) unborn
    rw [(reads.fresh unread).yielded]
    exact List.nil_prefix
  · obtain ⟨row, stored⟩ := Option.isSome_iff_exists.mp stored
    rw [World.events, stored]
    exact (List.prefix_append _ _).trans (reads.reads row stored).log

end

section

variable (serializer : Serializer) (runtime : Runtime) (jobId : Id)

/-- The text the browser has read on its last connection. -/
def Session.consumed (x : Session) : List Char := (serializer.text (x.sent x.reading.1)).take x.reading.2

/-- The browser is connected to a stream of the job. It has handled the whole
blocks of what it has read, and kept the rest. -/
structure Connected (x : Session) (connection : Browser.Connection) : Prop where
  running : x.browser.stopped = false
  inside : x.reading.2 ≤ (serializer.text (x.sent x.reading.1)).length
  buffer : connection.buffer = (Text.blocks (x.consumed serializer)).2
  stream : ∃ call turns ownerId header, x.system.calls[x.reading.1]? = some call ∧
    call.task = .streamJobEvents turns jobId ownerId header ∧
    x.browser.received.length = call.task.feed.position +
      (((x.sent x.reading.1).take (Text.blocks (x.consumed serializer)).1.length).filterMap Frame.event?).length

/-- The browser has passed on the first events of the log. -/
structure Shows (x : Session) : Prop where
  log : ∃ events, events <+: x.system.world.events jobId ∧
    List.Forall₂ (Carries serializer runtime) events x.browser.received
  placed : x.browser.stopped = false → x.browser.Placed
  connected : ∀ connection, x.browser.connection = some connection → Connected serializer jobId x connection

/-- The invariant of a session. -/
structure Delivers (x : Session) : Prop where
  coherent : Coherent x.system
  streams : StreamsRead x.system
  sent : ∀ (i : Nat) (call : SystemCall), x.system.calls[i]? = some call →
    (x.sent i).filterMap Frame.event? = (feedOf call).yielded.reverse
  unsent : ∀ i, x.system.calls.length ≤ i → x.sent i = []
  shows : Live x.system jobId → Shows serializer runtime jobId x

end

section

variable {settings : Settings} {serializer : Serializer} {runtime : Runtime} {jobId : Id} {x y : Session}

/-- The next whole blocks a browser reads are those of the next frames. -/
theorem Session.next_blocks (inline : serializer.Inline) (x : Session) (length : Nat) :
    let read := (Text.blocks (x.consumed serializer)).1.length
    let next := (Text.blocks ((Text.blocks (x.consumed serializer)).2 ++ x.chunk serializer length)).1
    next = (((x.sent x.reading.1).drop read).take next.length).map serializer.body := by
  intro read next
  have whole := Text.blocks_take_grows (serializer.text (x.sent x.reading.1))
    (x.reading.2 + (x.chunk serializer length).length)
  have cut := Text.blocks_chunk (serializer.text (x.sent x.reading.1)) x.reading.2 length
  rw [chunk, cut, Serializer.blocks_text inline] at whole
  obtain ⟨rest, whole⟩ := whole
  have all : (Text.blocks (x.consumed serializer)).1 ++ (next ++ rest) = (x.sent x.reading.1).map serializer.body := by
    rw [← List.append_assoc]
    exact whole
  have tail := congrArg (List.drop read) all
  rw [List.drop_left, ← List.map_drop] at tail
  rw [List.map_take, ← tail, List.take_left]

/-- What follows the sequence `before` in a numbered log is numbered from there. -/
theorem numbered_after {log events : List JobEvent} {before : Nat}
    (numbered : log.map JobEvent.sequence = List.range' 1 log.length) (follows : events <+: log.drop before) :
    events.map JobEvent.sequence = List.range' (before + 1) events.length := by
  have short := follows.length_le
  rw [List.length_drop] at short
  have cut := congrArg (List.map JobEvent.sequence) (List.prefix_iff_eq_take.mp follows)
  rw [List.map_take, List.map_drop, numbered, List.drop_range', List.take_range'_of_length_ge short] at cut
  rw [cut, Nat.mul_one, Nat.add_comm]

/-- The events of the next frames are those of the log that the browser has not
passed on. -/
theorem Delivers.ahead (delivers : Delivers serializer runtime jobId x) (live : Live x.system jobId)
    {connection : Browser.Connection} (connected : Connected serializer jobId x connection) (more : Nat) :
    (((x.sent x.reading.1).drop (Text.blocks (x.consumed serializer)).1.length).take more).filterMap Frame.event? <+:
      (x.system.world.events jobId).drop x.browser.received.length := by
  obtain ⟨call, turns, ownerId, header, at_i, task, count⟩ := connected.stream
  generalize (Text.blocks (x.consumed serializer)).1.length = read at count ⊢
  have follows := delivers.streams.yielded live (List.mem_of_getElem? at_i) task
  rw [← delivers.sent _ call at_i, ← List.take_append_drop read (x.sent x.reading.1),
    ← List.take_append_drop more ((x.sent x.reading.1).drop read), List.filterMap_append,
    List.filterMap_append] at follows
  obtain ⟨rest, whole⟩ := follows
  have tail := congrArg (List.drop (((x.sent x.reading.1).take read).filterMap Frame.event?).length) whole
  rw [List.append_assoc, List.drop_left, List.append_assoc] at tail
  rw [count, ← List.drop_drop]
  exact ⟨_, tail⟩

/-- The step lemma of a chunk that is read. -/
theorem Shows.read (inline : serializer.Inline) (delivers : Delivers serializer runtime jobId x)
    (live : Live x.system jobId) (length : Nat) :
    Shows serializer runtime jobId { x with
      browser := x.browser.read runtime (x.chunk serializer length)
      reading := (x.reading.1, x.reading.2 + (x.chunk serializer length).length) } := by
  have shows := delivers.shows live
  obtain ⟨events, log, carried⟩ := shows.log
  unfold Subscription.read
  cases open_ : x.browser.connection with
  | none => exact ⟨⟨events, log, carried⟩, shows.placed, fun connection there => by rw [open_] at there; cases there⟩
  | some connection =>
    have connected := shows.connected connection open_
    have next := x.next_blocks inline length
    have cut : Text.blocks ((serializer.text (x.sent x.reading.1)).take
        (x.reading.2 + (x.chunk serializer length).length)) =
          ((Text.blocks (x.consumed serializer)).1 ++ (Text.blocks (connection.buffer ++ x.chunk serializer length)).1,
            (Text.blocks (connection.buffer ++ x.chunk serializer length)).2) := by
      rw [connected.buffer]
      exact Text.blocks_chunk (serializer.text (x.sent x.reading.1)) x.reading.2 length
    have ahead := delivers.ahead live connected
      (Text.blocks (connection.buffer ++ x.chunk serializer length)).1.length
    have numbered := numbered_after (delivers.streams.numbered delivers.coherent live) ahead
    dsimp only at next ⊢
    rw [← connected.buffer] at next
    have handled := handle_frames inline connection.lastEventWasTerminal carried
      (shows.placed connected.running) numbered
    rw [← next] at handled
    obtain ⟨passed, grows, shown, connection', stopped, outcome⟩ := handled
    have size : x.browser.received.length = events.length := carried.length_eq.symm
    have log' : events ++ passed <+: x.system.world.events jobId := by
      obtain ⟨rest, whole⟩ := grows.trans ahead
      refine ⟨rest, ?_⟩
      rw [List.append_assoc, whole, size, List.prefix_iff_eq_take.mp log, List.length_take,
        Nat.min_eq_left log.length_le, List.take_append_drop]
    generalize Subscription.handle runtime _ x.browser connection.lastEventWasTerminal = result
      at shown connection' stopped outcome ⊢
    obtain ⟨after, e | terminal⟩ := result
    · refine ⟨⟨_, log', shown⟩, fun running => ?_, nofun⟩
      simp only [Subscription.failed, Bool.or_eq_false_iff, decide_eq_false_iff_not] at running
      rcases outcome with protocol | placed
      · exact absurd protocol running.2
      · exact placed
    · obtain ⟨all, placed⟩ := outcome
      refine ⟨⟨_, log', shown⟩, fun _ => placed, fun other same => ?_⟩
      cases same
      refine ⟨stopped.trans connected.running, ?_, (congrArg Prod.snd cut).symm, ?_⟩
      · have inside := connected.inside
        simp only [Session.chunk, List.length_take, List.length_drop]
        omega
      · obtain ⟨call, turns, ownerId, header, at_i, task, count⟩ := connected.stream
        refine ⟨call, turns, ownerId, header, at_i, task, ?_⟩
        have whole := shown.length_eq
        rw [List.length_append, ← size, all, count] at whole
        simp only [Session.consumed] at cut whole ⊢
        rw [cut, List.length_append, List.take_add, List.filterMap_append, List.length_append, ← Nat.add_assoc]
        exact whole.symm

/-- A stream cannot fail to send. -/
theorem World.exec_yieldEvent {i : Nat} {choice : Choice} {w w' : World} {event : JobEvent}
    {r : Except Exc (Op.yieldEvent event).Val}
    (executed : World.exec settings i (.yieldEvent event) choice w = some (r, w')) : r = .ok () := by
  rcases World.exec_cases executed with ⟨_, _, fails, _⟩ | ⟨r₀, performed, rfl | ⟨_, _, fails, _⟩⟩
  · cases fails
  · exact (Prod.mk.inj (Option.some.inj performed)).1.symm
  · cases fails

/-- The frames sent carry the events the calls have yielded. -/
theorem Delivers.send (delivers : Delivers serializer runtime jobId x) {action : Step} {s' : State}
    (timestamp : Time) (moves : Moves settings x.system action s') :
    (∀ (i : Nat) (call : SystemCall), s'.calls[i]? = some call →
      (sendFrame x.sent (emitted x.system timestamp action) i).filterMap Frame.event? =
        (feedOf call).yielded.reverse) ∧
    ∀ i, s'.calls.length ≤ i → sendFrame x.sent (emitted x.system timestamp action) i = [] := by
  cases moves with
  | start task =>
    refine ⟨fun i call at_i => ?_, fun i outside => ?_⟩
    · change (x.sent i).filterMap Frame.event? = _
      rcases Nat.lt_or_ge i x.system.calls.length with inside | outside
      · rw [List.getElem?_append_left inside] at at_i
        exact delivers.sent i call at_i
      · rw [delivers.unsent i outside]
        rw [List.getElem?_append_right outside] at at_i
        cases List.mem_singleton.mp (List.mem_of_getElem? at_i)
        cases task <;> rfl
    · rw [List.length_append, List.length_singleton] at outside
      exact delivers.unsent i (by omega)
  | kill j =>
    refine ⟨fun i call at_i => ?_, fun i outside => delivers.unsent i (by simpa using outside)⟩
    rw [List.getElem?_modify] at at_i
    obtain ⟨before, at_before, rfl⟩ := Option.map_eq_some_iff.mp at_i
    have same := delivers.sent i before at_before
    split <;> exact same
  | env event => exact ⟨delivers.sent, delivers.unsent⟩
  | @resume j choice call op r next w at_j prog executed allowed =>
    have own := delivers.sent j call at_j
    have inside : j < x.system.calls.length := (List.getElem?_eq_some_iff.mp at_j).1
    have old : ∀ i, i ≠ j → ∀ other, (x.system.calls.set j (call.answered (S := Sig) op r next))[i]? = some other →
        (x.sent i).filterMap Frame.event? = (feedOf other).yielded.reverse := by
      intro i different other at_i
      rw [List.getElem?_set_ne (Ne.symm different)] at at_i
      exact delivers.sent i other at_i
    have new : ∀ other, (x.system.calls.set j (call.answered (S := Sig) op r next))[j]? = some other →
        other = call.answered (S := Sig) op r next := by
      intro other at_i
      rw [List.getElem?_set_self inside] at at_i
      exact (Option.some.inj at_i).symm
    have quiet : emitted x.system timestamp (.resume j choice) = none →
        (feedOf (call.answered (S := Sig) op r next)).yielded = (feedOf call).yielded →
        (∀ (i : Nat) (other : SystemCall), (resumed x.system j call op r next w).calls[i]? = some other →
          (sendFrame x.sent (emitted x.system timestamp (.resume j choice)) i).filterMap Frame.event? =
            (feedOf other).yielded.reverse) ∧
        ∀ i, (resumed x.system j call op r next w).calls.length ≤ i →
          sendFrame x.sent (emitted x.system timestamp (.resume j choice)) i = [] := by
      intro none same
      rw [none]
      refine ⟨fun i other at_i => ?_, fun i outside => delivers.unsent i (by simpa [resumed] using outside)⟩
      by_cases here : i = j
      · subst here
        rw [new other at_i, same]
        exact own
      · exact old i here other at_i
    have sends : ∀ frame, emitted x.system timestamp (.resume j choice) = some (j, frame) →
        (feedOf (call.answered (S := Sig) op r next)).yielded = (frame.event?.toList ++ (feedOf call).yielded) →
        (∀ (i : Nat) (other : SystemCall), (resumed x.system j call op r next w).calls[i]? = some other →
          (sendFrame x.sent (emitted x.system timestamp (.resume j choice)) i).filterMap Frame.event? =
            (feedOf other).yielded.reverse) ∧
        ∀ i, (resumed x.system j call op r next w).calls.length ≤ i →
          sendFrame x.sent (emitted x.system timestamp (.resume j choice)) i = [] := by
      intro frame some same
      rw [some]
      refine ⟨fun i other at_i => ?_, fun i outside => ?_⟩
      · by_cases here : i = j
        · subst here
          rw [new other at_i, same, sendFrame, Function.update_self, List.filterMap_append, own]
          cases frame <;> simp [Frame.event?]
        · rw [sendFrame, Function.update_of_ne here]
          exact old i here other at_i
      · have outside : x.system.calls.length ≤ i := by simpa [resumed] using outside
        rw [sendFrame, Function.update_of_ne (by omega)]
        exact delivers.unsent i outside
    cases op with
    | yieldEvent event =>
      cases World.exec_yieldEvent executed
      exact sends (.event timestamp event) (by rw [emitted, at_j, Option.map_some, prog]) rfl
    | yieldHeartbeat =>
      exact sends .heartbeat (by rw [emitted, at_j, Option.map_some, prog]) (by cases r <;> rfl)
    | getJob => exact quiet (by rw [emitted, at_j, Option.map_some, prog]) (by rcases r with _ | _ | _ <;> rfl)
    | _ => exact quiet (by rw [emitted, at_j, Option.map_some, prog]) (by cases r <;> rfl)

/-- A call goes on with the task it was started with. -/
theorem Moves.task {s s' : State} {action : Step} (moves : Moves settings s action s') {i : Nat} {call : SystemCall}
    (at_i : s.calls[i]? = some call) : ∃ call', s'.calls[i]? = some call' ∧ call'.task = call.task := by
  have inside : i < s.calls.length := (List.getElem?_eq_some_iff.mp at_i).1
  cases moves with
  | start task =>
    refine ⟨call, ?_, rfl⟩
    rwa [List.getElem?_append_left inside]
  | kill j =>
    rw [List.getElem?_modify, at_i]
    by_cases here : j = i
    · exact ⟨call.killed, by simp [here], rfl⟩
    · exact ⟨call, by simp [here], rfl⟩
  | env event => exact ⟨call, at_i, rfl⟩
  | @resume j choice other op r next w at_j prog executed allowed =>
    by_cases here : j = i
    · subst here
      rw [at_i] at at_j
      cases at_j
      exact ⟨call.answered (S := Sig) op r next, List.getElem?_set_self inside, rfl⟩
    · exact ⟨call, by rwa [resumed, List.getElem?_set_ne here], rfl⟩

theorem sendFrame_grows (sent : Nat → List Frame) (frame : Option (Nat × Frame)) (i : Nat) :
    sent i <+: sendFrame sent frame i := by
  rcases frame with _ | ⟨j, frame⟩
  · exact List.prefix_rfl
  · by_cases here : i = j
    · subst here
      rw [sendFrame, Function.update_self]
      exact List.prefix_append _ _
    · rw [sendFrame, Function.update_of_ne here]

/-- The browser stays connected while calls send more. -/
theorem Connected.system (inline : serializer.Inline) {connection : Browser.Connection}
    (connected : Connected serializer jobId x connection) {action : Step} {s' : State}
    (moves : Moves settings x.system action s') {sent' : Nat → List Frame} (grows : ∀ i, x.sent i <+: sent' i) :
    Connected serializer jobId { x with system := s', sent := sent' } connection := by
  obtain ⟨call, turns, ownerId, header, at_i, task, count⟩ := connected.stream
  obtain ⟨call', at_i', task'⟩ := moves.task at_i
  obtain ⟨rest, more⟩ := grows x.reading.1
  have text : serializer.text (sent' x.reading.1) = serializer.text (x.sent x.reading.1) ++ serializer.text rest := by
    rw [← more, Serializer.text, List.flatMap_append]
    rfl
  have same : Session.consumed serializer { x with system := s', sent := sent' } = x.consumed serializer := by
    rw [Session.consumed, text, List.take_append_of_le_length connected.inside]
    rfl
  have inside := connected.inside
  have short : (Text.blocks (x.consumed serializer)).1.length ≤ (x.sent x.reading.1).length := by
    have whole := (Text.blocks_take_grows (serializer.text (x.sent x.reading.1)) x.reading.2).length_le
    rwa [Serializer.blocks_text inline, List.length_map] at whole
  refine ⟨connected.running, ?_, ?_, call', turns, ownerId, header, at_i', task'.trans task, ?_⟩
  · change x.reading.2 ≤ (serializer.text (sent' x.reading.1)).length
    rw [text, List.length_append]
    omega
  · rw [same]
    exact connected.buffer
  · rw [same, task', count]
    change _ = _ + (((sent' x.reading.1).take _).filterMap Frame.event?).length
    rw [← more, List.take_append_of_le_length short]

/-- The step lemma of the system. -/
theorem Delivers.system (inline : serializer.Inline) (delivers : Delivers serializer runtime jobId x)
    {action : Step} {s' : State} (timestamp : Time)
    (step : (MonkeyOcr.system settings).step x.system action = some s') :
    Delivers serializer runtime jobId
      { x with system := s', sent := sendFrame x.sent (emitted x.system timestamp action) } := by
  obtain ⟨coherent, moves⟩ := delivers.coherent.step step
  obtain ⟨sent, unsent⟩ := delivers.send timestamp moves
  refine ⟨coherent, delivers.streams.step delivers.coherent moves, sent, unsent, fun live => ?_⟩
  obtain ⟨before, grows⟩ := moves.live delivers.coherent live
  have shows := delivers.shows before
  obtain ⟨events, log, carried⟩ := shows.log
  exact ⟨⟨events, log.trans grows, carried⟩, shows.placed, fun connection there =>
    (shows.connected connection there).system inline moves fun i => sendFrame_grows _ _ i⟩

/-- The step lemma of a browser that connects: the stream starts behind what was
passed on. -/
theorem Delivers.connect (inline : serializer.Inline) (delivers : Delivers serializer runtime jobId x)
    (turns : Nat) (ownerId : Id) (running : x.browser.stopped = false) :
    Delivers serializer runtime jobId { x with
      system := { x.system with
        calls := x.system.calls ++
          [Call.begin (MonkeyOcr.system settings) (.streamJobEvents turns jobId ownerId x.browser.header)] }
      browser := { x.browser with connection := some {} }
      reading := (x.system.calls.length, 0) } := by
  have step : (MonkeyOcr.system settings).step x.system
      (.start (.streamJobEvents turns jobId ownerId x.browser.header)) = some { x.system with
        calls := x.system.calls ++
          [Call.begin (MonkeyOcr.system settings) (.streamJobEvents turns jobId ownerId x.browser.header)] } := rfl
  have started := delivers.system inline 0 step
  refine ⟨started.coherent, started.streams, started.sent, started.unsent, fun live => ?_⟩
  have shows := started.shows live
  refine ⟨shows.log, shows.placed, fun connection new => ?_⟩
  cases new
  have none := delivers.unsent x.system.calls.length le_rfl
  have start : EventStream.parseLastEventId x.browser.header = .ok x.browser.received.length :=
    (shows.placed running).parse
  refine ⟨running, ?_, rfl, _, turns, ownerId, x.browser.header, List.getElem?_concat_length, rfl, ?_⟩
  · exact Nat.zero_le _
  · simp only [Session.consumed, none, Call.begin, Task.feed, start, List.take_nil]
    rfl

/-- A browser that is not connected any more keeps what it has passed on. -/
theorem Delivers.disconnected (delivers : Delivers serializer runtime jobId x) {browser : Subscription}
    (received : browser.received = x.browser.received) (last : browser.lastEventId = x.browser.lastEventId)
    (stopped : browser.stopped = false → x.browser.stopped = false) (closed : browser.connection = none) :
    Delivers serializer runtime jobId { x with browser } := by
  refine ⟨delivers.coherent, delivers.streams, delivers.sent, delivers.unsent, fun live => ?_⟩
  have shows := delivers.shows live
  refine ⟨received ▸ shows.log, fun running => ?_, fun connection there => ?_⟩
  · have placed := shows.placed (stopped running)
    rw [Subscription.Placed] at placed ⊢
    rw [last, received, placed]
  · rw [closed] at there
    cases there

theorem Delivers.failed (delivers : Delivers serializer runtime jobId x) (e : SubscriptionError) :
    Delivers serializer runtime jobId { x with browser := x.browser.failed e } :=
  delivers.disconnected rfl rfl (fun running => (Bool.or_eq_false_iff.mp (Bool.or_eq_false_iff.mp running).1).1) rfl

/-- The step lemma of a session. -/
theorem Delivers.step (inline : serializer.Inline) (delivers : Delivers serializer runtime jobId x)
    (next : x.Next settings serializer runtime jobId y) : Delivers serializer runtime jobId y := by
  cases next with
  | system timestamp step => exact delivers.system inline timestamp step
  | connect turns ownerId idle running => exact delivers.connect inline turns ownerId running
  | read length =>
    exact ⟨delivers.coherent, delivers.streams, delivers.sent, delivers.unsent,
      fun live => Shows.read inline delivers live length⟩
  | done =>
    unfold Subscription.done
    cases open_ : x.browser.connection with
    | none => exact delivers
    | some connection =>
      dsimp only
      by_cases terminal : connection.lastEventWasTerminal = true
      · rw [if_pos terminal]
        exact delivers.disconnected rfl rfl nofun rfl
      · rw [if_neg terminal]
        exact delivers.failed .transport
  | failed e => exact delivers.failed e
  | close => exact delivers.disconnected rfl rfl nofun rfl

/-- A session before anything was called: no browser is connected yet. -/
structure Session.Initial (x : Session) : Prop where
  system : MonkeyOcr.Initial x.system
  sent : x.sent = fun _ => []
  browser : x.browser = {}

theorem Session.Initial.delivers (initial : x.Initial) : Delivers serializer runtime jobId x := by
  refine ⟨initial.system.coherent, initial.system.streamsRead, ?_, ?_, fun _ => ?_⟩
  · simp [initial.system.calls]
  · simp [initial.sent]
  · obtain ⟨-, -, fresh⟩ := initial
    refine ⟨⟨[], List.nil_prefix, ?_⟩, fun _ => ?_, fun connection there => ?_⟩
    · rw [fresh]
      exact .nil
    · rw [fresh]
      rfl
    · rw [fresh] at there
      cases there

/-- What holds in every run of a session. -/
theorem Session.Initial.delivers_run (inline : serializer.Inline) (initial : x.Initial)
    (run : Relation.ReflTransGen (Session.Next settings serializer runtime jobId) x y) :
    Delivers serializer runtime jobId y := by
  induction run with
  | refl => exact initial.delivers
  | tail _ next ih => exact ih.step inline next

/-- The event as a page gets it if the browser reads what the server wrote. -/
def Serializer.received (serializer : Serializer) (event : JobEvent) : Browser.JobEvent :=
  let payload := ("attempt", .nat event.attempt) :: event.data
  { eventId := some (.nat event.sequence)
    eventType := event.eventType.text
    jobId := textOf event.jobId
    status := some event.state.text
    attempt := Browser.numberField payload "attempt"
    internalCode := Browser.numberField payload "internal_code"
    progress := {
      percent := Browser.percent (Browser.number? (.float (serializer.fraction event.progress)))
      totalPages := Browser.numberField payload "total_pages"
      currentPage := Browser.numberField payload "page_number" }
    occurredAt := some (serializer.isoformat event.occurredAt)
    message := Browser.textField payload "error_reason"
    payload }

/-- The browser reads the envelopes of the event as the server wrote them. -/
def Decodes (serializer : Serializer) (runtime : Runtime) (event : JobEvent) : Prop :=
  ∀ timestamp, runtime.parse (serializer.json timestamp event) = some (serializer.envelope timestamp event)

theorem Carries.received {event : JobEvent} {got : Browser.JobEvent × Option (List Char)}
    (carries : Carries serializer runtime event got) (decodes : Decodes serializer runtime event) :
    got.1 = serializer.received event := by
  obtain ⟨timestamp, value, envelope, parsed, asserted, normalized⟩ := carries.json
  have written := decodes timestamp
  rw [parsed, Option.some.injEq] at written
  obtain ⟨members, rfl, data⟩ := Browser.assertApiEnvelope_data asserted
  cases written
  have data : envelope.data = serializer.jobEventDto event := (Option.some.inj data).symm
  rw [data] at normalized
  exact (Except.ok.inj normalized).symm

/-- However the text of the streams is cut and the connections break, what the
page gets are the first events of the log, each once, in order, with the id and
the JSON the server gave it. -/
theorem events_delivered (inline : serializer.Inline) (initial : x.Initial)
    (run : Relation.ReflTransGen (Session.Next settings serializer runtime jobId) x y) :
    ∀ row, y.system.world.jobs jobId = some row →
      ∃ events, events <+: row.events ∧ events.map JobEvent.sequence = List.range' 1 events.length ∧
        List.Forall₂ (fun event got => Carries serializer runtime event got ∧
          (Decodes serializer runtime event → got.1 = serializer.received event)) events y.browser.received := by
  intro row stored
  have delivers : Delivers serializer runtime jobId y := initial.delivers_run inline run
  have live : Live y.system jobId := .inr (by rw [stored]; rfl)
  obtain ⟨events, log, carried⟩ := (delivers.shows live).log
  have whole : events <+: (y.system.world.events jobId).drop 0 := log
  have numbered := numbered_after (delivers.streams.numbered delivers.coherent live) whole
  rw [World.events, stored] at log
  exact ⟨events, log, numbered, carried.imp fun _ _ carries => ⟨carries, carries.received⟩⟩

/-- Some of the steps of a session, of a user and for a number of turns. -/
inductive Session.Act
  | system (action : Step)
  | connect (turns : Nat) (ownerId : Id)
  | read (length : Nat)
  | failed

def Session.act (settings : Settings) (serializer : Serializer) (runtime : Runtime) (jobId : Id) (x : Session) :
    Session.Act → Option Session
  | .system action => ((MonkeyOcr.system settings).step x.system action).map fun s' =>
      { x with system := s', sent := sendFrame x.sent (emitted x.system 0 action) }
  | .connect turns ownerId =>
    if x.browser.connection.isNone ∧ x.browser.stopped = false then
      some { x with
        system := { x.system with
          calls := x.system.calls ++
            [Call.begin (MonkeyOcr.system settings) (.streamJobEvents turns jobId ownerId x.browser.header)] }
        browser := { x.browser with connection := some {} }
        reading := (x.system.calls.length, 0) }
    else none
  | .read length => some { x with
      browser := x.browser.read runtime (x.chunk serializer length)
      reading := (x.reading.1, x.reading.2 + (x.chunk serializer length).length) }
  | .failed => some { x with browser := x.browser.failed .transport }

def Session.acts (settings : Settings) (serializer : Serializer) (runtime : Runtime) (jobId : Id) (x : Session) :
    List Session.Act → Option Session
  | [] => some x
  | act :: rest => (x.act settings serializer runtime jobId act).bind fun x =>
      Session.acts settings serializer runtime jobId x rest

theorem Session.Next.of_act {act : Session.Act} (acted : x.act settings serializer runtime jobId act = some y) :
    x.Next settings serializer runtime jobId y := by
  cases act with
  | system action =>
    obtain ⟨s', step, rfl⟩ := Option.map_eq_some_iff.mp acted
    exact .system 0 step
  | connect turns ownerId =>
    obtain ⟨⟨idle, running⟩, same⟩ := Option.ite_none_right_eq_some.mp acted
    cases same
    exact .connect turns ownerId (Option.isNone_iff_eq_none.mp idle) running
  | read length =>
    cases acted
    exact .read length
  | failed =>
    cases acted
    exact .failed .transport

theorem Session.Next.of_acts {acts : List Session.Act}
    (acted : x.acts settings serializer runtime jobId acts = some y) :
    Relation.ReflTransGen (Session.Next settings serializer runtime jobId) x y := by
  induction acts generalizing x with
  | nil =>
    cases acted
    exact .refl
  | cons act rest ih =>
    obtain ⟨z, first, later⟩ := Option.bind_eq_some_iff.mp acted
    exact .head (.of_act first) (ih later)

/-- JSON without line ends, of moments that are all the same. -/
def Serializer.plain : Serializer where
  dump value := value.dumpsChars.filter fun c => c ≠ '\n' ∧ c ≠ '\r'
  isoformat _ := "1970-01-01T00:00:00Z"
  fraction _ := "0.0"

theorem Serializer.plain_inline : Serializer.plain.Inline := by
  intro timestamp event c member
  simpa [and_comm] using (List.mem_filter.mp member).2

/-- The first event of the job of `createSteps`. -/
def queuedEvent : JobEvent where
  jobId := 1
  requestId := "request"
  eventType := .jobQueued
  state := .queued
  progress := 0
  attempt := 1
  data := []
  occurredAt := 0
  sequence := 1

/-- `JSON.parse` on the envelope of this event. -/
def Browser.Runtime.plain : Runtime where
  parse text :=
    if text = Serializer.plain.json 0 queuedEvent then some (Serializer.plain.envelope 0 queuedEvent) else none
  isRfc3339 text := text = "1970-01-01T00:00:00Z"

/-- The job is created and streamed; the connection breaks within the first frame,
and the next one brings it in two chunks. -/
def brokenOnce : List Session.Act :=
  (createSteps 0).map .system ++ .connect 9 7 :: (answered 1 [.go, .go, .go, .go]).map .system ++
    [.read 30, .failed, .connect 9 7] ++ (answered 2 [.go, .go, .go, .go]).map .system ++ [.read 9, .read 400]

theorem events_delivered_broken : ∃ y : Session, y.browser.received.length = 1 ∧
    ∀ row, y.system.world.jobs 1 = some row →
      ∃ events, events <+: row.events ∧ events.map JobEvent.sequence = List.range' 1 events.length ∧
        List.Forall₂ (fun event got => Carries Serializer.plain Browser.Runtime.plain event got ∧
          (Decodes Serializer.plain Browser.Runtime.plain event → got.1 = Serializer.plain.received event))
          events y.browser.received := by
  have played : (Session.acts {} Serializer.plain Browser.Runtime.plain 1 { system := oneDocument } brokenOnce).map
      (fun y => y.browser.received.length) = some 1 := by decide +kernel
  obtain ⟨y, acted, received⟩ := Option.map_eq_some_iff.mp played
  have initial : Session.Initial { system := oneDocument } := ⟨oneDocument_initial, rfl, rfl⟩
  exact ⟨y, received, events_delivered Serializer.plain_inline initial (Session.Next.of_acts acted)⟩

end
end MonkeyOcr
