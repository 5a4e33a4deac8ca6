import MonkeyOcr.Lifecycle.Invariant

namespace MonkeyOcr

open Calls

/-- What a stream remembers: the sequence it stands at, the events it has
listed and not yet sent, those it has sent, and its last read of the job. -/
structure Feed where
  position : Nat := 0
  pending : List JobEvent := []
  yielded : List JobEvent := []
  read : Option (Site × Job) := none
  disconnected : Bool := false

namespace Feed

def next (m : Feed) : (op : Op) → Except Exc op.Val → Feed
  | .listAfter _ _, .ok events => { m with pending := events }
  | .yieldEvent event, .ok _ =>
    { m with position := event.sequence, pending := m.pending.tail, yielded := event :: m.yielded }
  | .getJob site _, .ok (some job) => { m with read := some (site, job) }
  | .isDisconnected, .ok flag => { m with disconnected := flag }
  | _, _ => m

def ghost : Ghost Sig Feed := ⟨next⟩

/-- The calls of a stream of the job: it lists what comes after its position,
once everything listed before is sent, and sends in the order listed. -/
def calls (jobId : Id) (m : Feed) : Op → Prop
  | .getJob _ id => id = jobId ∧ m.pending = []
  | .listAfter id sequence => id = jobId ∧ sequence = m.position ∧ m.pending = [] ∧ m.read.isSome = true
  | .yieldEvent event => ∃ rest, m.pending = event :: rest
  | .loopTime | .sleep _ | .isDisconnected | .yieldHeartbeat => True
  | _ => False

/-- How a stream ends: by a disconnect, or by a read of a terminal job, either
at a heartbeat or after an event of that attempt with that state. -/
def Ended (m : Feed) : Prop :=
  m.disconnected = true ∨ ∃ site job, m.read = some (site, job) ∧ job.terminal = true ∧
    (site = .stream true ∨ site = .stream false ∧
      ∃ last ∈ m.yielded, last.state = job.state ∧ last.attempt = job.attempt)

/-- The stream stands at the sequence and has these events left to send. -/
structure Stands (m : Feed) (sequence : Nat) (events : List JobEvent) : Prop where
  pending : m.pending = events
  position : m.position = sequence
  read : m.read.isSome = true

end Feed

def Task.feed : Task → Feed
  | .streamJobEvents _ _ _ lastEventId => { position := (EventStream.parseLastEventId lastEventId).toOption.getD 0 }
  | _ => {}

def Task.streaming : Task → Contract Sig Feed
  | .streamJobEvents _ jobId _ _ => ⟨Feed.calls jobId, fun _ _ _ => True⟩
  | _ => ⟨fun _ _ => True, fun _ _ _ => True⟩

def Task.Streamed : Task → Reply → Feed → Prop
  | .streamJobEvents .., _, m => m.Ended
  | _, _, _ => True

namespace EventStream

open Feed (Stands)

/-- A part of a stream of the job. -/
abbrev Sends {α : Type} (jobId : Id) (program : Program α) (Q : α → Feed → Prop) (m : Feed) : Prop :=
  program.Meets Feed.ghost ⟨Feed.calls jobId, fun _ _ _ => True⟩ Q (fun _ _ => True) m

variable {settings : Settings} {jobId ownerId : Id} {turns sequence : Nat} {m : Feed}

theorem sends_await (op : Op) (allowed : m.calls jobId op) :
    Sends jobId (await op) (fun a m' => m' = m.next op (.ok a)) m :=
  ⟨allowed, fun r _ => by cases r <;> trivial⟩

/-- A wait lists the events it returns. -/
theorem waitUntil_sends {deadline : Time} (stands : m.Stands sequence []) :
    Sends jobId (waitUntil jobId sequence deadline turns) (fun events m' => m'.Stands sequence events) m := by
  induction turns generalizing m with
  | zero => trivial
  | succ turns ih =>
    refine (sends_await .loopTime trivial).bind ?_
    intro now m₁ same
    have stands₁ : m₁.Stands sequence [] := same ▸ stands
    split
    · refine (sends_await (.listAfter jobId sequence)
        ⟨rfl, stands₁.position.symm, stands₁.pending, stands₁.read⟩).bind ?_
      intro events m₂ same
      have stands₂ : m₂.Stands sequence events := same ▸ ⟨rfl, stands₁.position, stands₁.read⟩
      split
      · rename_i none
        rw [List.isEmpty_iff.mp none] at stands₂
        refine (sends_await .loopTime trivial).bind ?_
        intro now m₃ same
        refine (sends_await (.sleep _) trivial).bind ?_
        intro _ m₄ same'
        exact ih (same' ▸ same ▸ stands₂)
      · exact stands₂
    · exact stands₁

theorem pendingEvents_sends (stands : m.Stands sequence []) :
    Sends jobId (pendingEvents settings jobId sequence turns) (fun events m' => m'.Stands sequence events) m := by
  refine (sends_await (.listAfter jobId sequence)
    ⟨rfl, stands.position.symm, stands.pending, stands.read⟩).bind ?_
  intro listed m₁ same
  have stands₁ : m₁.Stands sequence listed := same ▸ ⟨rfl, stands.position, stands.read⟩
  split
  · rename_i none
    rw [List.isEmpty_iff.mp none] at stands₁
    refine (sends_await .loopTime trivial).bind ?_
    intro start m₂ same
    exact waitUntil_sends (same ▸ stands₁)
  · exact stands₁

/-- All events of a batch are sent, and the stream stands at the last one. -/
theorem yieldEach_sends {events : List JobEvent} (stands : m.Stands sequence events) :
    Sends jobId (yieldEach events sequence)
      (fun sequence m' => m'.Stands sequence [] ∧ ∀ event, event ∈ events ∨ event ∈ m.yielded → event ∈ m'.yielded)
      m := by
  induction events generalizing m sequence with
  | nil => exact ⟨stands, fun event member => member.resolve_left List.not_mem_nil⟩
  | cons event rest ih =>
    refine (sends_await (.yieldEvent event) ⟨rest, stands.pending⟩).bind ?_
    intro _ m₁ same
    have stands₁ : m₁.Stands event.sequence rest :=
      same ▸ ⟨by rw [Feed.next, stands.pending, List.tail_cons], rfl, stands.read⟩
    have yielded : m₁.yielded = event :: m.yielded := same ▸ rfl
    refine (ih stands₁).mono ?_ fun _ _ _ => trivial
    intro sequence m₂ ⟨stands₂, kept⟩
    refine ⟨stands₂, fun other member => kept other ?_⟩
    rw [yielded]
    rcases member with member | old
    · rcases List.mem_cons.mp member with rfl | later
      · exact .inr List.mem_cons_self
      · exact .inl later
    · exact .inr (List.mem_cons_of_mem _ old)

theorem getJobDomain_sends {site : Site} (sent : m.pending = []) :
    Sends jobId (OCRApplicationService.getJobDomain site jobId ownerId)
      (fun job m' => m' = { m with read := some (site, job) }) m := by
  refine Prog.Meets.bind (Q := fun found m' => m' = m.next (.getJob site jobId) (.ok found))
    (Prog.meets_mapError.mpr (sends_await (.getJob site jobId) ⟨rfl, sent⟩)) ?_
  rintro (_ | job) m₁ same
  · trivial
  · dsimp only
    split
    · trivial
    · exact same

/-- The loop of a stream ends as described. -/
theorem generate_sends (stands : m.Stands sequence []) :
    Sends jobId (generate settings jobId ownerId turns sequence) (fun _ m' => m'.Ended) m := by
  induction turns generalizing m sequence with
  | zero => trivial
  | succ turns ih =>
    refine (pendingEvents_sends stands).bind ?_
    intro pending m₁ stands₁
    cases last : pending.getLast? with
    | none =>
      rw [List.getLast?_eq_none_iff.mp last] at stands₁
      refine (sends_await .isDisconnected trivial).bind ?_
      intro disconnected m₂ same
      have stands₂ : m₂.Stands sequence [] := same ▸ ⟨stands₁.pending, stands₁.position, stands₁.read⟩
      split
      · rename_i left
        exact .inl (same ▸ left)
      · refine (getJobDomain_sends stands₂.pending).bind ?_
        intro latest m₃ same
        split
        · rename_i terminal
          exact .inr ⟨_, latest, by rw [same], terminal, .inl rfl⟩
        · refine (sends_await .yieldHeartbeat trivial).bind ?_
          intro _ m₄ same'
          exact ih (same' ▸ same ▸ ⟨stands₂.pending, stands₂.position, rfl⟩)
    | some event =>
      refine (yieldEach_sends stands₁).bind ?_
      intro sequence m₂ ⟨stands₂, sent⟩
      refine (getJobDomain_sends stands₂.pending).bind ?_
      intro latest m₃ same
      split
      · rename_i ends
        have member : event ∈ m₃.yielded := same ▸ sent event (.inl (List.mem_of_getLast? last))
        exact .inr ⟨_, latest, by rw [same], ends.1, .inr ⟨rfl, event, member, ends.2.1, ends.2.2⟩⟩
      · exact ih (same ▸ ⟨stands₂.pending, stands₂.position, rfl⟩)

theorem streamJobEvents_sends {lastEventId : Option String}
    (start : m = (Task.streamJobEvents turns jobId ownerId lastEventId).feed) :
    Sends jobId (streamJobEvents settings turns jobId ownerId lastEventId) (fun _ m' => m'.Ended) m := by
  have sent : m.pending = [] := start ▸ rfl
  refine (getJobDomain_sends sent).bind ?_
  intro job m₁ same
  refine Prog.Meets.bind (Q := fun sequence m' => Feed.Stands m' sequence []) ?_ fun _ _ stands => generate_sends stands
  cases parsed : parseLastEventId lastEventId with
  | error e => trivial
  | ok sequence =>
    have position : m.position = sequence := by
      rw [start, Task.feed, parsed]
      rfl
    exact same ▸ ⟨sent, position, rfl⟩

end EventStream

theorem program_streams (settings : Settings) (task : Task) :
    (program settings task).Meets Feed.ghost task.streaming task.Streamed (fun _ _ => True) task.feed := by
  cases task with
  | streamJobEvents turns jobId ownerId lastEventId =>
    exact Prog.Meets.bind (EventStream.streamJobEvents_sends rfl) fun _ _ ended => ended
  | _ => exact Prog.meets_free fun _ _ => trivial

/-- What the call remembers of its stream. -/
def feedOf (call : SystemCall) : Feed := call.ghost Feed.ghost Task.feed

@[simp] theorem feedOf_begin (settings : Settings) (task : Task) :
    feedOf (Call.begin (system settings) task) = task.feed := rfl

@[simp] theorem feedOf_killed (call : SystemCall) : feedOf call.killed = feedOf call := rfl

@[simp] theorem feedOf_answered (call : SystemCall) (op : Op) (r : Except Exc op.Val)
    (next : Except Exc op.Val → Program Reply) :
    feedOf (call.answered (S := Sig) op r next) = (feedOf call).next op r := rfl

/-- The call keeps to its stream from here on. -/
abbrev Streams (call : SystemCall) : Prop :=
  Tracks Feed.ghost Task.feed Task.streaming Task.Streamed (fun _ _ _ => True) call

theorem Moves.streams {settings : Settings} {s s' : State} {action : Step}
    (streams : ∀ call ∈ s.calls, Streams call) (moves : Moves settings s action s') :
    ∀ call ∈ s'.calls, Streams call :=
  tracks_step (program_streams settings) (fun _ _ _ _ _ _ _ task _ => by cases task <;> trivial) streams moves.step

end MonkeyOcr
