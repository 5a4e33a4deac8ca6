import Mathlib.Data.List.Basic

namespace MonkeyOcr

namespace ClickHouseWriter

/-- `κ` are the messages of the Kafka client, `Event` the decoded events and
`Err` the errors of the calls. -/
structure Message (κ : Type) where
  value : List (BitVec 8)
  handle : Option κ

/-- Where `flush` is called from. -/
inductive Site where
  | loopHead
  | deadline
  | shutdown
  | appended
  deriving DecidableEq

/-- What the loop waits for. The batch of a flush is `processing`. -/
inductive Point (κ Event Err : Type) where
  | head
  | fetch (timeout : Bool)
  | insert (site : Site) (processing : List (Message κ)) (events : List Event)
  | commit (site : Site) (offsets : List κ)
  | returned (error : Option Err)

structure State (κ Event Err : Type) where
  batch : List (Message κ)
  point : Point κ Event Err

/-- What `FetchMessage` returns: a message, or an error for which `errors.Is(err,
context.DeadlineExceeded)` and `ctx.Err() != nil` may each hold or not. -/
inductive Fetched (κ : Type) where
  | message (message : κ)
  | failed (deadlineExceeded contextDone : Bool)

/-- A call of the loop with what it returned. -/
inductive Call (κ Event Err : Type) where
  | fetchMessage (timeout : Bool) (result : Fetched κ)
  | insertEvents (processing : List (Message κ)) (events : List Event) (error : Option Err)
  | commitMessages (offsets : List κ) (error : Option Err)

inductive Answer (κ Err : Type) where
  | go
  | fetched (result : Fetched κ)
  | done (error : Option Err)

section

variable {κ Event Err : Type} (value : κ → List (BitVec 8)) (unmarshal : List (BitVec 8) → Except Err Event)
  (batchSize : Int)

/-- `if batchSize <= 0 { batchSize = 500 }` -/
def effectiveSize : Nat := if batchSize ≤ 0 then 500 else batchSize.toNat

/-- What each caller of `flush` does with its result. -/
def flushed (site : Site) (error : Option Err) (s : State κ Event Err) : State κ Event Err :=
  match site with
  | .shutdown => { s with point := .returned error }
  | _ => { s with point := .head }

/-- `flush` and `ProcessBatch`, up to the insert. -/
def flush (site : Site) (s : State κ Event Err) : State κ Event Err :=
  if s.batch.length = 0 then flushed site none s
  else
    match s.batch.mapM fun message => unmarshal message.value with
    | .error e => flushed site (some e) s
    | .ok events => { s with point := .insert site s.batch events }

/-- `flush` after `ProcessBatch` has returned. -/
def processed (site : Site) (error : Option Err) (s : State κ Event Err) : State κ Event Err :=
  match error with
  | some e => flushed site (some e) s
  | none => flushed site none { s with batch := [] }

/-- `kafkaCommitter.Commit`, up to the call of `CommitMessages`. -/
def commit (site : Site) (processing : List (Message κ)) (s : State κ Event Err) : State κ Event Err :=
  let kafkaMessages := processing.filterMap (·.handle)
  if kafkaMessages.length = 0 then processed site none s else { s with point := .commit site kafkaMessages }

/-- The loop from its head to the next call. -/
def turn (s : State κ Event Err) : State κ Event Err :=
  if effectiveSize batchSize ≤ s.batch.length then flush unmarshal .loopHead s
  else { s with point := .fetch (0 < s.batch.length) }

/-- The loop after `FetchMessage`. -/
def received (s : State κ Event Err) : Fetched κ → State κ Event Err
  | .failed deadlineExceeded contextDone =>
    if deadlineExceeded ∧ 0 < s.batch.length then flush unmarshal .deadline s
    else if contextDone then flush unmarshal .shutdown s
    else { s with point := .head }
  | .message message =>
    let s : State κ Event Err := { s with batch := s.batch ++ [{ value := value message, handle := some message }] }
    if effectiveSize batchSize ≤ s.batch.length then flush unmarshal .appended s else { s with point := .head }

/-- One step of `run`: to the next call, or on from what a call returned. -/
def step (s : State κ Event Err) (answer : Answer κ Err) : Option (State κ Event Err × Option (Call κ Event Err)) :=
  match s.point, answer with
  | .head, .go => some (turn unmarshal batchSize s, none)
  | .fetch timeout, .fetched result =>
    some (received value unmarshal batchSize s result, some (.fetchMessage timeout result))
  | .insert site processing events, .done error =>
    let s := match error with
      | some e => flushed site (some e) s
      | none => commit site processing s
    some (s, some (.insertEvents processing events error))
  | .commit site offsets, .done error => some (processed site error s, some (.commitMessages offsets error))
  | _, _ => none

/-- A state that `run` reaches, and the calls it has made until then. -/
inductive Run : State κ Event Err → List (Call κ Event Err) → Prop where
  | start : Run { batch := [], point := .head } []
  | next {s s' calls answer call} : Run s calls → step value unmarshal batchSize s answer = some (s', call) →
      Run s' (calls ++ call.toList)

/-- The state and the calls after these answers. -/
def replay (s : State κ Event Err) (calls : List (Call κ Event Err)) :
    List (Answer κ Err) → Option (State κ Event Err × List (Call κ Event Err))
  | [] => some (s, calls)
  | answer :: rest =>
    (step value unmarshal batchSize s answer).bind fun (s, call) => replay s (calls ++ call.toList) rest

end

section

variable {κ Event Err : Type}

/-- The messages that were fetched, in order. -/
def fetched (calls : List (Call κ Event Err)) : List κ := calls.filterMap fun
  | .fetchMessage _ (.message message) => some message
  | _ => none

/-- The messages whose commit succeeded, in the order of the commits. -/
def committed (calls : List (Call κ Event Err)) : List κ := calls.flatMap fun
  | .commitMessages offsets none => offsets
  | _ => []

/-- The message was part of an insert that succeeded, of the events of a batch. -/
def Inserted (unmarshal : List (BitVec 8) → Except Err Event) (calls : List (Call κ Event Err)) (message : κ) : Prop :=
  ∃ processing events, .insertEvents processing events none ∈ calls ∧
    processing.mapM (fun message => unmarshal message.value) = .ok events ∧ some message ∈ processing.map (·.handle)

theorem fetched_append (calls more : List (Call κ Event Err)) : fetched (calls ++ more) = fetched calls ++ fetched more :=
  List.filterMap_append

theorem committed_append (calls more : List (Call κ Event Err)) :
    committed (calls ++ more) = committed calls ++ committed more :=
  List.flatMap_append

theorem Inserted.mono {unmarshal : List (BitVec 8) → Except Err Event} {calls : List (Call κ Event Err)} {message : κ}
    (inserted : Inserted unmarshal calls message) (more : List (Call κ Event Err)) :
    Inserted unmarshal (calls ++ more) message := by
  obtain ⟨processing, events, call, decoded, part⟩ := inserted
  exact ⟨processing, events, List.mem_append_left more call, decoded, part⟩

variable (value : κ → List (BitVec 8)) (unmarshal : List (BitVec 8) → Except Err Event) (batchSize : Int)

/-- The element of the batch for a fetched message. -/
def entry (message : κ) : Message κ := { value := value message, handle := some message }

/-- What holds where the loop stands, with these messages in its batch. -/
def Stands (calls : List (Call κ Event Err)) (pending : List κ) : Point κ Event Err → Prop
  | .head => True
  | .returned _ => True
  | .fetch _ => pending.length < effectiveSize batchSize
  | .insert _ processing events =>
    pending ≠ [] ∧ processing = pending.map (entry value) ∧
      processing.mapM (fun message => unmarshal message.value) = .ok events
  | .commit _ offsets => offsets = pending ∧ ∀ message ∈ pending, Inserted unmarshal calls message

/-- A call of `CommitMessages` names what is left of the fetched messages, and every
message fetched before it was inserted. -/
def CommitsInserted (calls : List (Call κ Event Err)) : Prop :=
  ∀ before offsets error after, calls = before ++ .commitMessages offsets error :: after →
    fetched before = committed before ++ offsets ∧ ∀ message ∈ fetched before, Inserted unmarshal before message

structure Kept (s : State κ Event Err) (calls : List (Call κ Event Err)) (pending : List κ) : Prop where
  batch : s.batch = pending.map (entry value)
  queue : fetched calls = committed calls ++ pending
  small : pending.length ≤ effectiveSize batchSize
  stored : ∀ message ∈ committed calls, Inserted unmarshal calls message
  stands : Stands value unmarshal batchSize calls pending s.point
  commits : CommitsInserted unmarshal calls

variable {value unmarshal batchSize}

theorem effectiveSize_pos : 0 < effectiveSize batchSize := by
  unfold effectiveSize
  split <;> omega

/-- All that `flush` does before its first call. -/
theorem flush_cases (site : Site) (s : State κ Event Err) (calls : List (Call κ Event Err)) {pending : List κ}
    (batch : s.batch = pending.map (entry value)) :
    (flush unmarshal site s).batch = s.batch ∧
      Stands value unmarshal batchSize calls pending (flush unmarshal site s).point := by
  unfold flush
  split
  · cases site <;> exact ⟨rfl, trivial⟩
  · rename_i nonempty
    split
    · cases site <;> exact ⟨rfl, trivial⟩
    · rename_i events decoded
      refine ⟨rfl, ?_, batch, decoded⟩
      intro empty
      simp [batch, empty] at nonempty

theorem Kept.flush {s : State κ Event Err} {calls : List (Call κ Event Err)} {pending : List κ} (site : Site)
    (kept : Kept value unmarshal batchSize s calls pending) :
    Kept value unmarshal batchSize (flush unmarshal site s) calls pending := by
  obtain ⟨same, stands⟩ : (ClickHouseWriter.flush unmarshal site s).batch = s.batch ∧
      Stands value unmarshal batchSize calls pending (ClickHouseWriter.flush unmarshal site s).point :=
    flush_cases site s calls kept.batch
  exact ⟨same.trans kept.batch, kept.queue, kept.small, kept.stored, stands, kept.commits⟩

/-- The last call is the one to look at: it is no commit, or it is as it should be. -/
theorem CommitsInserted.append {calls : List (Call κ Event Err)} (commits : CommitsInserted unmarshal calls)
    {last : Call κ Event Err} (good : ∀ offsets error, last = .commitMessages offsets error →
      fetched calls = committed calls ++ offsets ∧ ∀ message ∈ fetched calls, Inserted unmarshal calls message) :
    CommitsInserted unmarshal (calls ++ [last]) := by
  intro before offsets error after split
  rcases List.eq_nil_or_concat after with rfl | ⟨middle, c, rfl⟩
  · obtain ⟨same, call⟩ := List.append_inj' split rfl
    subst same
    exact good offsets error (List.head_eq_of_cons_eq call)
  · rw [List.concat_eq_append, ← List.cons_append, ← List.append_assoc] at split
    obtain ⟨same, _⟩ := List.append_inj' split rfl
    exact commits before offsets error middle same

/-- A call that neither fetches nor commits anything. -/
theorem Kept.quiet {s s' : State κ Event Err} {calls : List (Call κ Event Err)} {pending : List κ}
    {call : Call κ Event Err} (kept : Kept value unmarshal batchSize s calls pending)
    (nothing : fetched [call] = [] ∧ committed [call] = [])
    (commits : CommitsInserted unmarshal (calls ++ [call])) (same : s'.batch = s.batch)
    (stands : Stands value unmarshal batchSize (calls ++ [call]) pending s'.point) :
    Kept value unmarshal batchSize s' (calls ++ [call]) pending where
  batch := same.trans kept.batch
  queue := by rw [fetched_append, committed_append, nothing.1, nothing.2, kept.queue]; simp
  small := kept.small
  stored message member := by
    rw [committed_append, nothing.2, List.append_nil] at member
    exact (kept.stored message member).mono [call]
  stands := stands
  commits := commits

theorem filterMap_handle_entry (pending : List κ) : (pending.map (entry value)).filterMap (·.handle) = pending := by
  rw [List.filterMap_map]
  exact List.filterMap_some

theorem Kept.turn {s : State κ Event Err} {calls : List (Call κ Event Err)} {pending : List κ}
    (kept : Kept value unmarshal batchSize s calls pending) :
    Kept value unmarshal batchSize (turn unmarshal batchSize s) calls pending := by
  unfold ClickHouseWriter.turn
  split
  · exact kept.flush .loopHead
  · rename_i room
    refine ⟨kept.batch, kept.queue, kept.small, kept.stored, ?_, kept.commits⟩
    rw [kept.batch, List.length_map] at room
    exact Nat.lt_of_not_le room

theorem Kept.received {s : State κ Event Err} {calls : List (Call κ Event Err)} {pending : List κ} {timeout : Bool}
    (kept : Kept value unmarshal batchSize s calls pending) (waits : s.point = .fetch timeout) (result : Fetched κ) :
    ∃ pending', Kept value unmarshal batchSize (received value unmarshal batchSize s result)
      (calls ++ [.fetchMessage timeout result]) pending' := by
  have commits : CommitsInserted unmarshal (calls ++ [.fetchMessage timeout result]) :=
    kept.commits.append fun offsets error same => by cases same
  have stands := kept.stands
  rw [waits] at stands
  cases result with
  | failed deadlineExceeded contextDone =>
    refine ⟨pending, ?_⟩
    have head : Kept value unmarshal batchSize { s with point := .head }
        (calls ++ [.fetchMessage timeout (.failed deadlineExceeded contextDone)]) pending :=
      kept.quiet ⟨rfl, rfl⟩ commits rfl trivial
    unfold ClickHouseWriter.received
    simp only
    split
    · exact head.flush .deadline
    · split
      · exact head.flush .shutdown
      · exact head
  | message message =>
    refine ⟨pending ++ [message], ?_⟩
    have appended : Kept value unmarshal batchSize
        { batch := s.batch ++ [{ value := value message, handle := some message }], point := .head }
        (calls ++ [.fetchMessage timeout (.message message)]) (pending ++ [message]) := by
      refine ⟨by simp [kept.batch, entry], ?_, ?_, ?_, trivial, commits⟩
      · rw [fetched_append, committed_append, kept.queue]
        change committed calls ++ pending ++ [message] = committed calls ++ [] ++ (pending ++ [message])
        rw [List.append_nil, List.append_assoc]
      · have room : pending.length < effectiveSize batchSize := stands
        rw [List.length_append, List.length_singleton]
        omega
      · intro old member
        rw [committed_append] at member
        have stored := kept.stored old (by simpa [committed] using member)
        exact stored.mono _
    unfold ClickHouseWriter.received
    simp only
    split
    · exact appended.flush .appended
    · exact appended

theorem Kept.inserted {s : State κ Event Err} {calls : List (Call κ Event Err)} {pending : List κ} {site : Site}
    {processing : List (Message κ)} {events : List Event} (kept : Kept value unmarshal batchSize s calls pending)
    (waits : s.point = .insert site processing events) (error : Option Err) :
    Kept value unmarshal batchSize
      (match error with
        | some e => flushed site (some e) s
        | none => commit site processing s)
      (calls ++ [.insertEvents processing events error]) pending := by
  have commits : CommitsInserted unmarshal (calls ++ [.insertEvents processing events error]) :=
    kept.commits.append fun offsets error same => by cases same
  have stands := kept.stands
  rw [waits] at stands
  obtain ⟨nonempty, whole, decoded⟩ := stands
  cases error with
  | some e => cases site <;> exact kept.quiet ⟨rfl, rfl⟩ commits rfl trivial
  | none =>
    have offsets : processing.filterMap (·.handle) = pending := by rw [whole, filterMap_handle_entry]
    have some' : pending.length ≠ 0 := by rwa [Ne, List.length_eq_zero_iff]
    simp only [commit, offsets, some', if_false]
    refine kept.quiet ⟨rfl, rfl⟩ commits rfl ⟨rfl, ?_⟩
    intro message member
    refine ⟨processing, events, List.mem_append_right calls (List.mem_singleton_self _), decoded, ?_⟩
    rw [whole, List.map_map]
    exact List.mem_map.mpr ⟨message, member, rfl⟩

theorem Kept.committed {s : State κ Event Err} {calls : List (Call κ Event Err)} {pending : List κ} {site : Site}
    {offsets : List κ} (kept : Kept value unmarshal batchSize s calls pending)
    (waits : s.point = .commit site offsets) (error : Option Err) :
    ∃ pending', Kept value unmarshal batchSize (processed site error s) (calls ++ [.commitMessages offsets error])
      pending' := by
  have stands := kept.stands
  rw [waits] at stands
  obtain ⟨rfl, inserted⟩ := stands
  have all : ∀ message ∈ fetched calls, Inserted unmarshal calls message := by
    intro message member
    rw [kept.queue] at member
    exact (List.mem_append.mp member).elim (kept.stored message) (inserted message)
  have commits : CommitsInserted unmarshal (calls ++ [.commitMessages offsets error]) := by
    apply kept.commits.append
    intro named result same
    cases same
    exact ⟨kept.queue, all⟩
  cases error with
  | some e =>
    refine ⟨offsets, ?_⟩
    cases site <;> exact kept.quiet ⟨rfl, rfl⟩ commits rfl trivial
  | none =>
    refine ⟨[], ?_⟩
    have now : ClickHouseWriter.committed (calls ++ [.commitMessages offsets none]) = fetched calls := by
      rw [committed_append, kept.queue]
      simp [ClickHouseWriter.committed]
    have sameFetched : fetched (calls ++ [.commitMessages offsets none]) = fetched calls := by
      rw [fetched_append]
      exact List.append_nil _
    have stored : ∀ message ∈ ClickHouseWriter.committed (calls ++ [.commitMessages offsets none]),
        Inserted unmarshal (calls ++ [.commitMessages offsets none]) message := by
      intro message member
      rw [now] at member
      exact (all message member).mono _
    have queue := sameFetched.trans (now.symm.trans (List.append_nil _).symm)
    cases site <;> exact ⟨rfl, queue, Nat.zero_le _, stored, trivial, commits⟩

theorem Run.replay {s s' : State κ Event Err} {calls calls' : List (Call κ Event Err)} {answers : List (Answer κ Err)}
    (run : Run value unmarshal batchSize s calls)
    (all : replay value unmarshal batchSize s calls answers = some (s', calls')) :
    Run value unmarshal batchSize s' calls' := by
  induction answers generalizing s calls with
  | nil => cases all; exact run
  | cons answer rest ih =>
    obtain ⟨⟨middle, call⟩, moved, later⟩ := Option.bind_eq_some_iff.mp all
    exact ih (run.next moved) later

theorem Run.kept {s : State κ Event Err} {calls : List (Call κ Event Err)}
    (run : Run value unmarshal batchSize s calls) : ∃ pending, Kept value unmarshal batchSize s calls pending := by
  induction run with
  | start =>
    refine ⟨[], rfl, rfl, Nat.zero_le _, by simp [committed], trivial, ?_⟩
    intro before offsets error after split
    simp at split
  | @next s s' calls answer call previous moved ih =>
    obtain ⟨pending, kept⟩ := ih
    unfold step at moved
    split at moved
    · cases moved
      exact ⟨pending, by simpa using kept.turn⟩
    · rename_i timeout result waits
      cases moved
      exact kept.received waits result
    · rename_i site processing events error waits
      cases moved
      exact ⟨pending, kept.inserted waits error⟩
    · rename_i site offsets error waits
      cases moved
      exact kept.committed waits error
    · cases moved

/-- In every run of the loop, whatever its calls return: a commit names only messages
that were inserted, as all messages fetched before them were; the batch is what was
fetched and not committed, in the order of the fetches; and it is never too long. -/
theorem writer_commits_inserted (value : κ → List (BitVec 8)) (unmarshal : List (BitVec 8) → Except Err Event)
    (batchSize : Int) {s : State κ Event Err} {calls : List (Call κ Event Err)}
    (run : Run value unmarshal batchSize s calls) :
    CommitsInserted unmarshal calls ∧
      (∃ pending, fetched calls = committed calls ++ pending ∧ s.batch = pending.map (entry value)) ∧
      s.batch.length ≤ effectiveSize batchSize := by
  obtain ⟨pending, kept⟩ := run.kept
  refine ⟨kept.commits, ⟨pending, kept.queue, kept.batch⟩, ?_⟩
  rw [kept.batch, List.length_map]
  exact kept.small

/-- With one message to a batch: an insert that fails, then one that succeeds and
whose commit fails, then both succeed. -/
theorem writer_commits_inserted_retried :
    let calls : List (Call (BitVec 8) (List (BitVec 8)) String) := [
      .fetchMessage false (.message 7), .insertEvents [entry ([·]) 7] [[7]] (some "refused"),
      .insertEvents [entry ([·]) 7] [[7]] none, .commitMessages [7] (some "rebalance"),
      .insertEvents [entry ([·]) 7] [[7]] none, .commitMessages [7] none]
    CommitsInserted (Except.ok (ε := String)) calls ∧ fetched calls = committed calls := by
  intro calls
  have all : replay ([·]) (Except.ok (ε := String)) 1 { batch := [], point := .head } [] [.go, .fetched (.message 7),
      .done (some "refused"), .go, .done none, .done (some "rebalance"), .go, .done none, .done none] =
    some ({ batch := [], point := .head }, calls) := rfl
  have run : Run ([·]) (Except.ok (ε := String)) 1 { batch := [], point := .head } calls :=
    Run.replay .start all
  have inserted := writer_commits_inserted ([·]) Except.ok 1 run
  refine ⟨inserted.1, ?_⟩
  obtain ⟨pending, queue, batch⟩ := inserted.2.1
  rw [List.map_eq_nil_iff.mp batch.symm, List.append_nil] at queue
  exact queue

end

end ClickHouseWriter

end MonkeyOcr
