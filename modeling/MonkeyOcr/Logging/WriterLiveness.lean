import MonkeyOcr.Logging.ClickHouseWriter

namespace MonkeyOcr

namespace ClickHouseWriter

variable {κ Event Err : Type}

/-! ### After the context is cancelled -/

/-- What is answered then: a fetch returns an error at once, `context.Canceled` or, if it
was `begun` before, perhaps that of its own deadline; inserts and commits return what they like. -/
def Cancelled (begun : Bool) : Answer κ Err → Prop
  | .fetched (.message _) => False
  | .fetched (.failed deadlineExceeded contextDone) => contextDone = true ∧ (deadlineExceeded = true → begun = true)
  | .go | .done _ => True

/-- Whatever is answered, `run` comes to its return. -/
inductive Returns (value : κ → List (BitVec 8)) (unmarshal : List (BitVec 8) → Except Err Event) (batchSize : Int) :
    Bool → State κ Event Err → Prop
  | returned {begun s error} (here : s.point = .returned error) : Returns value unmarshal batchSize begun s
  | next {begun s} (goes : ∃ answer s' call, Cancelled begun answer ∧ step value unmarshal batchSize s answer = some (s', call))
      (all : ∀ answer s' call, Cancelled begun answer → step value unmarshal batchSize s answer = some (s', call) →
        Returns value unmarshal batchSize false s') : Returns value unmarshal batchSize begun s

section

variable {value : κ → List (BitVec 8)} {unmarshal : List (BitVec 8) → Except Err Event} {batchSize : Int}
  {s s' : State κ Event Err} {answer : Answer κ Err} {call : Option (Call κ Event Err)} {calls : List (Call κ Event Err)}
  {site : Site} {processing : List (Message κ)} {events : List Event} {offsets : List κ} {timeout : Bool}
  {error : Option Err} {begun : Bool}

/-! Each point of the loop has one kind of answer. -/

theorem goes_head (here : s.point = .head) :
    step value unmarshal batchSize s .go = some (turn unmarshal batchSize s, none) := by
  unfold step
  rw [here]

theorem goes_fetch (here : s.point = .fetch timeout) (result : Fetched κ) :
    step value unmarshal batchSize s (.fetched result) =
      some (received value unmarshal batchSize s result, some (.fetchMessage timeout result)) := by
  unfold step
  rw [here]

theorem goes_insert (here : s.point = .insert site processing events) (error : Option Err) :
    step value unmarshal batchSize s (.done error) =
      some (match error with
        | some e => flushed site (some e) s
        | none => commit site processing s, some (.insertEvents processing events error)) := by
  cases error with
  | some e =>
    unfold step
    rw [here]
  | none =>
    unfold step
    rw [here]

theorem goes_commit (here : s.point = .commit site offsets) (error : Option Err) :
    step value unmarshal batchSize s (.done error) =
      some (processed site error s, some (.commitMessages offsets error)) := by
  unfold step
  rw [here]

theorem step_head (here : s.point = .head) (moved : step value unmarshal batchSize s answer = some (s', call)) :
    s' = turn unmarshal batchSize s := by
  unfold step at moved
  rw [here] at moved
  cases answer with
  | go =>
    cases moved
    rfl
  | fetched => cases moved
  | done => cases moved

theorem step_fetch (here : s.point = .fetch timeout) (moved : step value unmarshal batchSize s answer = some (s', call)) :
    ∃ result, answer = .fetched result ∧ s' = received value unmarshal batchSize s result := by
  unfold step at moved
  rw [here] at moved
  cases answer with
  | fetched result =>
    cases moved
    exact ⟨result, rfl, rfl⟩
  | go => cases moved
  | done => cases moved

theorem step_insert (here : s.point = .insert site processing events)
    (moved : step value unmarshal batchSize s answer = some (s', call)) :
    (∃ e, answer = .done (some e) ∧ s' = flushed site (some e) s) ∨ answer = .done none ∧ s' = commit site processing s := by
  unfold step at moved
  rw [here] at moved
  cases answer with
  | done error =>
    cases moved
    cases error with
    | some e => exact .inl ⟨e, rfl, rfl⟩
    | none => exact .inr ⟨rfl, rfl⟩
  | go => cases moved
  | fetched => cases moved

theorem step_commit (here : s.point = .commit site offsets)
    (moved : step value unmarshal batchSize s answer = some (s', call)) :
    ∃ error, answer = .done error ∧ s' = processed site error s := by
  unfold step at moved
  rw [here] at moved
  cases answer with
  | done error =>
    cases moved
    exact ⟨error, rfl, rfl⟩
  | go => cases moved
  | fetched => cases moved

/-- Where a flush leaves the loop when it does nothing more. -/
theorem flushed_point (site : Site) (error : Option Err) (s : State κ Event Err) :
    (flushed site error s).batch = s.batch ∧
      ((flushed site error s).point = .head ∧ site ≠ .shutdown ∨
        (flushed site error s).point = .returned error ∧ site = .shutdown) := by
  cases site
  · exact ⟨rfl, .inl ⟨rfl, nofun⟩⟩
  · exact ⟨rfl, .inl ⟨rfl, nofun⟩⟩
  · exact ⟨rfl, .inr ⟨rfl, rfl⟩⟩
  · exact ⟨rfl, .inl ⟨rfl, nofun⟩⟩

variable (unmarshal) in
theorem flush_point (site : Site) (s : State κ Event Err) :
    (∃ error, flush unmarshal site s = flushed site error s) ∨
      ∃ events, flush unmarshal site s = { s with point := .insert site s.batch events } := by
  unfold flush
  split
  · exact .inl ⟨none, rfl⟩
  · split
    · exact .inl ⟨_, rfl⟩
    · exact .inr ⟨_, rfl⟩

theorem commit_point (site : Site) (processing : List (Message κ)) (s : State κ Event Err) :
    commit site processing s = flushed site none { s with batch := [] } ∨
      ∃ offsets, commit site processing s = { s with point := .commit site offsets } := by
  unfold commit
  dsimp only
  split
  · exact .inl rfl
  · exact .inr ⟨_, rfl⟩

theorem Returns.flushed_shutdown (error : Option Err) (s : State κ Event Err) :
    Returns value unmarshal batchSize begun (flushed .shutdown error s) := .returned rfl

/-- The last flush ends the loop, whatever becomes of it. -/
theorem Returns.flush_shutdown (s : State κ Event Err) :
    Returns value unmarshal batchSize begun (flush unmarshal .shutdown s) := by
  have commits : ∀ {s : State κ Event Err} {offsets}, s.point = .commit .shutdown offsets →
      Returns value unmarshal batchSize false s := by
    intro s offsets here
    refine .next ⟨.done none, _, _, trivial, goes_commit here none⟩ fun answer s' call _ moved => ?_
    obtain ⟨error, -, rfl⟩ := step_commit here moved
    cases error with
    | some e => exact .flushed_shutdown _ _
    | none => exact .flushed_shutdown _ _
  rcases flush_point unmarshal .shutdown s with ⟨error, same⟩ | ⟨events, same⟩
  · rw [same]
    exact .flushed_shutdown _ _
  · have here : (flush unmarshal .shutdown s).point = .insert .shutdown s.batch events := by rw [same]
    refine .next ⟨.done none, _, _, trivial, goes_insert here none⟩ fun answer s' call _ moved => ?_
    rcases step_insert here moved with ⟨e, -, rfl⟩ | ⟨-, rfl⟩
    · exact .flushed_shutdown _ _
    · rcases commit_point .shutdown s.batch (flush unmarshal .shutdown s) with same | ⟨offsets, same⟩
      · rw [same]
        exact .flushed_shutdown _ _
      · rw [same]
        exact commits rfl

/-- A fetch of the cancelled context hears of the end. -/
theorem Returns.fetch_cancelled (here : s.point = .fetch timeout) : Returns value unmarshal batchSize false s := by
  refine .next ⟨.fetched (.failed false true), _, _, ⟨rfl, nofun⟩, goes_fetch here _⟩ fun answer s' call cancelled moved => ?_
  obtain ⟨result, rfl, rfl⟩ := step_fetch here moved
  cases result with
  | message message => exact cancelled.elim
  | failed deadlineExceeded contextDone =>
    obtain ⟨rfl, own⟩ := cancelled
    have shutdown : received value unmarshal batchSize s (.failed deadlineExceeded true) = flush unmarshal .shutdown s := by
      cases deadlineExceeded with
      | true => exact absurd (own rfl) nofun
      | false => simp [received]
    rw [shutdown]
    exact .flush_shutdown s

/-- At its head with room in the batch, the loop fetches. -/
theorem Returns.head (here : s.point = .head) (room : s.batch.length < effectiveSize batchSize) :
    Returns value unmarshal batchSize begun s := by
  refine .next ⟨.go, _, _, trivial, goes_head here⟩ fun answer s' call _ moved => ?_
  rw [step_head here moved, turn, if_neg (Nat.not_le.mpr room)]
  exact .fetch_cancelled rfl

theorem Returns.flushed (site : Site) (error : Option Err) (room : s.batch.length < effectiveSize batchSize) :
    Returns value unmarshal batchSize begun (flushed site error s) := by
  obtain ⟨same, ⟨here, -⟩ | ⟨here, -⟩⟩ := flushed_point site error s
  · exact .head here (same ▸ room)
  · exact .returned here

theorem Returns.commit (here : s.point = .commit site offsets) (room : s.batch.length < effectiveSize batchSize) :
    Returns value unmarshal batchSize begun s := by
  refine .next ⟨.done none, _, _, trivial, goes_commit here none⟩ fun answer s' call _ moved => ?_
  obtain ⟨error, -, rfl⟩ := step_commit here moved
  cases error with
  | some e => exact .flushed site _ room
  | none => exact .flushed site _ effectiveSize_pos

theorem Returns.insert (here : s.point = .insert site processing events) (room : s.batch.length < effectiveSize batchSize) :
    Returns value unmarshal batchSize begun s := by
  refine .next ⟨.done none, _, _, trivial, goes_insert here none⟩ fun answer s' call _ moved => ?_
  rcases step_insert here moved with ⟨e, -, rfl⟩ | ⟨-, rfl⟩
  · exact .flushed site _ room
  · rcases commit_point site processing s with same | ⟨offsets, same⟩
    · rw [same]
      exact .flushed site _ effectiveSize_pos
    · rw [same]
      exact .commit rfl room

theorem Returns.flush (site : Site) (room : s.batch.length < effectiveSize batchSize) :
    Returns value unmarshal batchSize begun (flush unmarshal site s) := by
  rcases flush_point unmarshal site s with ⟨error, same⟩ | ⟨events, same⟩
  · rw [same]
    exact .flushed site error room
  · rw [same]
    exact .insert rfl room

/-- A fetch that was begun before may still time out; the next one does not. -/
theorem Returns.fetch (here : s.point = .fetch timeout) (room : s.batch.length < effectiveSize batchSize) :
    Returns value unmarshal batchSize begun s := by
  refine .next ⟨.fetched (.failed false true), _, _, ⟨rfl, nofun⟩, goes_fetch here _⟩ fun answer s' call cancelled moved => ?_
  obtain ⟨result, rfl, rfl⟩ := step_fetch here moved
  cases result with
  | message message => exact cancelled.elim
  | failed deadlineExceeded contextDone =>
    obtain ⟨rfl, -⟩ := cancelled
    simp only [received]
    split
    · exact .flush .deadline room
    · exact .flush_shutdown s

/-- With room in the batch, the loop returns. -/
theorem returns_of_room (room : s.batch.length < effectiveSize batchSize) : Returns value unmarshal batchSize begun s := by
  cases here : s.point with
  | head => exact .head here room
  | fetch => exact .fetch here room
  | insert => exact .insert here room
  | commit => exact .commit here room
  | returned => exact .returned here

/-! ### A full batch -/

/-- A full batch that is being flushed, again and again. -/
structure Stuck (batchSize : Int) (s : State κ Event Err) : Prop where
  full : effectiveSize batchSize ≤ s.batch.length
  point : match s.point with
    | .head => True
    | .insert site _ _ | .commit site _ => site ≠ .shutdown
    | .fetch _ | .returned _ => False

theorem Stuck.flushed (full : effectiveSize batchSize ≤ s.batch.length) (other : site ≠ .shutdown) (error : Option Err) :
    Stuck batchSize (flushed site error s) := by
  obtain ⟨same, ⟨here, -⟩ | ⟨-, shutdown⟩⟩ := flushed_point site error s
  · refine ⟨same ▸ full, ?_⟩
    rw [here]
    trivial
  · exact absurd shutdown other

/-- An insert and a commit that fail keep the loop where it is. -/
theorem Stuck.next (e : Err) (stuck : Stuck batchSize s) : ∃ answer s' call, Cancelled begun answer ∧
    step value unmarshal batchSize s answer = some (s', call) ∧ Stuck batchSize s' := by
  obtain ⟨full, point⟩ := stuck
  cases here : s.point with
  | head =>
    refine ⟨.go, _, _, trivial, goes_head here, ?_⟩
    have other : Site.loopHead ≠ .shutdown := nofun
    rw [turn, if_pos full]
    rcases flush_point unmarshal .loopHead s with ⟨error, same⟩ | ⟨events, same⟩
    · rw [same]
      exact .flushed full other error
    · rw [same]
      exact ⟨full, other⟩
  | fetch => rw [here] at point; exact point.elim
  | insert site =>
    rw [here] at point
    exact ⟨.done (some e), _, _, trivial, goes_insert here _, .flushed full point _⟩
  | commit site =>
    rw [here] at point
    exact ⟨.done (some e), _, _, trivial, goes_commit here _, .flushed full point _⟩
  | returned => rw [here] at point; exact point.elim

theorem Stuck.not_returns (e : Err) (stuck : Stuck batchSize s) : ¬ Returns value unmarshal batchSize begun s := by
  intro returns
  induction returns with
  | returned here =>
    have point := stuck.point
    rw [here] at point
    exact point
  | next _ _ ih =>
    obtain ⟨answer, s', call, cancelled, moved, later⟩ := stuck.next e
    exact ih answer s' call cancelled moved later

/-- The loop waits for a fetch or the last flush, or has returned, only with room in its batch. -/
def Roomy (batchSize : Int) (s : State κ Event Err) : Prop :=
  match s.point with
  | .head => True
  | .insert site _ _ | .commit site _ => site = .shutdown → s.batch.length < effectiveSize batchSize
  | .fetch _ | .returned _ => s.batch.length < effectiveSize batchSize

theorem Roomy.flushed (room : site = .shutdown → s.batch.length < effectiveSize batchSize) (error : Option Err) :
    Roomy batchSize (flushed site error s) := by
  obtain ⟨same, ⟨here, -⟩ | ⟨here, shutdown⟩⟩ := flushed_point site error s
  · rw [Roomy, here]
    trivial
  · rw [Roomy, here, same]
    exact room shutdown

theorem Roomy.flush (room : site = .shutdown → s.batch.length < effectiveSize batchSize) :
    Roomy batchSize (flush unmarshal site s) := by
  rcases flush_point unmarshal site s with ⟨error, same⟩ | ⟨events, same⟩
  · rw [same]
    exact .flushed room error
  · rw [same]
    exact room

theorem Roomy.step (roomy : Roomy batchSize s) (moved : step value unmarshal batchSize s answer = some (s', call)) :
    Roomy batchSize s' := by
  rw [Roomy] at roomy
  cases here : s.point with
  | head =>
    rw [step_head here moved, turn]
    split
    · exact .flush nofun
    · rename_i room
      exact Nat.not_le.mp room
  | fetch timeout =>
    rw [here] at roomy
    obtain ⟨result, -, rfl⟩ := step_fetch here moved
    cases result with
    | failed deadlineExceeded contextDone =>
      simp only [received]
      split
      · exact .flush nofun
      · split
        · exact .flush fun _ => roomy
        · trivial
    | message message =>
      simp only [received]
      split
      · exact .flush nofun
      · trivial
  | insert site processing events =>
    rw [here] at roomy
    rcases step_insert here moved with ⟨e, -, rfl⟩ | ⟨-, rfl⟩
    · exact .flushed roomy _
    · rcases commit_point site processing s with same | ⟨offsets, same⟩
      · rw [same]
        have room : ([] : List (Message κ)).length < effectiveSize batchSize := effectiveSize_pos
        exact .flushed (fun _ => room) _
      · rw [same]
        exact roomy
  | commit site offsets =>
    rw [here] at roomy
    obtain ⟨error, -, rfl⟩ := step_commit here moved
    cases error with
    | some e => exact .flushed roomy _
    | none =>
      have room : ([] : List (Message κ)).length < effectiveSize batchSize := effectiveSize_pos
      exact .flushed (fun _ => room) _
  | returned error =>
    unfold ClickHouseWriter.step at moved
    rw [here] at moved
    cases moved

theorem Run.roomy (run : Run value unmarshal batchSize s calls) : Roomy batchSize s := by
  induction run with
  | start => trivial
  | next _ moved ih => exact ih.step moved

theorem Roomy.stuck (roomy : Roomy batchSize s) (full : effectiveSize batchSize ≤ s.batch.length) : Stuck batchSize s := by
  refine ⟨full, ?_⟩
  have wide : ¬ s.batch.length < effectiveSize batchSize := Nat.not_lt.mpr full
  rw [Roomy] at roomy
  cases here : s.point with
  | head => trivial
  | fetch => rw [here] at roomy; exact wide roomy
  | insert => rw [here] at roomy; exact fun shutdown => wide (roomy shutdown)
  | commit => rw [here] at roomy; exact fun shutdown => wide (roomy shutdown)
  | returned => rw [here] at roomy; exact wide roomy

end

/-- From a state it has reached, `run` returns after the cancellation exactly if the batch is
not full then. -/
theorem writer_stops_iff {value : κ → List (BitVec 8)} {unmarshal : List (BitVec 8) → Except Err Event} {batchSize : Int}
    [Nonempty Err] {s : State κ Event Err} {calls : List (Call κ Event Err)} (run : Run value unmarshal batchSize s calls) :
    Returns value unmarshal batchSize true s ↔ s.batch.length < effectiveSize batchSize := by
  refine ⟨fun returns => ?_, returns_of_room⟩
  obtain ⟨e⟩ := ‹Nonempty Err›
  by_contra full
  exact (run.roomy.stuck (Nat.not_lt.mp full)).not_returns e returns

/-- The first batch was committed, and the insert of the two messages after it has failed. -/
theorem writer_stops_iff_retried :
    Returns id (fun text => if text = [] then .error "invalid" else .ok text.length) 3 true
    ({ batch := [⟨[2], some [2]⟩, ⟨[3, 4], some [3, 4]⟩], point := .head } : State (List (BitVec 8)) Nat String) := by
  have run : Run id (fun text => if text = [] then .error "invalid" else .ok text.length) 3
      { batch := [⟨[2], some [2]⟩, ⟨[3, 4], some [3, 4]⟩], point := .head }
      [.fetchMessage false (.message [1]), .fetchMessage true (.failed true false),
        .insertEvents [⟨[1], some [1]⟩] [1] none, .commitMessages [[1]] none, .fetchMessage false (.message [2]),
        .fetchMessage true (.message [3, 4]), .fetchMessage true (.failed true false),
        .insertEvents [⟨[2], some [2]⟩, ⟨[3, 4], some [3, 4]⟩] [1, 2] (some "refused")] :=
    Run.start.replay (show replay _ _ _ _ _ [.go, .fetched (.message [1]), .go, .fetched (.failed true false),
      .done none, .done none, .go, .fetched (.message [2]), .go, .fetched (.message [3, 4]), .go,
      .fetched (.failed true false), .done (some "refused")] = _ from rfl)
  exact (writer_stops_iff run).mpr (by decide)

/-- One message fills the batch, its insert fails, and then the context is cancelled. -/
theorem writer_not_stops : ¬ ∀ (s : State Unit Unit String) (calls : List (Call Unit Unit String)),
    Run (fun _ => []) (fun _ => .ok ()) 1 s calls → Returns (fun _ => []) (fun _ => .ok ()) 1 true s := by
  intro all
  have run : Run (fun _ => []) (fun _ => .ok ()) 1 { batch := [⟨[], some ()⟩], point := .head }
      [.fetchMessage false (.message ()), .insertEvents [⟨[], some ()⟩] [()] (some "refused")] :=
    Run.start.replay (show replay _ _ _ _ _ [.go, .fetched (.message ()), .done (some "refused")] = _ from rfl)
  have stuck : Stuck 1 ({ batch := [⟨[], some ()⟩], point := .head } : State Unit Unit String) := ⟨by decide, trivial⟩
  exact stuck.not_returns "refused" (all _ _ run)

end ClickHouseWriter

end MonkeyOcr
