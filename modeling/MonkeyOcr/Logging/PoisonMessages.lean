import MonkeyOcr.Logging.WriterLiveness

namespace MonkeyOcr

namespace ClickHouseWriter

variable {κ Event Err : Type}

/-! ### A message that does not decode -/

/-- The inserter and the committer have always succeeded, and the context has never been cancelled. -/
def Healthy (calls : List (Call κ Event Err)) : Prop :=
  ∀ call ∈ calls, match call with
    | .fetchMessage _ (.failed _ contextDone) => contextDone = false
    | .fetchMessage _ (.message _) => True
    | .insertEvents _ _ error | .commitMessages _ error => error = none

/-- What is answered when no message comes: a fetch with a deadline returns at it, one
without waits on, and inserts and commits succeed. -/
def quiet (s : State κ Event Err) : Option (Answer κ Err) :=
  match s.point with
  | .head => some .go
  | .fetch timeout => if timeout then some (.fetched (.failed true false)) else none
  | .insert _ _ _ | .commit _ _ => some (.done none)
  | .returned _ => none

/-- After finitely many steps without a message, the batch is empty and all that decodes
has been inserted. -/
inductive Drains (value : κ → List (BitVec 8)) (unmarshal : List (BitVec 8) → Except Err Event) (batchSize : Int) :
    State κ Event Err → List (Call κ Event Err) → Prop
  | drained {s calls} (empty : s.batch = [])
      (inserted : ∀ message ∈ fetched calls, ∀ event, unmarshal (value message) = .ok event →
        Inserted unmarshal calls message) : Drains value unmarshal batchSize s calls
  | next {s s' calls answer call} (waits : quiet s = some answer)
      (moved : step value unmarshal batchSize s answer = some (s', call))
      (later : Drains value unmarshal batchSize s' (calls ++ call.toList)) : Drains value unmarshal batchSize s calls

section

variable {value : κ → List (BitVec 8)} {unmarshal : List (BitVec 8) → Except Err Event} {batchSize : Int}
  {s s' : State κ Event Err} {answer : Answer κ Err} {call : Option (Call κ Event Err)} {calls : List (Call κ Event Err)}
  {site : Site} {processing : List (Message κ)} {events : List Event} {offsets : List κ} {timeout : Bool}

theorem mapM_of_all {α β : Type} {decode : α → Except Err β} {list : List α} (all : ∀ a ∈ list, ∃ b, decode a = .ok b) :
    ∃ decoded, list.mapM decode = .ok decoded := by
  induction list with
  | nil => exact ⟨[], rfl⟩
  | cons head tail ih =>
    obtain ⟨b, here⟩ := all head List.mem_cons_self
    obtain ⟨decoded, later⟩ := ih fun a member => all a (List.mem_cons_of_mem head member)
    refine ⟨b :: decoded, ?_⟩
    rw [List.mapM_cons, here, later]
    rfl

theorem all_of_mapM {α β : Type} {decode : α → Except Err β} {list : List α} {decoded : List β}
    (mapped : list.mapM decode = .ok decoded) : ∀ a ∈ list, ∃ b, decode a = .ok b := by
  induction list generalizing decoded with
  | nil => exact nofun
  | cons head tail ih =>
    rw [List.mapM_cons] at mapped
    cases here : decode head with
    | error e =>
      rw [here] at mapped
      cases mapped
    | ok b =>
      cases later : tail.mapM decode with
      | error e =>
        rw [here, later] at mapped
        cases mapped
      | ok rest =>
        intro a member
        rcases List.mem_cons.mp member with rfl | member
        · exact ⟨b, here⟩
        · exact ih later a member

/-- What was inserted are the fetched messages, with their values. -/
theorem Run.entries (run : Run value unmarshal batchSize s calls) {error : Option Err}
    (member : .insertEvents processing events error ∈ calls) : ∃ pending : List κ, processing = pending.map (entry value) := by
  induction run with
  | start => cases member
  | @next s s' calls answer call previous moved ih =>
    rcases List.mem_append.mp member with old | new
    · exact ih old
    · obtain ⟨pending, kept⟩ := previous.kept
      have stands := kept.stands
      cases here : s.point with
      | head =>
        unfold step at moved
        rw [here] at moved
        cases answer <;> cases moved
        cases new
      | fetch =>
        obtain ⟨result, rfl, -⟩ := step_fetch here moved
        rw [goes_fetch here] at moved
        cases moved
        simp at new
      | insert site processing' events' =>
        rw [here] at stands
        have same : ∃ error, answer = .done error := by
          rcases step_insert here moved with ⟨e, rfl, -⟩ | ⟨rfl, -⟩
          · exact ⟨some e, rfl⟩
          · exact ⟨none, rfl⟩
        obtain ⟨error', rfl⟩ := same
        rw [goes_insert here] at moved
        cases moved
        cases List.mem_singleton.mp new
        exact ⟨pending, stands.2.1⟩
      | commit =>
        obtain ⟨error', rfl, -⟩ := step_commit here moved
        rw [goes_commit here] at moved
        cases moved
        simp at new
      | returned =>
        unfold step at moved
        rw [here] at moved
        cases answer <;> cases moved

/-- A message that was inserted decodes. -/
theorem Run.decodes (run : Run value unmarshal batchSize s calls) {message : κ}
    (inserted : Inserted unmarshal calls message) : ∃ event, unmarshal (value message) = .ok event := by
  obtain ⟨processing, events, member, decoded, part⟩ := inserted
  obtain ⟨pending, rfl⟩ := run.entries member
  rw [List.map_map] at part
  obtain ⟨same, among, handle⟩ := List.mem_map.mp part
  cases handle
  exact all_of_mapM decoded (entry value message) (List.mem_map_of_mem among)

/-- With an empty batch all that was fetched has been inserted. -/
theorem Run.all_inserted (run : Run value unmarshal batchSize s calls) (empty : s.batch = []) :
    ∀ message ∈ fetched calls, Inserted unmarshal calls message := by
  obtain ⟨pending, kept⟩ := run.kept
  have nothing : pending = [] := List.map_eq_nil_iff.mp (kept.batch.symm.trans empty)
  intro message member
  rw [kept.queue, nothing, List.append_nil] at member
  exact kept.stored message member

/-- What fails to decode is never given up: it keeps the batch from draining. -/
theorem Drains.decode (drains : Drains value unmarshal batchSize s calls) (run : Run value unmarshal batchSize s calls) :
    ∀ message ∈ fetched calls, ∃ event, unmarshal (value message) = .ok event := by
  induction drains with
  | drained empty =>
    intro message member
    exact run.decodes (run.all_inserted empty message member)
  | next _ moved _ ih =>
    intro message member
    apply ih (run.next moved) message
    rw [fetched_append]
    exact List.mem_append_left _ member

/-- Without a cancellation the loop does not come to the last flush. -/
def Open (s : State κ Event Err) : Prop :=
  match s.point with
  | .head | .fetch _ => True
  | .insert site _ _ | .commit site _ => site ≠ .shutdown
  | .returned _ => False

theorem Open.flushed (other : site ≠ .shutdown) (error : Option Err) : Open (flushed site error s) := by
  obtain ⟨-, ⟨here, -⟩ | ⟨-, shutdown⟩⟩ := flushed_point site error s
  · rw [Open, here]
    trivial
  · exact absurd shutdown other

theorem Open.flush (other : site ≠ .shutdown) : Open (flush unmarshal site s) := by
  rcases flush_point unmarshal site s with ⟨error, same⟩ | ⟨events, same⟩
  · rw [same]
    exact .flushed other error
  · rw [same]
    exact other

theorem Open.commit (other : site ≠ .shutdown) : Open (commit site processing s) := by
  rcases commit_point site processing s with same | ⟨offsets, same⟩
  · rw [same]
    exact .flushed other none
  · rw [same]
    exact other

theorem Run.open (run : Run value unmarshal batchSize s calls) (healthy : Healthy calls) : Open s := by
  induction run with
  | start => trivial
  | @next s s' calls answer call previous moved ih =>
    have before : Open s := ih fun call member => healthy call (List.mem_append_left _ member)
    rw [Open] at before
    cases here : s.point with
    | head =>
      rw [step_head here moved, turn]
      split
      · exact .flush (by simp)
      · trivial
    | fetch timeout =>
      obtain ⟨result, rfl, rfl⟩ := step_fetch here moved
      rw [goes_fetch here] at moved
      cases moved
      have good := healthy _ (List.mem_append_right _ (List.mem_singleton_self _))
      cases result with
      | message message =>
        simp only [received]
        split
        · exact .flush (by simp)
        · trivial
      | failed deadlineExceeded contextDone =>
        have alive : contextDone = false := good
        simp only [received, alive]
        split
        · exact .flush (by simp)
        · trivial
    | insert site =>
      rw [here] at before
      rcases step_insert here moved with ⟨e, -, rfl⟩ | ⟨-, rfl⟩
      · exact .flushed before _
      · exact .commit before
    | commit site =>
      rw [here] at before
      obtain ⟨error, -, rfl⟩ := step_commit here moved
      cases error with
      | some e => exact .flushed before _
      | none => exact .flushed before _
    | returned =>
      rw [here] at before
      exact before.elim

/-! A fetch has a deadline when there is something in the batch. -/

theorem flushed_not_fetch (site : Site) (error : Option Err) : (flushed site error s).point ≠ .fetch timeout := by
  obtain ⟨-, ⟨here, -⟩ | ⟨here, -⟩⟩ := flushed_point site error s
  · rw [here]
    exact nofun
  · rw [here]
    exact nofun

theorem flush_not_fetch (site : Site) : (flush unmarshal site s).point ≠ .fetch timeout := by
  rcases flush_point unmarshal site s with ⟨error, same⟩ | ⟨events, same⟩
  · rw [same]
    exact flushed_not_fetch site error
  · rw [same]
    exact nofun

theorem Run.timed (run : Run value unmarshal batchSize s calls) (here : s.point = .fetch timeout) :
    timeout = decide (0 < s.batch.length) := by
  cases run with
  | start => cases here
  | @next s s' calls answer call previous moved =>
    cases before : s.point with
    | head =>
      rw [step_head before moved, turn] at here ⊢
      split at here
      · exact absurd here (flush_not_fetch _)
      · rename_i room
        rw [if_neg room]
        cases here
        rfl
    | fetch =>
      obtain ⟨result, -, rfl⟩ := step_fetch before moved
      cases result with
      | message message =>
        simp only [received] at here
        split at here
        · exact absurd here (flush_not_fetch _)
        · cases here
      | failed deadlineExceeded contextDone =>
        simp only [received] at here
        split at here
        · exact absurd here (flush_not_fetch _)
        · split at here
          · exact absurd here (flush_not_fetch _)
          · cases here
    | insert site processing =>
      rcases step_insert before moved with ⟨e, -, rfl⟩ | ⟨-, rfl⟩
      · exact absurd here (flushed_not_fetch _ _)
      · rcases commit_point site processing s with same | ⟨offsets, same⟩
        · rw [same] at here
          exact absurd here (flushed_not_fetch _ _)
        · rw [same] at here
          cases here
    | commit =>
      obtain ⟨error, -, rfl⟩ := step_commit before moved
      cases error with
      | some e => exact absurd here (flushed_not_fetch _ _)
      | none => exact absurd here (flushed_not_fetch _ _)
    | returned =>
      unfold step at moved
      rw [before] at moved
      cases answer <;> cases moved

theorem Drains.empty (run : Run value unmarshal batchSize s calls) (empty : s.batch = []) :
    Drains value unmarshal batchSize s calls := by
  refine .drained empty fun message member event _ => run.all_inserted empty message member

theorem Drains.commit (run : Run value unmarshal batchSize s calls) (here : s.point = .commit site offsets) :
    Drains value unmarshal batchSize s calls := by
  have waits : quiet s = some (.done none) := by rw [quiet, here]
  have moved : step value unmarshal batchSize s (.done none) = _ := goes_commit here none
  refine .next waits moved (.empty (run.next moved) ?_)
  exact (flushed_point site none { s with batch := [] }).1

theorem Drains.insert (run : Run value unmarshal batchSize s calls) (here : s.point = .insert site processing events) :
    Drains value unmarshal batchSize s calls := by
  have waits : quiet s = some (.done none) := by rw [quiet, here]
  have moved : step value unmarshal batchSize s (.done none) = _ := goes_insert here none
  have after := run.next moved
  refine .next waits moved ?_
  rcases commit_point site processing s with same | ⟨offsets, same⟩
  · rw [same] at after
    simp only [same]
    exact .empty after (flushed_point site none { s with batch := [] }).1
  · rw [same] at after
    simp only [same]
    exact .commit after rfl

/-- A flush of a batch that decodes comes to its insert. -/
theorem flush_decoded (some : s.batch ≠ []) (decode : ∀ message ∈ s.batch, ∃ event, unmarshal message.value = .ok event)
    (site : Site) : ∃ events, (flush unmarshal site s).point = .insert site s.batch events := by
  obtain ⟨events, decoded⟩ := mapM_of_all decode
  refine ⟨events, ?_⟩
  have length : s.batch.length ≠ 0 := fun zero => some (List.length_eq_zero_iff.mp zero)
  rw [flush, if_neg length, decoded]

/-- All that waits in the batch decodes. -/
theorem Run.batch_decodes (run : Run value unmarshal batchSize s calls)
    (decode : ∀ message ∈ fetched calls, ∃ event, unmarshal (value message) = .ok event) :
    ∀ message ∈ s.batch, ∃ event, unmarshal message.value = .ok event := by
  obtain ⟨pending, kept⟩ := run.kept
  intro message member
  rw [kept.batch] at member
  obtain ⟨handle, waits, rfl⟩ := List.mem_map.mp member
  apply decode handle
  rw [kept.queue]
  exact List.mem_append_right _ waits

theorem Drains.fetch (run : Run value unmarshal batchSize s calls) (here : s.point = .fetch true)
    (decode : ∀ message ∈ fetched calls, ∃ event, unmarshal (value message) = .ok event) :
    Drains value unmarshal batchSize s calls := by
  by_cases empty : s.batch = []
  · exact .empty run empty
  · have waits : quiet s = some (.fetched (.failed true false)) := by rw [quiet, here]; rfl
    have moved : step value unmarshal batchSize s (.fetched (.failed true false)) = _ := goes_fetch here _
    have full : 0 < s.batch.length := List.length_pos_iff.mpr empty
    have flushes : received value unmarshal batchSize s (.failed true false) = flush unmarshal .deadline s := by
      rw [received, if_pos ⟨rfl, full⟩]
    obtain ⟨events, point⟩ := flush_decoded empty (run.batch_decodes decode) .deadline
    rw [flushes] at moved
    exact .next waits moved (.insert (run.next moved) point)

theorem Drains.head (run : Run value unmarshal batchSize s calls) (here : s.point = .head)
    (decode : ∀ message ∈ fetched calls, ∃ event, unmarshal (value message) = .ok event) :
    Drains value unmarshal batchSize s calls := by
  by_cases empty : s.batch = []
  · exact .empty run empty
  · have waits : quiet s = some .go := by rw [quiet, here]
    have moved : step value unmarshal batchSize s .go = _ := goes_head here
    have after := run.next moved
    refine .next waits moved ?_
    by_cases full : effectiveSize batchSize ≤ s.batch.length
    · obtain ⟨events, point⟩ := flush_decoded empty (run.batch_decodes decode) .loopHead
      rw [turn, if_pos full] at after ⊢
      exact .insert after point
    · have timed : decide (0 < s.batch.length) = true := decide_eq_true (List.length_pos_iff.mpr empty)
      refine .fetch after ?_ ?_
      · rw [turn, if_neg full, timed]
      · simpa using decode

end

/-- In a healthy run, the batch drains after the last fetch exactly if every message that was
fetched decodes. -/
theorem batch_drains_iff {value : κ → List (BitVec 8)} {unmarshal : List (BitVec 8) → Except Err Event}
    {batchSize : Int} {s : State κ Event Err} {calls : List (Call κ Event Err)}
    (run : Run value unmarshal batchSize s calls) (healthy : Healthy calls) :
    Drains value unmarshal batchSize s calls ↔
      ∀ message ∈ fetched calls, ∃ event, unmarshal (value message) = .ok event := by
  refine ⟨fun drains => drains.decode run, fun decode => ?_⟩
  cases here : s.point with
  | head => exact .head run here decode
  | fetch timeout =>
    cases timeout with
    | true => exact .fetch run here decode
    | false =>
      have none : ¬ 0 < s.batch.length := of_decide_eq_false (run.timed here).symm
      exact .empty run (List.length_eq_zero_iff.mp (by omega))
  | insert => exact .insert run here
  | commit => exact .commit run here
  | returned error =>
    have stands := run.open healthy
    rw [Open, here] at stands
    exact stands.elim

/-- One message is inserted and committed, and two more wait for their batch to fill. -/
theorem batch_drains_iff_waiting : Drains id (fun text => if text = [] then .error "invalid" else .ok text.length) 3
    ({ batch := [⟨[2], some [2]⟩, ⟨[3, 4], some [3, 4]⟩], point := .fetch true } : State (List (BitVec 8)) Nat String)
    [.fetchMessage false (.message [1]), .fetchMessage true (.failed true false),
      .insertEvents [⟨[1], some [1]⟩] [1] none, .commitMessages [[1]] none, .fetchMessage false (.message [2]),
      .fetchMessage true (.message [3, 4])] := by
  have run : Run id (fun text => if text = [] then .error "invalid" else .ok text.length) 3
      { batch := [⟨[2], some [2]⟩, ⟨[3, 4], some [3, 4]⟩], point := .fetch true }
      [.fetchMessage false (.message [1]), .fetchMessage true (.failed true false),
        .insertEvents [⟨[1], some [1]⟩] [1] none, .commitMessages [[1]] none, .fetchMessage false (.message [2]),
        .fetchMessage true (.message [3, 4])] :=
    Run.start.replay (show replay _ _ _ _ _ [.go, .fetched (.message [1]), .go, .fetched (.failed true false),
      .done none, .done none, .go, .fetched (.message [2]), .go, .fetched (.message [3, 4]), .go] = _ from rfl)
  refine (batch_drains_iff run (by simp [Healthy])).mpr ?_
  intro message member
  have known : message = [1] ∨ message = [2] ∨ message = [3, 4] := by simpa [fetched] using member
  rcases known with rfl | rfl | rfl
  · exact ⟨1, rfl⟩
  · exact ⟨1, rfl⟩
  · exact ⟨2, rfl⟩

/-- One message that does not decode stays in the batch for good. -/
theorem batch_not_drains : ¬ ∀ (s : State (List (BitVec 8)) Unit String) (calls : List (Call (List (BitVec 8)) Unit String)),
    Run id (fun text => if text = [] then .error "unexpected end of JSON input" else .ok ()) 1 s calls → Healthy calls →
      Drains id (fun text => if text = [] then .error "unexpected end of JSON input" else .ok ()) 1 s calls := by
  intro all
  have run : Run id (fun text => if text = [] then .error "unexpected end of JSON input" else .ok ()) 1
      { batch := [⟨[], some []⟩], point := .head } [.fetchMessage false (.message [])] :=
    Run.start.replay (show replay _ _ _ _ _ [.go, .fetched (.message [])] = _ from rfl)
  have healthy : Healthy [(.fetchMessage false (.message []) : Call (List (BitVec 8)) Unit String)] := by
    intro call member
    rw [List.mem_singleton.mp member]
    trivial
  obtain ⟨event, decoded⟩ := (all _ _ run healthy).decode run [] (List.mem_singleton_self _)
  cases decoded

end ClickHouseWriter

end MonkeyOcr
