import Mathlib.Data.Finset.Basic
import Mathlib.Data.Rat.Defs
import Mathlib.Algebra.Order.Field.Rat

namespace MonkeyOcr

namespace ConsumerPolls

/-- The partitions that the Kafka consumer has, and those of them that are paused. -/
structure Consumer (P : Type) where
  assigned : Finset P
  paused : Finset P
  paused_assigned : paused ⊆ assigned

/-- A change of the assignment: what is revoked is no longer paused, also if it comes back
in the same change. -/
structure Change (P : Type) where
  revoked : Finset P
  added : Finset P

/-- What can be raised, by the class that the helper tells apart. -/
inductive Raised (E : Type) where
  | timeoutError (error : E)
  | cancelledError
  | runtimeError (text : String)
  | valueError (text : String)
  | other (error : E)

abbrev Outcome (T E : Type) := Except (Raised E) T

/-- The await at which the helper stands: `wait_for`, `getmany`, or `gather` in its `finally`. -/
inductive Point (T E : Type) where
  | waiting
  | polling
  | cleanup (result : Outcome T E)
  | exited (result : Outcome T E)

/-- `operation` is the outcome of the operation's task when it is done. -/
structure State (P T E : Type) where
  consumer : Consumer P
  operation : Option (Outcome T E)
  pausedByHelper : Finset P
  point : Point T E

/-- How an await ends. A cancellation comes out of `gather` when the operation is done. -/
inductive Resumed (R P E : Type) where
  | woke
  | expired
  | polled (records : List (P × List R))
  | failed (error : Raised E)
  | cancelled

/-- All that happens during one await of the helper. -/
structure Answer (R P T E : Type) where
  changes : List (Change P)
  ended : Option (Outcome T E)
  resumed : Resumed R P E

/-- A change of the assignment, a poll with the consumer as it then was, and a cancellation
in the `finally` with the partitions that were still to be resumed. -/
inductive Event (P : Type) where
  | rebalance (change : Change P)
  | getmany (consumer : Consumer P)
  | interrupted (resumable : Finset P)

section

variable {R P T E : Type} [DecidableEq P]

def Consumer.pause (consumer : Consumer P) (partitions : Finset P) (within : partitions ⊆ consumer.assigned) :
    Consumer P :=
  { consumer with
    paused := consumer.paused ∪ partitions
    paused_assigned := Finset.union_subset consumer.paused_assigned within }

def Consumer.resume (consumer : Consumer P) (partitions : Finset P) : Consumer P :=
  { consumer with
    paused := consumer.paused \ partitions
    paused_assigned := Finset.sdiff_subset.trans consumer.paused_assigned }

def Consumer.rebalance (consumer : Consumer P) (change : Change P) : Consumer P where
  assigned := (consumer.assigned \ change.revoked) ∪ change.added
  paused := consumer.paused \ change.revoked
  paused_assigned :=
    (Finset.sdiff_subset_sdiff consumer.paused_assigned subset_rfl).trans Finset.subset_union_left

def pauseCurrentAssignment (s : State P T E) : State P T E :=
  let toPause := s.consumer.assigned \ s.consumer.paused
  { s with
    consumer := s.consumer.pause toPause Finset.sdiff_subset
    pausedByHelper := s.pausedByHelper ∪ toPause }

def resumable (s : State P T E) : Finset P := s.pausedByHelper ∩ s.consumer.assigned ∩ s.consumer.paused

/-- The end of the `finally`. -/
def finish (result : Outcome T E) (s : State P T E) : State P T E :=
  { s with
    consumer := s.consumer.resume (resumable s)
    point := .exited result }

/-- The `finally`, up to its await if the operation has to be cancelled. -/
def leave (result : Outcome T E) (s : State P T E) : State P T E :=
  if s.operation.isSome then finish result s else { s with point := .cleanup result }

/-- `except TimeoutError:`, up to the poll. -/
def keepalive (s : State P T E) : State P T E × List (Event P) :=
  let s := pauseCurrentAssignment s
  ({ s with point := .polling }, [.getmany s.consumer])

/-- What `wait_for` returns or raises for an operation that is done. -/
def settle (outcome : Outcome T E) (s : State P T E) : State P T E × List (Event P) :=
  match outcome with
  | .error (.timeoutError _) => keepalive s
  | outcome => (leave outcome s, [])

/-- The head of the loop: a task that is done is not waited for. -/
def wait (s : State P T E) : State P T E × List (Event P) :=
  match s.operation with
  | some outcome => settle outcome s
  | none => ({ s with point := .waiting }, [])

def start (pollIntervalSeconds : ℚ) (consumer : Consumer P) (operation : Option (Outcome T E)) :
    Except (Raised E) (State P T E × List (Event P)) :=
  if pollIntervalSeconds ≤ 0 then .error (.valueError "poll_interval_seconds must be positive")
  else .ok (wait (pauseCurrentAssignment
    { consumer := consumer, operation := operation, pausedByHelper := ∅, point := .waiting }))

/-- `any(records.values())` -/
def anyRecords (records : List (P × List R)) : Bool := records.any fun (_, values) => !values.isEmpty

/-- The helper from the end of an await to its next one. -/
def proceed (s : State P T E) (resumed : Resumed R P E) : Option (State P T E × List (Event P)) :=
  match s.point, resumed with
  | .waiting, .woke => s.operation.map fun outcome => settle outcome s
  | .waiting, .expired => some (keepalive s)
  | .waiting, .cancelled => some (leave (.error .cancelledError) s, [])
  | .polling, .polled records =>
    some (if anyRecords records then
      (leave (.error (.runtimeError "safe Kafka poll returned records while work was in progress")) s, [])
    else wait s)
  | .polling, .failed error => some (leave (.error error) s, [])
  | .polling, .cancelled => some (leave (.error .cancelledError) s, [])
  | .cleanup result, .woke => s.operation.map fun _ => (finish result s, [])
  | .cleanup _, .cancelled =>
    -- `gather` raises in the `finally`, and what follows it is not reached.
    s.operation.map fun _ => ({ s with point := .exited (.error .cancelledError) }, [.interrupted (resumable s)])
  | _, _ => none

/-- What happens meanwhile, to the consumer and the operation. -/
def during (s : State P T E) (answer : Answer R P T E) : State P T E :=
  { s with
    consumer := answer.changes.foldl Consumer.rebalance s.consumer
    operation := s.operation <|> answer.ended }

def step (s : State P T E) (answer : Answer R P T E) : Option (State P T E × List (Event P)) :=
  (proceed (during s answer) answer.resumed).map fun (s', events) => (s', answer.changes.map .rebalance ++ events)

/-- A state that the helper reaches through such answers, and what has happened until then. -/
inductive Run (allowed : Answer R P T E → Prop) (pollIntervalSeconds : ℚ) (entry : Consumer P)
    (operation : Option (Outcome T E)) : State P T E → List (Event P) → Prop
  | start {s events} (began : start pollIntervalSeconds entry operation = .ok (s, events)) :
    Run allowed pollIntervalSeconds entry operation s events
  | next {s s' trace answer events} (previous : Run allowed pollIntervalSeconds entry operation s trace)
      (good : allowed answer) (moved : step s answer = some (s', events)) :
    Run allowed pollIntervalSeconds entry operation s' (trace ++ events)

/-- The state after these answers. -/
def replay (s : State P T E) (trace : List (Event P)) :
    List (Answer R P T E) → Option (State P T E × List (Event P))
  | [] => some (s, trace)
  | answer :: rest => (step s answer).bind fun (s', events) => replay s' (trace ++ events) rest

theorem Run.replay {allowed : Answer R P T E → Prop} {pollIntervalSeconds : ℚ} {entry : Consumer P}
    {operation : Option (Outcome T E)} {s s' : State P T E} {trace trace' : List (Event P)}
    {answers : List (Answer R P T E)} (run : Run allowed pollIntervalSeconds entry operation s trace)
    (good : ∀ answer ∈ answers, allowed answer) (all : replay s trace answers = some (s', trace')) :
    Run allowed pollIntervalSeconds entry operation s' trace' := by
  induction answers generalizing s trace with
  | nil => cases all; exact run
  | cons answer rest ih =>
    obtain ⟨⟨middle, events⟩, moved, later⟩ := Option.bind_eq_some_iff.mp all
    have next := run.next (good answer List.mem_cons_self) moved
    exact ih next (fun other member => good other (List.mem_cons_of_mem answer member)) later

/-- A keepalive poll neither fails nor returns a record, and nobody cancels the helper. -/
def Resumed.Quiet : Resumed R P E → Prop
  | .woke | .expired => True
  | .polled records => anyRecords records = false
  | .failed _ | .cancelled => False

instance : (resumed : Resumed R P E) → Decidable resumed.Quiet
  | .woke | .expired => .isTrue trivial
  | .polled records => inferInstanceAs (Decidable (anyRecords records = false))
  | .failed _ | .cancelled => .isFalse id

/-- The helper ends with this outcome after finitely many awaits, whatever they bring. -/
inductive Passes (R : Type) (outcome : Outcome T E) : State P T E → Prop
  | exited {s} (here : s.point = .exited outcome) : Passes R outcome s
  | next {s} (goes : ∃ (answer : Answer R P T E) (s' : State P T E) (events : List (Event P)),
        answer.resumed.Quiet ∧ step s answer = some (s', events))
      (all : ∀ (answer : Answer R P T E) s' events, answer.resumed.Quiet → step s answer = some (s', events) →
        Passes R outcome s') : Passes R outcome s

variable {s s' : State P T E} {answer : Answer R P T E} {events : List (Event P)} {outcome result : Outcome T E}

/-- The six ways on from an await. -/
inductive Proceeded (s : State P T E) (resumed : Resumed R P E) : State P T E → List (Event P) → Prop
  | woke {outcome : Outcome T E} (here : s.point = .waiting) (ended : s.operation = some outcome) :
    Proceeded s resumed (settle outcome s).1 (settle outcome s).2
  | expired (here : s.point = .waiting) : Proceeded s resumed (keepalive s).1 (keepalive s).2
  | left {result : Outcome T E} (here : s.point = .waiting ∨ s.point = .polling) (loud : ¬ resumed.Quiet) :
    Proceeded s resumed (leave result s) []
  | polled (here : s.point = .polling) : Proceeded s resumed (wait s).1 (wait s).2
  | finished {result : Outcome T E} (here : s.point = .cleanup result) (ended : s.operation.isSome) :
    Proceeded s resumed (finish result s) []
  | interrupted {result : Outcome T E} (here : s.point = .cleanup result) (ended : s.operation.isSome) :
    Proceeded s resumed { s with point := .exited (.error .cancelledError) } [.interrupted (resumable s)]

theorem proceeded_of_proceed {resumed : Resumed R P E} (went : proceed s resumed = some (s', events)) :
    Proceeded s resumed s' events := by
  unfold proceed at went
  split at went
  · rename_i here
    obtain ⟨outcome, ended, same⟩ := Option.map_eq_some_iff.mp went
    have woke : Proceeded s (.woke : Resumed R P E) _ _ := .woke here ended
    rw [same] at woke
    exact woke
  · rename_i here
    cases went
    exact .expired here
  · rename_i here
    cases went
    exact .left (.inl here) nofun
  · rename_i records here
    split at went
    · rename_i some
      cases went
      exact .left (.inr here) fun none => Bool.false_ne_true (Eq.trans (Eq.symm none) some)
    · have polled : Proceeded s (.polled records) _ _ := .polled here
      rw [Option.some.inj went] at polled
      exact polled
  · rename_i here
    cases went
    exact .left (.inr here) nofun
  · rename_i here
    cases went
    exact .left (.inr here) nofun
  · rename_i result here
    obtain ⟨outcome, ended, same⟩ := Option.map_eq_some_iff.mp went
    cases same
    exact .finished here (Option.isSome_of_eq_some ended)
  · rename_i result here
    obtain ⟨outcome, ended, same⟩ := Option.map_eq_some_iff.mp went
    cases same
    exact .interrupted here (Option.isSome_of_eq_some ended)
  · cases went

/-! ### While nothing is wrong with the polls -/

/-- Where the helper stands in a quiet run. -/
def Settled (s : State P T E) : Prop :=
  match s.point with
  | .waiting => s.operation = none
  | .polling => True
  | .cleanup _ => False
  | .exited result => s.operation = some result ∧ ∀ error, result ≠ .error (.timeoutError error)

/-- An operation that is done ends the helper, unless by a time-out. -/
theorem settle_of_not_timeout (other : ∀ error, outcome ≠ .error (.timeoutError error))
    (ended : s.operation = some outcome) : settle outcome s = (finish outcome s, []) := by
  have left : leave outcome s = finish outcome s := by rw [leave, ended]; rfl
  cases outcome with
  | ok value => rw [settle, left]; exact nofun
  | error raised =>
    cases raised with
    | timeoutError error => exact absurd rfl (other error)
    | _ => rw [settle, left]; exact nofun

theorem Settled.settle (ended : s.operation = some outcome) : Settled (settle outcome s).1 := by
  by_cases timedOut : ∃ error, outcome = .error (.timeoutError error)
  · obtain ⟨error, rfl⟩ := timedOut
    trivial
  · have other : ∀ error, outcome ≠ .error (.timeoutError error) := fun error same => timedOut ⟨error, same⟩
    rw [settle_of_not_timeout other ended]
    exact ⟨ended, other⟩

theorem Settled.wait : Settled (wait s).1 := by
  unfold ConsumerPolls.wait
  split
  · rename_i outcome ended
    exact .settle ended
  · rename_i running
    exact running

theorem Settled.step (settled : Settled s) (quiet : answer.resumed.Quiet) (moved : step s answer = some (s', events)) :
    Settled s' := by
  obtain ⟨⟨next, more⟩, went, same⟩ := Option.map_eq_some_iff.mp moved
  cases same
  have point : (during s answer).point = s.point := rfl
  rw [Settled, ← point] at settled
  cases proceeded_of_proceed went with
  | woke _ ended => exact .settle ended
  | expired => trivial
  | left _ loud => exact absurd quiet loud
  | polled => exact .wait
  | finished here => rw [here] at settled; exact settled.elim
  | interrupted here => rw [here] at settled; exact settled.elim

theorem Run.settled {pollIntervalSeconds : ℚ} {entry : Consumer P} {operation : Option (Outcome T E)}
    {trace : List (Event P)} (run : Run (R := R) (fun answer => answer.resumed.Quiet) pollIntervalSeconds entry operation s trace) : Settled s := by
  induction run with
  | @start s events began =>
    unfold ConsumerPolls.start at began
    split at began
    · cases began
    · have after := Settled.wait (s := pauseCurrentAssignment
        { consumer := entry, operation := operation, pausedByHelper := ∅, point := Point.waiting })
      rw [Except.ok.inj began] at after
      exact after
  | next _ quiet moved ih => exact ih.step quiet moved

/-- With the operation done, a poll is followed by what the operation has done. -/
theorem step_polling (here : s.point = .polling) (ended : s.operation = some outcome) (quiet : answer.resumed.Quiet)
    (moved : step s answer = some (s', events)) : s' = (settle outcome (during s answer)).1 := by
  obtain ⟨⟨next, more⟩, went, same⟩ := Option.map_eq_some_iff.mp moved
  cases same
  have point : (during s answer).point = .polling := here
  have still : (during s answer).operation = some outcome := by rw [during, ended]; rfl
  cases proceeded_of_proceed went with
  | woke here => rw [point] at here; cases here
  | expired here => rw [point] at here; cases here
  | left _ loud => exact absurd quiet loud
  | polled => rw [wait, still]
  | finished here => rw [point] at here; cases here
  | interrupted here => rw [point] at here; cases here

/-- A poll that returns nothing is a way on. -/
theorem goes_polling (here : s.point = .polling) : ∃ (answer : Answer R P T E) (s' : State P T E) (events : List (Event P)),
    answer.resumed.Quiet ∧ step s answer = some (s', events) := by
  obtain ⟨consumer, operation, pausedByHelper, point⟩ := s
  cases here
  have goes : (step ⟨consumer, operation, pausedByHelper, .polling⟩ (⟨[], none, .polled []⟩ : Answer R P T E)).isSome := rfl
  obtain ⟨⟨s', events⟩, moved⟩ := Option.isSome_iff_exists.mp goes
  have quiet : (Resumed.polled [] : Resumed R P E).Quiet := rfl
  exact ⟨_, s', events, quiet, moved⟩

theorem Passes.of_not_timeout (settled : Settled s) (ended : s.operation = some outcome)
    (other : ∀ error, outcome ≠ .error (.timeoutError error)) : Passes R outcome s := by
  rw [Settled] at settled
  cases here : s.point with
  | waiting =>
    rw [here] at settled
    rw [ended] at settled
    cases settled
  | polling =>
    refine .next (goes_polling here) fun answer s' events quiet moved => ?_
    have still : (during s answer).operation = some outcome := by rw [during, ended]; rfl
    rw [step_polling here ended quiet moved, settle_of_not_timeout other still]
    exact .exited rfl
  | cleanup => rw [here] at settled; exact settled.elim
  | exited result =>
    rw [here] at settled
    have same : result = outcome := Option.some.inj (settled.1.symm.trans ended)
    rw [same] at here
    exact .exited here

/-- A time-out of the operation is taken for one of the wait, each time again. -/
theorem not_passes_of_timeout {error : E} (here : s.point = .polling)
    (ended : s.operation = some (.error (.timeoutError error))) : ¬ Passes R result s := by
  intro passes
  induction passes with
  | exited exited =>
    rw [here] at exited
    cases exited
  | @next s goes _ ih =>
    obtain ⟨answer, s', events, quiet, moved⟩ := goes
    have after := step_polling here ended quiet moved
    have still : (during s answer).operation = some (.error (.timeoutError error)) := by rw [during, ended]; rfl
    rw [settle] at after
    exact ih answer s' events quiet moved (by rw [after]; rfl) (by rw [after]; exact still)

end

/-- In a run with quiet polls, the helper passes on the outcome of its operation exactly if
that is no time-out. -/
theorem outcome_passed_iff {R P T E : Type} [DecidableEq P] {pollIntervalSeconds : ℚ} {entry : Consumer P}
    {operation : Option (Outcome T E)} {s : State P T E} {trace : List (Event P)} {outcome : Outcome T E}
    (run : Run (fun answer : Answer R P T E => answer.resumed.Quiet) pollIntervalSeconds entry operation s trace)
    (ended : s.operation = some outcome) : Passes R outcome s ↔ ∀ error, outcome ≠ .error (.timeoutError error) := by
  refine ⟨fun passes error same => ?_, .of_not_timeout run.settled ended⟩
  subst same
  have settled := run.settled
  rw [Settled] at settled
  cases here : s.point with
  | waiting =>
    rw [here] at settled
    rw [ended] at settled
    cases settled
  | polling => exact not_passes_of_timeout here ended passes
  | cleanup => rw [here] at settled; exact settled.elim
  | exited result =>
    rw [here] at settled
    have same : result = .error (.timeoutError error) := Option.some.inj (settled.1.symm.trans ended)
    exact settled.2 error same

/-- An interval expires, a partition is added while the helper polls, and the operation
returns in the next interval. -/
theorem outcome_passed_iff_polled : ∃ (s : State Nat Nat Unit) (trace : List (Event Nat)),
    Run (fun answer : Answer Unit Nat Nat Unit => answer.resumed.Quiet) 30 ⟨{1}, ∅, by decide⟩ none s trace ∧
      trace.length = 2 ∧ s.consumer.assigned = {1, 2} ∧ Passes Unit (.ok 7) s := by
  have begun : start 30 ⟨{1}, ∅, by decide⟩ none =
      (.ok (⟨⟨{1}, {1}, by decide⟩, none, {1}, .waiting⟩, []) :
        Except (Raised Unit) (State Nat Nat Unit × List (Event Nat))) := by rfl
  have quiet : ∀ answer ∈ [(⟨[], none, .expired⟩ : Answer Unit Nat Nat Unit), ⟨[⟨∅, {2}⟩], none, .polled []⟩,
      ⟨[], some (.ok 7), .woke⟩], answer.resumed.Quiet := by decide
  have run := (Run.start begun).replay quiet rfl
  exact ⟨_, _, run, rfl, by decide, (outcome_passed_iff run rfl).mpr nofun⟩

/-- The operation times out by itself while the helper waits for the first time. -/
theorem outcome_not_passed : ¬ ∀ (s : State Nat Nat Unit) (trace : List (Event Nat)) (outcome : Outcome Nat Unit),
    Run (fun answer : Answer Unit Nat Nat Unit => answer.resumed.Quiet) 30 ⟨{1}, ∅, by decide⟩ none s trace →
      s.operation = some outcome → Passes Unit outcome s := by
  intro all
  have begun : start 30 ⟨{1}, ∅, by decide⟩ none =
      (.ok (⟨⟨{1}, {1}, by decide⟩, none, {1}, .waiting⟩, []) :
        Except (Raised Unit) (State Nat Nat Unit × List (Event Nat))) := by rfl
  have quiet : ∀ answer ∈ [(⟨[], some (.error (.timeoutError ())), .woke⟩ : Answer Unit Nat Nat Unit)],
      answer.resumed.Quiet := by decide
  have run := (Run.start begun).replay quiet rfl
  exact not_passes_of_timeout rfl rfl (all _ _ _ run rfl)

end ConsumerPolls

end MonkeyOcr
