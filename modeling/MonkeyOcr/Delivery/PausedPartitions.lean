import MonkeyOcr.Delivery.ConsumerPolls

namespace MonkeyOcr

namespace ConsumerPolls

variable {R P T E : Type}

/-- No change has revoked the partition. -/
def Stayed (trace : List (Event P)) (partition : P) : Prop :=
  ∀ change, .rebalance change ∈ trace → partition ∉ change.revoked

/-- What `await_with_safe_consumer_polls` leaves when it exits. -/
structure LeftAsFound (entry : Consumer P) (trace : List (Event P)) (s : State P T E) : Prop where
  finished : s.operation.isSome
  released : ∀ partition ∈ s.consumer.assigned, partition ∈ s.consumer.paused →
    partition ∈ entry.paused ∧ Stayed trace partition
  kept : ∀ partition ∈ entry.paused, Stayed trace partition → partition ∈ s.consumer.paused

/-- No keepalive poll meets an assigned partition that is not paused, and an exit leaves the
consumer as it was found. -/
structure Sound (entry : Consumer P) (trace : List (Event P)) (s : State P T E) : Prop where
  polls : ∀ consumer, .getmany consumer ∈ trace → consumer.assigned ⊆ consumer.paused
  exits : ∀ result, s.point = .exited result → LeftAsFound entry trace s

/-! ### Who has paused what -/

/-- What others had paused and what the helper has paused are kept apart. -/
structure Held (entry : Consumer P) (trace : List (Event P)) (s : State P T E) : Prop where
  others : ∀ partition ∈ entry.paused, Stayed trace partition →
    partition ∈ s.consumer.paused ∧ partition ∉ s.pausedByHelper
  ours : ∀ partition ∈ s.consumer.paused,
    partition ∈ s.pausedByHelper ∨ partition ∈ entry.paused ∧ Stayed trace partition

variable {entry : Consumer P} {trace : List (Event P)} {s s' : State P T E} {events : List (Event P)}
  {answer : Answer R P T E} {outcome result : Outcome T E}

theorem stayed_append {partition : P} :
    Stayed (trace ++ events) partition ↔ Stayed trace partition ∧ Stayed events partition := by
  constructor
  · intro stayed
    have first : Stayed trace partition := fun change member => stayed change (List.mem_append_left events member)
    have second : Stayed events partition := fun change member => stayed change (List.mem_append_right trace member)
    exact ⟨first, second⟩
  · intro both change member
    rcases List.mem_append.mp member with old | new
    · exact both.1 change old
    · exact both.2 change new

/-- Events that are no change of the assignment. -/
theorem Held.append (held : Held entry trace s) (other : ∀ change, .rebalance change ∉ events) :
    Held entry (trace ++ events) s := by
  have still : ∀ partition, Stayed events partition := fun partition change member => absurd member (other change)
  have same : ∀ partition, Stayed (trace ++ events) partition ↔ Stayed trace partition := by
    intro partition
    rw [stayed_append]
    exact and_iff_left (still partition)
  refine ⟨fun partition member stayed => held.others partition member ((same partition).mp stayed), ?_⟩
  intro partition member
  rw [same partition]
  exact held.ours partition member

variable [DecidableEq P]

theorem Held.rebalance (held : Held entry trace s) (change : Change P) :
    Held entry (trace ++ [.rebalance change]) { s with consumer := s.consumer.rebalance change } := by
  have here : ∀ partition, Stayed [.rebalance change] partition ↔ partition ∉ change.revoked := by
    intro partition
    constructor
    · intro stayed
      exact stayed change (List.mem_singleton_self _)
    · intro out other member
      cases List.mem_singleton.mp member
      exact out
  constructor
  · intro partition member stayed
    obtain ⟨before, out⟩ := stayed_append.mp stayed
    obtain ⟨paused, apart⟩ := held.others partition member before
    exact ⟨Finset.mem_sdiff.mpr ⟨paused, (here partition).mp out⟩, apart⟩
  · intro partition member
    obtain ⟨paused, out⟩ := Finset.mem_sdiff.mp member
    rcases held.ours partition paused with own | ⟨found, before⟩
    · exact .inl own
    · exact .inr ⟨found, stayed_append.mpr ⟨before, (here partition).mpr out⟩⟩

theorem Held.during (held : Held entry trace s) (answer : Answer R P T E) :
    Held entry (trace ++ answer.changes.map .rebalance) (during s answer) := by
  have changes : ∀ (changes : List (Change P)) {trace : List (Event P)} {s : State P T E}, Held entry trace s →
      Held entry (trace ++ changes.map .rebalance) { s with consumer := changes.foldl Consumer.rebalance s.consumer } := by
    intro changes
    induction changes with
    | nil =>
      intro trace s held
      simpa using held
    | cons change rest ih =>
      intro trace s held
      have after := ih (held.rebalance change)
      rw [List.append_assoc] at after
      exact after
  have after := changes answer.changes held
  exact ⟨after.others, after.ours⟩

theorem Held.pauseCurrentAssignment (held : Held entry trace s) : Held entry trace (pauseCurrentAssignment s) := by
  constructor
  · intro partition member stayed
    obtain ⟨paused, apart⟩ := held.others partition member stayed
    refine ⟨Finset.mem_union_left _ paused, ?_⟩
    intro member
    rcases Finset.mem_union.mp member with own | now
    · exact apart own
    · exact (Finset.mem_sdiff.mp now).2 paused
  · intro partition member
    rcases Finset.mem_union.mp member with before | now
    · rcases held.ours partition before with own | found
      · exact .inl (Finset.mem_union_left _ own)
      · exact .inr found
    · exact .inl (Finset.mem_union_right _ now)

theorem mem_resumable {partition : P} :
    partition ∈ resumable s ↔ partition ∈ s.pausedByHelper ∧ partition ∈ s.consumer.paused := by
  rw [resumable, Finset.mem_inter, Finset.mem_inter]
  constructor
  · intro member
    exact ⟨member.1.1, member.2⟩
  · intro member
    exact ⟨⟨member.1, s.consumer.paused_assigned member.2⟩, member.2⟩

theorem Held.finish (held : Held entry trace s) : Held entry trace (finish result s) := by
  constructor
  · intro partition member stayed
    obtain ⟨paused, apart⟩ := held.others partition member stayed
    refine ⟨Finset.mem_sdiff.mpr ⟨paused, ?_⟩, apart⟩
    intro resumed
    exact apart (mem_resumable.mp resumed).1
  · intro partition member
    exact held.ours partition (Finset.mem_sdiff.mp member).1

theorem resumable_finish : resumable (finish result s) = ∅ := by
  rw [Finset.eq_empty_iff_forall_notMem]
  intro partition member
  obtain ⟨own, left⟩ := mem_resumable.mp member
  obtain ⟨paused, out⟩ := Finset.mem_sdiff.mp left
  exact out (mem_resumable.mpr ⟨own, paused⟩)

/-- Where nothing is left to resume, only what was found paused is paused. -/
theorem Held.released_iff (held : Held entry trace s) :
    (∀ partition ∈ s.consumer.assigned, partition ∈ s.consumer.paused →
      partition ∈ entry.paused ∧ Stayed trace partition) ↔ resumable s = ∅ := by
  constructor
  · intro released
    rw [Finset.eq_empty_iff_forall_notMem]
    intro partition member
    obtain ⟨own, paused⟩ := mem_resumable.mp member
    obtain ⟨found, stayed⟩ := released partition (s.consumer.paused_assigned paused) paused
    exact (held.others partition found stayed).2 own
  · intro none partition _ paused
    rcases held.ours partition paused with own | found
    · have member := mem_resumable.mpr ⟨own, paused⟩
      rw [none] at member
      exact absurd member (Finset.notMem_empty partition)
    · exact found

/-! ### Runs -/

/-- Before the exit the helper has not been interrupted. -/
structure Live (entry : Consumer P) (trace : List (Event P)) (s : State P T E) : Prop where
  held : Held entry trace s
  polls : ∀ consumer, .getmany consumer ∈ trace → consumer.assigned ⊆ consumer.paused
  whole : ∀ left, .interrupted left ∉ trace

/-- After it, what is left to resume tells if it has been. -/
structure Followed (entry : Consumer P) (trace : List (Event P)) (s : State P T E) : Prop where
  held : Held entry trace s
  polls : ∀ consumer, .getmany consumer ∈ trace → consumer.assigned ⊆ consumer.paused
  before : (∀ result, s.point ≠ .exited result) → ∀ left, .interrupted left ∉ trace
  after : ∀ result, s.point = .exited result →
    s.operation.isSome ∧ (resumable s = ∅ ↔ ∀ left, .interrupted left ∈ trace → left = ∅)

theorem Live.followed (live : Live entry trace s) (inside : ∀ result, s.point ≠ .exited result) :
    Followed entry trace s :=
  ⟨live.held, live.polls, fun _ => live.whole, fun result here => absurd here (inside result)⟩

theorem Live.during (live : Live entry trace s) (answer : Answer R P T E) :
    Live entry (trace ++ answer.changes.map .rebalance) (during s answer) := by
  have other : ∀ event ∈ answer.changes.map Event.rebalance, ∃ change, event = .rebalance change := by
    intro event member
    obtain ⟨change, _, same⟩ := List.mem_map.mp member
    exact ⟨change, same.symm⟩
  refine ⟨live.held.during answer, fun consumer member => ?_, fun left member => ?_⟩
  · rcases List.mem_append.mp member with old | new
    · exact live.polls consumer old
    · obtain ⟨change, same⟩ := other _ new
      cases same
  · rcases List.mem_append.mp member with old | new
    · exact live.whole left old
    · obtain ⟨change, same⟩ := other _ new
      cases same

theorem Live.finish (live : Live entry trace s) (ended : s.operation.isSome) : Followed entry trace (finish result s) := by
  refine ⟨live.held.finish, live.polls, fun inside => absurd rfl (inside result), fun _ _ => ⟨ended, ?_⟩⟩
  exact iff_of_true resumable_finish fun left member => absurd member (live.whole left)

theorem Live.leave (live : Live entry trace s) : Followed entry trace (leave result s) := by
  unfold ConsumerPolls.leave
  split
  · rename_i ended
    exact live.finish ended
  · have cleanup : Live entry trace { s with point := .cleanup result } := ⟨⟨live.held.others, live.held.ours⟩, live.polls, live.whole⟩
    exact cleanup.followed nofun

/-- A poll comes right after the pause of what is assigned. -/
theorem Live.keepalive (live : Live entry trace s) : Followed entry (trace ++ (keepalive s).2) (keepalive s).1 := by
  have paused := live.held.pauseCurrentAssignment
  have held : Held entry (trace ++ (ConsumerPolls.keepalive s).2) (pauseCurrentAssignment s) := by
    apply paused.append
    intro change member
    cases List.mem_singleton.mp member
  refine ⟨⟨held.others, held.ours⟩, fun consumer member => ?_, fun _ left member => ?_, nofun⟩
  · rcases List.mem_append.mp member with old | new
    · exact live.polls consumer old
    · cases List.mem_singleton.mp new
      intro partition assigned
      by_cases already : partition ∈ s.consumer.paused
      · exact Finset.mem_union_left _ already
      · exact Finset.mem_union_right _ (Finset.mem_sdiff.mpr ⟨assigned, already⟩)
  · rcases List.mem_append.mp member with old | new
    · exact live.whole left old
    · cases List.mem_singleton.mp new

theorem Live.settle (live : Live entry trace s) : Followed entry (trace ++ (settle outcome s).2) (settle outcome s).1 := by
  unfold ConsumerPolls.settle
  split
  · exact live.keepalive
  · rw [List.append_nil]
    exact live.leave

theorem Live.wait (live : Live entry trace s) : Followed entry (trace ++ (wait s).2) (wait s).1 := by
  unfold ConsumerPolls.wait
  split
  · exact live.settle
  · rw [List.append_nil]
    have waiting : Live entry trace { s with point := .waiting } := ⟨⟨live.held.others, live.held.ours⟩, live.polls, live.whole⟩
    exact waiting.followed nofun

/-- The interrupted `finally` leaves what it has not resumed. -/
theorem Live.interrupted (live : Live entry trace s) (ended : s.operation.isSome) :
    Followed entry (trace ++ [.interrupted (resumable s)]) { s with point := .exited (.error .cancelledError) } := by
  have held : Held entry (trace ++ [.interrupted (resumable s)]) s := by
    apply live.held.append
    intro change member
    cases List.mem_singleton.mp member
  refine ⟨⟨held.others, held.ours⟩, fun consumer member => ?_, fun inside => absurd rfl (inside _), fun _ _ => ⟨ended, ?_, ?_⟩⟩
  · rcases List.mem_append.mp member with old | new
    · exact live.polls consumer old
    · cases List.mem_singleton.mp new
  · intro none left member
    rcases List.mem_append.mp member with old | new
    · exact absurd old (live.whole left)
    · cases List.mem_singleton.mp new
      exact none
  · intro all
    exact all (resumable s) (List.mem_append_right trace (List.mem_singleton_self _))

theorem Followed.step (followed : Followed entry trace s) (moved : step s answer = some (s', events)) :
    Followed entry (trace ++ events) s' := by
  obtain ⟨⟨next, more⟩, went, same⟩ := Option.map_eq_some_iff.mp moved
  cases same
  have proceeded := proceeded_of_proceed went
  have inside : ∀ result, s.point ≠ .exited result := by
    have point : (ConsumerPolls.during s answer).point = s.point := rfl
    intro result here
    rw [← point] at here
    cases proceeded with
    | woke other => rw [here] at other; cases other
    | expired other => rw [here] at other; cases other
    | left other => rw [here] at other; cases other <;> contradiction
    | polled other => rw [here] at other; cases other
    | finished other => rw [here] at other; cases other
    | interrupted other => rw [here] at other; cases other
  have live : Live entry trace s := ⟨followed.held, followed.polls, followed.before inside⟩
  have later := live.during answer
  rw [← List.append_assoc]
  cases proceeded with
  | woke => exact later.settle
  | expired => exact later.keepalive
  | left =>
    rw [List.append_nil]
    exact later.leave
  | polled => exact later.wait
  | finished _ ended =>
    rw [List.append_nil]
    exact later.finish ended
  | interrupted _ ended => exact later.interrupted ended

theorem Run.followed {allowed : Answer R P T E → Prop} {pollIntervalSeconds : ℚ} {operation : Option (Outcome T E)}
    (run : Run allowed pollIntervalSeconds entry operation s trace) : Followed entry trace s := by
  induction run with
  | @start s events began =>
    unfold ConsumerPolls.start at began
    split at began
    · cases began
    · have fresh : Held entry []
          (⟨entry, operation, ∅, .waiting⟩ : State P T E) :=
        ⟨fun partition member _ => ⟨member, Finset.notMem_empty partition⟩, fun partition member => .inr ⟨member, nofun⟩⟩
      have live : Live entry [] (pauseCurrentAssignment (⟨entry, operation, ∅, .waiting⟩ : State P T E)) :=
        ⟨fresh.pauseCurrentAssignment, nofun, nofun⟩
      have after := live.wait
      rw [Except.ok.inj began] at after
      exact after
  | next _ _ moved ih => exact ih.step moved

/-- The helper leaves the consumer as it found it exactly if no cancellation has come into
its `finally` while a partition was still to be resumed. -/
theorem left_as_found_iff {allowed : Answer R P T E → Prop} {pollIntervalSeconds : ℚ} {operation : Option (Outcome T E)}
    (run : Run allowed pollIntervalSeconds entry operation s trace) :
    Sound entry trace s ↔ ∀ left, .interrupted left ∈ trace → left = ∅ := by
  have followed := run.followed
  constructor
  · intro sound left member
    by_cases exited : ∃ result, s.point = .exited result
    · obtain ⟨result, here⟩ := exited
      have none := followed.held.released_iff.mp (sound.exits result here).released
      exact (followed.after result here).2.mp none left member
    · have inside : ∀ result, s.point ≠ .exited result := fun result here => exited ⟨result, here⟩
      exact absurd member (followed.before inside left)
  · intro all
    refine ⟨followed.polls, fun result here => ?_⟩
    obtain ⟨ended, released⟩ := followed.after result here
    refine ⟨ended, followed.held.released_iff.mpr (released.mpr all), ?_⟩
    intro partition member stayed
    exact (followed.held.others partition member stayed).1

/-- One partition goes, another comes, and the operation returns after a poll. -/
theorem left_as_found_iff_value : ∃ (s : State Nat Nat Unit) (trace : List (Event Nat)),
    Run (fun _ : Answer Unit Nat Nat Unit => True) 30 ⟨{1, 2}, {2}, by decide⟩ none s trace ∧
      s.point = .exited (.ok 7) ∧ Sound ⟨{1, 2}, {2}, by decide⟩ trace s := by
  have begun : start 30 ⟨{1, 2}, {2}, by decide⟩ none =
      (.ok (pauseCurrentAssignment ⟨⟨{1, 2}, {2}, by decide⟩, none, ∅, .waiting⟩, []) :
        Except (Raised Unit) (State Nat Nat Unit × List (Event Nat))) := by rfl
  have good : ∀ answer ∈ [(⟨[⟨{1}, {3}⟩], none, .expired⟩ : Answer Unit Nat Nat Unit), ⟨[], none, .polled [(3, [])]⟩,
      ⟨[], some (.ok 7), .woke⟩], True := fun _ _ => trivial
  have run := (Run.start begun).replay good rfl
  refine ⟨_, _, run, rfl, (left_as_found_iff run).mpr ?_⟩
  intro left member
  simp [during] at member

/-- How often the helper is cancelled. -/
def cancellations (answers : List (Answer R P T E)) : Nat :=
  answers.countP fun answer =>
    match answer.resumed with
    | .cancelled => true
    | _ => false

/-- A poll returns a record, and the helper is cancelled while it waits for the operation
that it has cancelled itself. -/
theorem not_left_as_found : ¬ ∀ (answers : List (Answer Unit Nat Nat Unit)) (begin s : State Nat Nat Unit)
    (events trace : List (Event Nat)), cancellations answers ≤ 1 →
      start 30 ⟨{1}, ∅, by decide⟩ none = (.ok (begin, events) : Except (Raised Unit) _) →
        replay begin events answers = some (s, trace) → Sound ⟨{1}, ∅, by decide⟩ trace s := by
  intro all
  have sound := all [⟨[], none, .expired⟩, ⟨[], none, .polled [(1, [()])]⟩, ⟨[], some (.error .cancelledError), .cancelled⟩]
    _ _ _ _ (by decide) rfl rfl
  have left := (sound.exits _ rfl).released 1 (by decide) (by decide)
  exact Finset.notMem_empty 1 left.1

end ConsumerPolls

end MonkeyOcr
