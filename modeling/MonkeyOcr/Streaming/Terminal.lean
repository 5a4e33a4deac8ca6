import MonkeyOcr.Lifecycle.EventLog
import MonkeyOcr.Streaming.Contract

namespace MonkeyOcr

open Calls

namespace JobRow

variable {row row' : JobRow} {event : JobEvent}

/-- An event with a terminal state comes with or after the terminal event of
its attempt: a page may still be reported after its job has ended. -/
def Ends (row : JobRow) : Prop :=
  ∀ event ∈ row.events, ∀ type, event.state.terminalEvent? = some type →
    ∃ old ∈ row.events, old.eventType = type ∧ old.attempt = event.attempt ∧ old.sequence ≤ event.sequence

theorem Logged.ordered (logged : row.Logged) : row.events.Pairwise fun a b => a.sequence < b.sequence := by
  have sequences : (row.events.map JobEvent.sequence).Pairwise (· < ·) :=
    logged.sequences ▸ List.pairwise_lt_range'
  exact List.pairwise_map.mp sequences

theorem Logged.sequence_le (logged : row.Logged) (member : event ∈ row.events) :
    event.sequence ≤ row.events.length := by
  have here : event.sequence ∈ row.events.map JobEvent.sequence := List.mem_map_of_mem member
  rw [logged.sequences, List.mem_range'_1] at here
  omega

/-- What comes after a prefix of a log has a higher sequence. -/
theorem Logged.lt_sequence (logged : row'.Logged) (grows : row.events <+: row'.events)
    (member : event ∈ row'.events) (new : event ∉ row.events) : row.events.length < event.sequence := by
  obtain ⟨i, bound, value⟩ := List.mem_iff_getElem.mp member
  have sequence : event.sequence = i + 1 := by
    have here : (row'.events.map JobEvent.sequence)[i]? = some event.sequence := by
      rw [List.getElem?_map, List.getElem?_eq_getElem bound, value]
      rfl
    rw [logged.sequences, List.getElem?_range' bound] at here
    have := Option.some.inj here
    omega
  have outside : row.events.length ≤ i := by
    by_contra inside
    have inside : i < row.events.length := Nat.lt_of_not_le inside
    exact new (by rw [← value, ← grows.getElem inside]; exact List.getElem_mem inside)
  omega

theorem append_snoc : (row.append event).2.events = row.events ∨
    ∃ new, (row.append event).2.events = row.events ++ [new] := by
  unfold append
  split
  · exact .inl rfl
  · exact .inr ⟨_, rfl⟩

/-- The step lemma: a log goes on with one event about the row. -/
theorem Ends.snoc (ends : row.Ends) (logged : row'.Logged)
    (grown : row'.events = row.events ∨ ∃ new, row'.events = row.events ++ [new]) : row'.Ends := by
  rcases grown with same | ⟨new, grown⟩
  · unfold Ends
    rw [same]
    exact ends
  · intro event member type ended
    rw [grown] at member
    rcases List.mem_append.mp member with old | last
    · obtain ⟨first, there, rest⟩ := ends event old type ended
      exact ⟨first, grown ▸ List.mem_append_left _ there, rest⟩
    · cases List.mem_singleton.mp last
      obtain ⟨last, isLast, state, attempt, -⟩ := logged.last
      rw [grown, List.getLast?_concat] at isLast
      cases isLast
      obtain ⟨old, there, type, same⟩ := logged.recorded type (state ▸ ended)
      refine ⟨old, there, type, same.trans attempt.symm, ?_⟩
      have ordered := logged.ordered
      rw [grown, List.pairwise_append] at ordered
      rw [grown] at there
      rcases List.mem_append.mp there with before | here
      · exact (ordered.2.2 old before _ (List.mem_singleton.mpr rfl)).le
      · exact (congrArg JobEvent.sequence (List.mem_singleton.mp here)).le

end JobRow

theorem RowChange.events_snoc {m : Memory} {w : World} {op : Op} {id : Id} {row row' : JobRow}
    (change : RowChange m w op id (some row) (some row')) :
    row'.events = row.events ∨ ∃ new, row'.events = row.events ++ [new] := by
  cases change with
  | saved _ _ _ _ _ _ saves =>
    rw [← saves.events]
    exact JobRow.append_snoc
  | reported => exact JobRow.append_snoc
  | _ => exact .inl rfl

namespace Feed

variable {m : Feed} {row row' : JobRow} {start : Nat} {event : JobEvent}

/-- A stream that began at `start` and the log of its job. -/
structure Follows (m : Feed) (row : JobRow) (start : Nat) : Prop where
  shown : ∀ event ∈ row.events, event.sequence ≤ m.position → event ∈ m.yielded ∨ event.sequence ≤ start
  ahead : ∃ rest, row.events.filter (fun event => m.position < event.sequence) = m.pending ++ rest
  sent : ∀ event ∈ m.yielded, event ∈ row.events ∧ event.sequence ≤ m.position
  place : m.position = start ∨ ∃ event ∈ m.yielded, m.position = event.sequence
  told : ∀ job, m.read = some (.stream true, job) → job.terminal = true →
    ∃ event ∈ row.events, event.eventType.terminal = true ∧ event.attempt = job.attempt ∧
      event.sequence ≤ m.position

/-- A stream that has not read its job. -/
structure Fresh (m : Feed) (start : Nat) : Prop where
  pending : m.pending = []
  yielded : m.yielded = []
  position : m.position = start

theorem Fresh.follows (fresh : m.Fresh start) (unread : m.read = none) : m.Follows row start where
  shown event _ low := .inr (fresh.position ▸ low)
  ahead := ⟨_, by rw [fresh.pending]; rfl⟩
  sent event member := by
    rw [fresh.yielded] at member
    cases member
  place := .inl fresh.position
  told job read := by
    rw [unread] at read
    cases read

theorem Follows.later (follows : m.Follows row start) (logged : row.Logged) (logged' : row'.Logged)
    (grows : row.events <+: row'.events) : m.Follows row' start := by
  refine ⟨fun event member low => ?_, ?_, fun event member => ?_, follows.place, fun job read ended => ?_⟩
  · by_cases old : event ∈ row.events
    · exact follows.shown event old low
    · have high := logged'.lt_sequence grows member old
      rcases follows.place with same | ⟨last, yielded, same⟩
      · exact .inr (same ▸ low)
      · have inside := logged.sequence_le (follows.sent last yielded).1
        omega
  · obtain ⟨tail, same⟩ := grows
    obtain ⟨rest, ahead⟩ := follows.ahead
    refine ⟨rest ++ tail.filter fun event => m.position < event.sequence, ?_⟩
    rw [← same, List.filter_append, ahead, List.append_assoc]
  · obtain ⟨there, low⟩ := follows.sent event member
    exact ⟨grows.subset there, low⟩
  · obtain ⟨event, there, rest⟩ := follows.told job read ended
    exact ⟨event, grows.subset there, rest⟩

/-- The next event listed is the next one of the log. -/
theorem Follows.yield (follows : m.Follows row start) (logged : row.Logged) {rest : List JobEvent}
    (pending : m.pending = event :: rest) :
    ({ m with position := event.sequence, pending := rest, yielded := event :: m.yielded } : Feed).Follows row start := by
  obtain ⟨tail, ahead⟩ := follows.ahead
  rw [pending, List.cons_append] at ahead
  have ordered : (event :: (rest ++ tail)).Pairwise fun a b => a.sequence < b.sequence :=
    ahead ▸ logged.ordered.filter _
  obtain ⟨after, -⟩ := List.pairwise_cons.mp ordered
  have next : event ∈ row.events ∧ m.position < event.sequence := by
    have member : event ∈ row.events.filter fun event => m.position < event.sequence :=
      ahead ▸ List.mem_cons_self
    simpa using member
  refine ⟨fun other member low => ?_, ⟨tail, ?_⟩, fun other member => ?_, .inr ⟨event, List.mem_cons_self, rfl⟩,
    fun job read ended => ?_⟩
  · by_cases before : other.sequence ≤ m.position
    · exact (follows.shown other member before).imp_left (List.mem_cons_of_mem _)
    · have listed : other ∈ event :: (rest ++ tail) :=
        ahead ▸ List.mem_filter.mpr ⟨member, by simpa using Nat.lt_of_not_le before⟩
      rcases List.mem_cons.mp listed with rfl | later
      · exact .inl List.mem_cons_self
      · have := after other later
        change other.sequence ≤ event.sequence at low
        omega
  · have twice : row.events.filter (fun other => event.sequence < other.sequence) =
        (row.events.filter fun other => m.position < other.sequence).filter
          fun other => event.sequence < other.sequence := by
      rw [List.filter_filter]
      refine List.filter_congr fun other _ => ?_
      have := next.2
      grind
    have all : ((rest ++ tail).filter fun other => event.sequence < other.sequence) = rest ++ tail :=
      List.filter_eq_self.mpr fun other later => by simpa using after other later
    rw [twice, ahead, List.filter_cons, all]
    simp
  · rcases List.mem_cons.mp member with rfl | old
    · exact ⟨next.1, le_rfl⟩
    · obtain ⟨there, low⟩ := follows.sent other old
      exact ⟨there, low.trans next.2.le⟩
  · obtain ⟨old, there, type, attempt, low⟩ := follows.told job read ended
    exact ⟨old, there, type, attempt, low.trans next.2.le⟩

end Feed
end MonkeyOcr
