import MonkeyOcr.Logging.Service
import Mathlib.Data.List.Nodup

namespace MonkeyOcr

namespace Logging

namespace Service

variable {τ : Type} {s : Service τ}

/-- What the lock and the channel keep in order. -/
structure Sound (s : Service τ) : Prop where
  calm : s.panicked = false
  exclusive : ∀ call ∈ s.ingests, call.point.holds = true → ∀ point ∈ s.closers, point.holds = false
  single : ∀ (i j : Nat) (p q : ClosePoint), s.closers[i]? = some p → s.closers[j]? = some q → p.holds = true →
    q.holds = true → i = j
  closing : ClosePoint.close ∈ s.closers → s.closed = true ∧ s.queueClosed = false
  shut : s.queueClosed = true → s.closed = true
  late : s.closed = true → ∀ call ∈ s.ingests, call.point ≠ .select ∧ call.point ≠ .unlock none
  sent : ∀ i, i ∈ s.sends ↔
    ∃ call, s.ingests[i]? = some call ∧ (call.point = .unlock none ∨ call.point = .returned none)
  once : s.sends.Nodup
  conserved : s.accepted = s.written.flatten ++ s.pending ++ s.queue.flatten
  nonempty : ∀ batch ∈ s.written, batch ≠ []
  drained : s.run = .lastFlush ∨ s.run = .returned → s.queueClosed = true ∧ s.queue = []
  flushed : s.run = .returned → s.pending = []

theorem sound_new : Sound (Service.new : Service τ) where
  calm := rfl
  exclusive call member := by cases member
  single i j p q found := by simp [Service.new] at found
  closing member := by cases member
  shut closed := by cases closed
  late closed := by cases closed
  sent i := by simp [Service.new]
  once := List.nodup_nil
  conserved := rfl
  nonempty batch member := by cases member
  drained point := by simp [Service.new] at point
  flushed point := by cases point

theorem copiedOf_setIngest {i : Nat} {call : IngestCall τ} (found : s.ingests[i]? = some call) (point : IngestPoint)
    (j : Nat) : (s.setIngest i call point).copiedOf j = s.copiedOf j := by
  simp only [copiedOf, setIngest, List.getElem?_set]
  by_cases same : i = j
  · subst same
    obtain ⟨inside, here⟩ := List.getElem?_eq_some_iff.mp found
    simp [inside, here]
  · simp [same]

/-- The points of the calls after one of them moved. -/
theorem mem_setIngest {i : Nat} {call other : IngestCall τ} {point : IngestPoint}
    (member : other ∈ (s.setIngest i call point).ingests) : other ∈ s.ingests ∨ other = { call with point } :=
  List.mem_or_eq_of_mem_set member

theorem getElem?_setIngest {i : Nat} {call : IngestCall τ} (found : s.ingests[i]? = some call) (point : IngestPoint)
    (j : Nat) : (s.setIngest i call point).ingests[j]? = if i = j then some { call with point } else s.ingests[j]? := by
  obtain ⟨inside, _⟩ := List.getElem?_eq_some_iff.mp found
  by_cases same : i = j
  · subst same
    simp [setIngest, inside]
  · simp [setIngest, same]

/-- A call of `Ingest` moves on without a send. -/
theorem Sound.moveIngest (sound : Sound s) {i : Nat} {call : IngestCall τ} (found : s.ingests[i]? = some call)
    {point : IngestPoint} (alone : point.holds = true → ∀ closer ∈ s.closers, closer.holds = false)
    (late : s.closed = true → point ≠ .select ∧ point ≠ .unlock none)
    (same : (point = .unlock none ∨ point = .returned none) ↔
      (call.point = .unlock none ∨ call.point = .returned none)) : Sound (s.setIngest i call point) where
  calm := sound.calm
  exclusive other member := by
    intro holds
    rcases mem_setIngest member with old | rfl
    · exact sound.exclusive other old holds
    · exact alone holds
  single := sound.single
  closing := sound.closing
  shut := sound.shut
  late closed other member := by
    rcases mem_setIngest member with old | rfl
    · exact sound.late closed other old
    · exact late closed
  sent j := by
    rw [getElem?_setIngest found]
    change j ∈ s.sends ↔ _
    rw [sound.sent j]
    by_cases here : i = j
    · subst here
      simp [found, same]
    · simp [here]
  once := sound.once
  conserved := by
    have kept : (s.setIngest i call point).accepted = s.accepted :=
      List.flatMap_congr fun j _ => copiedOf_setIngest found point j
    rw [kept]
    exact sound.conserved
  nonempty := sound.nonempty
  drained := sound.drained
  flushed := sound.flushed

/-- A call of `Ingest` sends. The queue is open, as the lock is held since the check. -/
theorem Sound.send (sound : Sound s) {i : Nat} {call : IngestCall τ} (found : s.ingests[i]? = some call)
    (selecting : call.point = .select) :
    Sound { s.setIngest i call (.unlock none) with queue := s.queue ++ [call.copied], sends := s.sends ++ [i] } := by
  have member := List.mem_of_getElem? found
  have isOpen : s.closed = false := by
    by_contra closed
    rw [Bool.not_eq_false] at closed
    exact (sound.late closed call member).1 selecting
  have openQueue : s.queueClosed = false := by
    by_contra closed
    rw [Bool.not_eq_false] at closed
    rw [sound.shut closed] at isOpen
    cases isOpen
  have alone := sound.exclusive call member (by rw [selecting]; rfl)
  have fresh : i ∉ s.sends := by
    intro old
    obtain ⟨other, same, point⟩ := (sound.sent i).mp old
    rw [found] at same
    cases same
    rw [selecting] at point
    rcases point with point | point <;> cases point
  refine ⟨sound.calm, ?_, sound.single, sound.closing, sound.shut, ?_, ?_, ?_, ?_, sound.nonempty, ?_, sound.flushed⟩
  · intro other inside holds
    rcases mem_setIngest inside with old | rfl
    · exact sound.exclusive other old holds
    · exact alone
  · intro closed
    rw [show s.closed = true from closed] at isOpen
    cases isOpen
  · intro j
    change j ∈ s.sends ++ [i] ↔ ∃ other, (s.setIngest i call (.unlock none)).ingests[j]? = some other ∧ _
    rw [getElem?_setIngest found, List.mem_append, List.mem_singleton, sound.sent j]
    by_cases here : i = j
    · subst here
      simp
    · simp [here, Ne.symm here]
  · refine List.nodup_append.mpr ⟨sound.once, by simp, ?_⟩
    intro j old k last
    rw [List.mem_singleton] at last
    rw [last]
    exact ne_of_mem_of_not_mem old fresh
  · have before : s.sends.flatMap (s.setIngest i call (.unlock none)).copiedOf = s.accepted :=
      List.flatMap_congr fun j _ => copiedOf_setIngest found _ j
    have last : (s.setIngest i call (.unlock none)).copiedOf i = call.copied := by
      rw [copiedOf_setIngest found, copiedOf, found]
      rfl
    change (s.sends ++ [i]).flatMap (s.setIngest i call (.unlock none)).copiedOf =
      s.written.flatten ++ s.pending ++ (s.queue ++ [call.copied]).flatten
    rw [List.flatMap_append, before, List.flatMap_singleton, last, sound.conserved]
    simp
  · intro point
    rw [(sound.drained point).1] at openQueue
    cases openQueue

theorem getElem?_setCloser {i : Nat} {old : ClosePoint} (found : s.closers[i]? = some old) (point : ClosePoint)
    (j : Nat) : (s.setCloser i point).closers[j]? = if i = j then some point else s.closers[j]? := by
  obtain ⟨inside, _⟩ := List.getElem?_eq_some_iff.mp found
  by_cases same : i = j
  · subst same
    simp [setCloser, inside]
  · simp [setCloser, same]

/-- A call of `closeQueue` moves on. -/
theorem Sound.moveCloser (sound : Sound s) {i : Nat} {old point : ClosePoint} (found : s.closers[i]? = some old)
    (reading : point.holds = true → ∀ call ∈ s.ingests, call.point.holds = false)
    (writing : point.holds = true → old.holds = true ∨ ∀ closer ∈ s.closers, closer.holds = false)
    (closing : point = .close → s.closed = true ∧ s.queueClosed = false) : Sound (s.setCloser i point) where
  calm := sound.calm
  exclusive call member := by
    intro holds closer inside
    rcases List.mem_or_eq_of_mem_set inside with before | rfl
    · exact sound.exclusive call member holds closer before
    · by_contra held
      rw [Bool.not_eq_false] at held
      rw [reading held call member] at holds
      cases holds
  single j k p q atJ atK heldJ heldK := by
    rw [getElem?_setCloser found] at atJ atK
    by_cases one : i = j
    · by_cases two : i = k
      · exact one.symm.trans two
      · rw [if_pos one] at atJ
        rw [if_neg two] at atK
        cases atJ
        rcases writing heldJ with was | free
        · exact one.symm.trans (sound.single i k old q found atK was heldK)
        · rw [free q (List.mem_of_getElem? atK)] at heldK
          cases heldK
    · rw [if_neg one] at atJ
      by_cases two : i = k
      · rw [if_pos two] at atK
        cases atK
        rcases writing heldK with was | free
        · exact (sound.single j i p old atJ found heldJ was).trans two
        · rw [free p (List.mem_of_getElem? atJ)] at heldJ
          cases heldJ
      · rw [if_neg two] at atK
        exact sound.single j k p q atJ atK heldJ heldK
  closing member := by
    rcases List.mem_or_eq_of_mem_set member with before | same
    · exact sound.closing before
    · exact closing same.symm
  shut := sound.shut
  late := sound.late
  sent := sound.sent
  once := sound.once
  conserved := sound.conserved
  nonempty := sound.nonempty
  drained := sound.drained
  flushed := sound.flushed

/-- The flag is set by a call that holds the lock, so no send is on its way. -/
theorem Sound.setClosed (sound : Sound s) (writing : ∃ point ∈ s.closers, point.holds = true) :
    Sound { s with closed := true } where
  calm := sound.calm
  exclusive := sound.exclusive
  single := sound.single
  closing member := ⟨rfl, (sound.closing member).2⟩
  shut _ := rfl
  late _ call member := by
    obtain ⟨point, inside, held⟩ := writing
    constructor
    · intro selecting
      rw [sound.exclusive call member (by rw [selecting]; rfl) point inside] at held
      cases held
    · intro sent
      rw [sound.exclusive call member (by rw [sent]; rfl) point inside] at held
      cases held
  sent := sound.sent
  once := sound.once
  conserved := sound.conserved
  nonempty := sound.nonempty
  drained := sound.drained
  flushed := sound.flushed

/-- The channel is closed once. -/
theorem Sound.closeQueue (sound : Sound s) (closed : s.closed = true) (last : ClosePoint.close ∉ s.closers) :
    Sound { s with queueClosed := true } where
  calm := sound.calm
  exclusive := sound.exclusive
  single := sound.single
  closing member := absurd member last
  shut _ := closed
  late := sound.late
  sent := sound.sent
  once := sound.once
  conserved := sound.conserved
  nonempty := sound.nonempty
  drained point := ⟨rfl, (sound.drained point).2⟩
  flushed := sound.flushed

theorem Sound.flush (sound : Sound s) : Sound s.flush := by
  unfold Service.flush
  split
  · exact sound
  · rename_i some'
    refine ⟨sound.calm, sound.exclusive, sound.single, sound.closing, sound.shut, sound.late, sound.sent, sound.once,
      ?_, ?_, sound.drained, fun _ => rfl⟩
    · change s.accepted = (s.written ++ [s.pending]).flatten ++ [] ++ s.queue.flatten
      rw [sound.conserved]
      simp
    · intro batch member
      rcases List.mem_append.mp member with old | new
      · exact sound.nonempty batch old
      · rw [List.mem_singleton] at new
        rw [new]
        intro empty
        rw [empty] at some'
        exact some' rfl

theorem flush_pending : s.flush.pending = [] := by
  unfold Service.flush
  split
  · exact List.eq_nil_of_length_eq_zero (by assumption)
  · rfl

theorem flush_frame : s.flush.queue = s.queue ∧ s.flush.queueClosed = s.queueClosed := by
  unfold Service.flush
  split <;> exact ⟨rfl, rfl⟩

/-- The loop goes to another point. -/
theorem Sound.setRun (sound : Sound s) (point : RunPoint)
    (drained : point = .lastFlush ∨ point = .returned → s.queueClosed = true ∧ s.queue = [])
    (flushed : point = .returned → s.pending = []) : Sound { s with run := point } :=
  ⟨sound.calm, sound.exclusive, sound.single, sound.closing, sound.shut, sound.late, sound.sent, sound.once,
    sound.conserved, sound.nonempty, drained, flushed⟩

/-- The loop takes a batch from the channel. -/
theorem Sound.receive (sound : Sound s) {events : List (LogEvent τ)} {rest : List (List (LogEvent τ))}
    (waiting : s.queue = events :: rest) (draining : Bool) :
    Sound { s with queue := rest, pending := s.pending ++ events, run := .appended draining } := by
  refine ⟨sound.calm, sound.exclusive, sound.single, sound.closing, sound.shut, sound.late, sound.sent, sound.once, ?_,
    sound.nonempty, ?_, ?_⟩
  · change s.accepted = s.written.flatten ++ (s.pending ++ events) ++ rest.flatten
    rw [sound.conserved, waiting]
    simp
  · intro point
    rcases point with point | point <;> cases point
  · intro point
    cases point

theorem Sound.ingest (sound : Sound s) (call : IngestCall τ) (outside : call.point.holds = false)
    (unsent : call.point ≠ .returned none) : Sound { s with ingests := s.ingests ++ [call] } := by
  have away : ¬ (call.point = .unlock none ∨ call.point = .returned none) := by
    rintro (point | point)
    · rw [point] at outside
      cases outside
    · exact unsent point
  refine ⟨sound.calm, ?_, sound.single, sound.closing, sound.shut, ?_, ?_, sound.once, ?_, sound.nonempty,
    sound.drained, sound.flushed⟩
  · intro other member holds
    rcases List.mem_append.mp member with old | new
    · exact sound.exclusive other old holds
    · rw [List.mem_singleton.mp new, outside] at holds
      cases holds
  · intro closed other member
    rcases List.mem_append.mp member with old | new
    · exact sound.late closed other old
    · rw [List.mem_singleton.mp new]
      refine ⟨?_, fun point => away (.inl point)⟩
      intro selecting
      rw [selecting] at outside
      cases outside
  · intro j
    rw [sound.sent j]
    by_cases inside : j < s.ingests.length
    · simp [List.getElem?_append_left inside]
    · have beyond : s.ingests[j]? = none := List.getElem?_eq_none (Nat.le_of_not_lt inside)
      constructor
      · rintro ⟨other, found, _⟩
        rw [beyond] at found
        cases found
      · rintro ⟨other, found, point⟩
        have last := List.mem_of_getElem? found
        rw [List.getElem?_append_right (Nat.le_of_not_lt inside)] at found
        have same := List.mem_singleton.mp (List.mem_of_getElem? found)
        rw [same] at point
        exact absurd point away
  · have kept : s.sends.flatMap (copiedOf { s with ingests := s.ingests ++ [call] }) = s.accepted := by
      apply List.flatMap_congr
      intro j member
      obtain ⟨other, found, _⟩ := (sound.sent j).mp member
      obtain ⟨inside, _⟩ := List.getElem?_eq_some_iff.mp found
      simp [copiedOf, List.getElem?_append_left inside]
    exact kept.trans sound.conserved

theorem Sound.close (sound : Sound s) : Sound { s with closers := s.closers ++ [.lock] } := by
  refine ⟨sound.calm, ?_, ?_, ?_, sound.shut, sound.late, sound.sent, sound.once, sound.conserved, sound.nonempty,
    sound.drained, sound.flushed⟩
  · intro call member holds point inside
    rcases List.mem_append.mp inside with old | new
    · exact sound.exclusive call member holds point old
    · rw [List.mem_singleton.mp new]
      rfl
  · have old : ∀ (j : Nat) (p : ClosePoint), (s.closers ++ [.lock])[j]? = some p → p.holds = true →
        s.closers[j]? = some p := by
      intro j p found held
      by_cases inside : j < s.closers.length
      · rwa [List.getElem?_append_left inside] at found
      · rw [List.getElem?_append_right (Nat.le_of_not_lt inside)] at found
        rw [List.mem_singleton.mp (List.mem_of_getElem? found)] at held
        cases held
    intro i j p q atI atJ heldI heldJ
    exact sound.single i j p q (old i p atI heldI) (old j q atJ heldJ) heldI heldJ
  · intro member
    rcases List.mem_append.mp member with old | new
    · exact sound.closing old
    · cases List.mem_singleton.mp new

variable {config : Config} {s' : Service τ}

theorem Sound.resumeIngest (sound : Sound s) {i : Nat} {choice : Choice}
    (moved : s.resumeIngest config i choice = some s') : Sound s' := by
  simp only [Service.resumeIngest, Option.bind_eq_bind, Option.bind_eq_some_iff] at moved
  obtain ⟨call, found, moved⟩ := moved
  have member := List.mem_of_getElem? found
  split at moved
  · rename_i point
    split at moved
    · cases moved
    · rename_i free
      cases moved
      have free : ∀ closer ∈ s.closers, closer.holds = false := by simpa using free
      exact sound.moveIngest found (fun _ => free) (fun _ => by decide) (by simp [point])
  · rename_i point
    have alone := sound.exclusive call member (by rw [point]; rfl)
    split at moved
    · cases moved
      exact sound.moveIngest found (fun _ => alone) (fun _ => by decide) (by simp [point])
    · rename_i isOpen
      cases moved
      exact sound.moveIngest found (fun _ => alone) (fun closed => absurd closed isOpen) (by simp [point])
  · rename_i point
    have alone := sound.exclusive call member (by rw [point]; rfl)
    have isOpen : s.closed ≠ true := fun closed => (sound.late closed call member).1 point
    split at moved
    · split at moved
      · rename_i closed
        exact absurd (sound.shut closed) isOpen
      · split at moved
        · cases moved
          exact sound.send found point
        · cases moved
    · cases moved
      exact sound.moveIngest found (fun _ => alone) (fun _ => by decide) (by simp [point])
    · split at moved
      · cases moved
      · cases moved
        exact sound.moveIngest found (fun _ => alone) (fun _ => by decide) (by simp [point])
  · rename_i error point
    cases moved
    refine sound.moveIngest found (fun held => by cases held) (fun _ => ⟨by simp, by simp⟩) ?_
    simp [point]
  · cases moved

theorem Sound.resumeClose (sound : Sound s) {i : Nat} {contextDone : Bool}
    (moved : s.resumeClose i contextDone = some s') : Sound s' := by
  simp only [Service.resumeClose, Option.bind_eq_bind, Option.bind_eq_some_iff] at moved
  obtain ⟨point, found, moved⟩ := moved
  have member := List.mem_of_getElem? found
  have reading : point.holds = true → ∀ call ∈ s.ingests, call.point.holds = false := by
    intro held call inside
    by_contra reads
    rw [Bool.not_eq_false] at reads
    rw [sound.exclusive call inside reads point member] at held
    cases held
  split at moved
  · split at moved
    · cases moved
    · rename_i free
      cases moved
      simp only [not_or, Bool.not_eq_true, List.any_eq_false] at free
      exact sound.moveCloser found (fun _ => free.2) (fun _ => .inr free.1) nofun
  · split at moved
    · cases moved
      exact sound.moveCloser found (fun _ => reading rfl) (fun _ => .inl rfl) nofun
    · rename_i isOpen
      cases moved
      have openQueue : s.queueClosed = false := by
        by_contra closed
        rw [Bool.not_eq_false] at closed
        exact isOpen (sound.shut closed)
      have flagged := sound.setClosed ⟨_, member, rfl⟩
      exact flagged.moveCloser found (fun _ => reading rfl) (fun _ => .inl rfl) (fun _ => ⟨rfl, openQueue⟩)
  · have closing := sound.closing member
    split at moved
    · rename_i closed
      rw [closing.2] at closed
      cases closed
    · cases moved
      have unlocked : Sound (s.setCloser i .unlock) :=
        sound.moveCloser found (fun _ => reading rfl) (fun _ => .inl rfl) nofun
      refine unlocked.closeQueue closing.1 ?_
      intro other
      obtain ⟨j, found'⟩ := List.mem_iff_getElem?.mp other
      rw [getElem?_setCloser found] at found'
      by_cases same : i = j
      · rw [if_pos same] at found'
        cases found'
      · rw [if_neg same] at found'
        exact same (sound.single i j _ _ found found' rfl rfl)
  · cases moved
    exact sound.moveCloser found nofun nofun nofun
  · split at moved
    · cases moved
    · split at moved
      · cases moved
        exact sound.moveCloser found nofun nofun nofun
      · split at moved
        · cases moved
          exact sound.moveCloser found nofun nofun nofun
        · cases moved
  · cases moved

theorem Sound.resumeRun (sound : Sound s) {choice : RunChoice} (moved : s.resumeRun config choice = some s') :
    Sound s' := by
  unfold Service.resumeRun at moved
  split at moved
  · cases moved
  · split at moved
    · split at moved
      · rename_i events rest waiting
        cases moved
        exact sound.receive waiting false
      · rename_i empty
        split at moved
        · rename_i closed
          cases moved
          refine sound.flush.setRun .returned (fun _ => ?_) (fun _ => flush_pending)
          rw [flush_frame.1, flush_frame.2]
          exact ⟨closed, empty⟩
        · cases moved
    · cases moved
      exact sound.flush
    · cases moved
      exact sound.close.setRun _ nofun nofun
  · rename_i draining point
    cases moved
    have next : ∀ t : Service τ, Sound t → Sound { t with run := if draining then .drain else .select } := by
      intro t sound
      cases draining
      · exact sound.setRun .select nofun nofun
      · exact sound.setRun .drain nofun nofun
    split
    · exact next _ sound.flush
    · exact next _ sound
  · rename_i call point
    split at moved
    · rename_i done
      cases moved
      have ended : Sound (s.setCloser call (.returned none)) := sound.moveCloser done nofun nofun nofun
      exact ended.setRun .drain nofun nofun
    · cases moved
  · split at moved
    · rename_i events rest waiting
      cases moved
      exact sound.receive waiting true
    · rename_i empty
      split at moved
      · rename_i closed
        cases moved
        exact sound.setRun .lastFlush (fun _ => ⟨closed, empty⟩) nofun
      · cases moved
  · rename_i point
    cases moved
    refine sound.flush.setRun .returned (fun _ => ?_) (fun _ => flush_pending)
    rw [flush_frame.1, flush_frame.2]
    exact sound.drained (.inl point)
  · cases moved

theorem Reachable.sound {tables : CaseTables} {isZero : τ → Bool} (reached : Reachable config tables isZero s) :
    Sound s := by
  induction reached with
  | start => exact sound_new
  | @next s s' action _ moved ih =>
    cases action with
    | start =>
      simp only [step] at moved
      split at moved
      · cases moved
        exact ih.setRun .select nofun nofun
      · cases moved
    | ingest events eventIds =>
      simp only [step] at moved
      split at moved
      · cases moved
        exact ih.ingest _ rfl (by simp)
      · cases moved
        exact ih.ingest _ rfl (by simp)
    | resumeIngest i choice => exact ih.resumeIngest moved
    | shutdown =>
      cases moved
      exact ih.close
    | resumeClose i contextDone => exact ih.resumeClose moved
    | resumeRun choice => exact ih.resumeRun moved

/-- A call that has not failed before the lock has copied its events. -/
def Prepared (tables : CaseTables) (s : Service τ) : Prop :=
  ∀ call ∈ s.ingests, (∃ error, call.point = .returned (some error)) ∨ call.Copied tables

/-- What becomes of one event. -/
theorem prepareEvent_ok {tables : CaseTables} {isZero : τ → Bool} {event copy : LogEvent τ}
    {eventId : Except String String} (prepared : prepareEvent tables isZero event eventId = .ok copy) :
    Copies tables eventId event copy := by
  unfold prepareEvent redactEvent at prepared
  by_cases unnamed : event.eventId = ""
  · cases eventId with
    | error e => simp [unnamed, bind, Except.bind, Except.map] at prepared
    | ok id =>
      refine ⟨id, by simp [unnamed], ?_⟩
      simp only [unnamed, if_true, bind, Except.bind, Except.map] at prepared
      split at prepared
      · cases prepared
      · exact (Except.ok.inj prepared).symm
  · refine ⟨event.eventId, by simp [unnamed], ?_⟩
    simp only [unnamed, if_false, bind, Except.bind] at prepared
    split at prepared
    · cases prepared
    · exact (Except.ok.inj prepared).symm

/-- A loop that ends well has done its work on each element, in their order. -/
theorem mapM_each {α β ε : Type} {f : α → Except ε β} {list : List α} {done : List β} (run : list.mapM f = .ok done) :
    done.length = list.length ∧ ∀ (k : Nat) a b, list[k]? = some a → done[k]? = some b → f a = .ok b := by
  induction list generalizing done with
  | nil =>
    rw [List.mapM_nil] at run
    cases run
    exact ⟨rfl, by simp⟩
  | cons head tail ih =>
    rw [List.mapM_cons] at run
    cases here : f head with
    | error e =>
      rw [here] at run
      cases run
    | ok b =>
      cases later : tail.mapM f with
      | error e =>
        rw [here, later] at run
        cases run
      | ok rest =>
        rw [here, later] at run
        cases run
        obtain ⟨length, each⟩ := ih later
        refine ⟨by simp [length], ?_⟩
        intro k a c atList atDone
        cases k with
        | zero =>
          cases atList
          cases atDone
          exact here
        | succ k => exact each k a c atList atDone

theorem prepare_ok {tables : CaseTables} {isZero : τ → Bool} {events copied : List (LogEvent τ)}
    {eventIds : Nat → Except String String} (prepared : prepare tables isZero events eventIds = .ok copied)
    (point : IngestPoint) : IngestCall.Copied tables ⟨events, eventIds, copied, point⟩ := by
  unfold prepare at prepared
  split at prepared
  · cases prepared
  · obtain ⟨length, each⟩ := mapM_each prepared
    refine ⟨by simpa using length, ?_⟩
    intro k event copy given made
    have numbered : events.zipIdx[k]? = some (event, k) := by simp [List.getElem?_zipIdx, given]
    exact prepareEvent_ok (each k (event, k) copy numbered made)

theorem Prepared.setIngest {tables : CaseTables} (prepared : Prepared tables s) {i : Nat} {call : IngestCall τ}
    (found : s.ingests[i]? = some call) (going : ∀ error, call.point ≠ .returned error) (point : IngestPoint) :
    Prepared tables (s.setIngest i call point) := by
  intro other member
  rcases mem_setIngest member with old | rfl
  · exact prepared other old
  · right
    rcases prepared call (List.mem_of_getElem? found) with ⟨error, failed⟩ | copied
    · exact absurd failed (going _)
    · exact ⟨copied.length, copied.each⟩

theorem Prepared.resumeIngest {tables : CaseTables} (prepared : Prepared tables s) {i : Nat} {choice : Choice}
    (moved : s.resumeIngest config i choice = some s') : Prepared tables s' := by
  simp only [Service.resumeIngest, Option.bind_eq_bind, Option.bind_eq_some_iff] at moved
  obtain ⟨call, found, moved⟩ := moved
  have goes : (∀ error, call.point ≠ .returned error) → ∀ point, Prepared tables (s.setIngest i call point) :=
    fun going point => prepared.setIngest found going point
  split at moved
  · rename_i point
    split at moved
    · cases moved
    · cases moved
      exact goes (by simp [point]) _
  · rename_i point
    split at moved <;> cases moved <;> exact goes (by simp [point]) _
  · rename_i point
    split at moved
    · split at moved
      · cases moved
        exact prepared
      · split at moved
        · cases moved
          exact goes (by simp [point]) _
        · cases moved
    · cases moved
      exact goes (by simp [point]) _
    · split at moved
      · cases moved
      · cases moved
        exact goes (by simp [point]) _
  · rename_i error point
    cases moved
    exact goes (by simp [point]) _
  · cases moved

/-- No other goroutine touches the calls of `Ingest`. -/
theorem resumeClose_ingests {i : Nat} {contextDone : Bool} (moved : s.resumeClose i contextDone = some s') :
    s'.ingests = s.ingests := by
  simp only [Service.resumeClose, Option.bind_eq_bind, Option.bind_eq_some_iff] at moved
  obtain ⟨point, found, moved⟩ := moved
  split at moved
  · split at moved <;> cases moved
    rfl
  · split at moved <;> cases moved <;> rfl
  · split at moved <;> cases moved <;> rfl
  · cases moved
    rfl
  · split at moved
    · cases moved
    · split at moved
      · cases moved
        rfl
      · split at moved <;> cases moved
        rfl
  · cases moved

theorem flush_ingests : s.flush.ingests = s.ingests := by
  unfold Service.flush
  split <;> rfl

theorem resumeRun_ingests {choice : RunChoice} (moved : s.resumeRun config choice = some s') :
    s'.ingests = s.ingests := by
  unfold Service.resumeRun at moved
  split at moved
  · cases moved
  · split at moved
    · split at moved
      · cases moved
        rfl
      · split at moved
        · cases moved
          exact flush_ingests
        · cases moved
    · cases moved
      exact flush_ingests
    · cases moved
      rfl
  · cases moved
    split
    · exact flush_ingests
    · rfl
  · split at moved <;> cases moved
    rfl
  · split at moved
    · cases moved
      rfl
    · split at moved <;> cases moved
      rfl
  · cases moved
    exact flush_ingests
  · cases moved

theorem Reachable.prepared {tables : CaseTables} {isZero : τ → Bool} (reached : Reachable config tables isZero s) :
    Prepared tables s := by
  induction reached with
  | start =>
    intro call member
    cases member
  | @next s s' action _ moved ih =>
    have same : s'.ingests = s.ingests → Prepared tables s' := by
      intro same call member
      exact ih call (same ▸ member)
    cases action with
    | start =>
      simp only [step] at moved
      split at moved <;> cases moved
      exact same rfl
    | ingest events eventIds =>
      simp only [step] at moved
      split at moved
      · cases moved
        intro call member
        rcases List.mem_append.mp member with old | new
        · exact ih call old
        · rw [List.mem_singleton.mp new]
          exact .inl ⟨_, rfl⟩
      · rename_i copied done
        cases moved
        intro call member
        rcases List.mem_append.mp member with old | new
        · exact ih call old
        · rw [List.mem_singleton.mp new]
          exact .inr (prepare_ok done _)
    | resumeIngest i choice => exact ih.resumeIngest moved
    | shutdown =>
      cases moved
      exact same rfl
    | resumeClose i contextDone => exact same (resumeClose_ingests moved)
    | resumeRun choice => exact same (resumeRun_ingests moved)

/-- Lists that are made of related lists. -/
theorem forall₂_flatMap {α β γ : Type} {R : β → γ → Prop} {f : α → List β} {g : α → List γ} {list : List α}
    (each : ∀ a ∈ list, List.Forall₂ R (f a) (g a)) : List.Forall₂ R (list.flatMap f) (list.flatMap g) := by
  induction list with
  | nil => exact .nil
  | cons head tail ih =>
    have later := ih fun a member => each a (List.mem_cons_of_mem head member)
    rw [List.flatMap_cons, List.flatMap_cons]
    exact List.rel_append (each head List.mem_cons_self) later

/-- The copies of a call stand for its events, one for one. -/
theorem copied_forall₂ {tables : CaseTables} {call : IngestCall τ} (copied : call.Copied tables) :
    List.Forall₂ (fun event copy => ∃ eventId, Copies tables eventId event copy) call.events call.copied := by
  rw [List.forall₂_iff_get]
  refine ⟨copied.length.symm, ?_⟩
  intro k inside there
  exact ⟨_, copied.each k _ _ (List.getElem?_eq_getElem inside) (List.getElem?_eq_getElem there)⟩

/-- Under every schedule of any calls: nothing is sent on the closed channel, a call
that returns an error has sent nothing, no batch is empty, and when `run` has returned
its batches are together the events that the calls which returned nil were given, each
redacted and with an id, in the order of their sends. -/
theorem accepted_events_written (config : Config) (tables : CaseTables) (isZero : τ → Bool)
    (reached : Reachable config tables isZero s) :
    s.panicked = false ∧
      (∀ i call error, s.ingests[i]? = some call → call.point = .returned (some error) → i ∉ s.sends) ∧
      (∀ batch ∈ s.written, batch ≠ []) ∧
      (s.run = .returned →
        s.written.flatten = s.accepted ∧ s.sends.Nodup ∧
          (∀ i, i ∈ s.sends ↔ ∃ call, s.ingests[i]? = some call ∧ call.point = .returned none) ∧
          (∀ (i : Nat) (call : IngestCall τ), s.ingests[i]? = some call → call.point = .returned none →
            call.Copied tables) ∧
          List.Forall₂ (fun event copy => ∃ eventId, Copies tables eventId event copy) s.given s.written.flatten) := by
  have sound := reached.sound
  have copied : ∀ (i : Nat) (call : IngestCall τ), s.ingests[i]? = some call → call.point = .returned none →
      call.Copied tables := by
    intro i call found done
    rcases reached.prepared call (List.mem_of_getElem? found) with ⟨error, failed⟩ | copied
    · rw [done] at failed
      cases failed
    · exact copied
  refine ⟨sound.calm, ?_, sound.nonempty, ?_⟩
  · intro i call error found failed sent
    obtain ⟨other, same, point⟩ := (sound.sent i).mp sent
    rw [found] at same
    cases same
    rw [failed] at point
    simp at point
  · intro ended
    obtain ⟨closed, empty⟩ := sound.drained (.inr ended)
    have written : s.written.flatten = s.accepted := by
      rw [sound.conserved, empty, sound.flushed ended]
      simp
    have sent : ∀ i, i ∈ s.sends ↔ ∃ call, s.ingests[i]? = some call ∧ call.point = .returned none := by
      intro i
      rw [sound.sent i]
      constructor
      · rintro ⟨call, found, point⟩
        have past := (sound.late (sound.shut closed) call (List.mem_of_getElem? found)).2
        exact ⟨call, found, point.resolve_left past⟩
      · rintro ⟨call, found, point⟩
        exact ⟨call, found, .inr point⟩
    refine ⟨written, sound.once, sent, copied, ?_⟩
    rw [written]
    unfold given accepted
    refine forall₂_flatMap ?_
    intro i member
    obtain ⟨call, found, done⟩ := (sent i).mp member
    rw [copiedOf, found]
    exact copied_forall₂ (copied i call found done)

theorem Reachable.replay {tables : CaseTables} {isZero : τ → Bool} {actions : List (ServiceAction τ)}
    (reached : Reachable config tables isZero s) (all : s.replay config tables isZero actions = some s') :
    Reachable config tables isZero s' := by
  induction actions generalizing s with
  | nil => cases all; exact reached
  | cons action rest ih =>
    obtain ⟨middle, moved, later⟩ := Option.bind_eq_some_iff.mp all
    exact ih (reached.next moved) later

/-- A service takes the events of two calls, the second call first, and is shut down
before a third can send. One event comes without an id, and with a secret. -/
def shutdownRun : Option (Service Unit) :=
  let event (id : String) : LogEvent Unit :=
    ⟨id, (), "INFO", "backend", "started", "r1", some [("token", .str "t")]⟩
  Service.new.replay ⟨0, 2⟩ ⟨id, fun _ c _ => [c]⟩ (fun _ => false) [.start,
    .ingest [event "e1", event ""] fun _ => .ok "new", .ingest [event "e3"] fun _ => .ok "",
    .ingest [event "e4"] fun _ => .ok "", .resumeIngest 0 .send, .resumeIngest 1 .send, .resumeIngest 1 .send,
    .resumeIngest 1 .send, .resumeIngest 0 .send, .resumeRun .receive, .resumeIngest 0 .send, .resumeRun .receive,
    .resumeIngest 0 .send, .resumeIngest 1 .send, .shutdown, .resumeClose 0 false, .resumeClose 0 false,
    .resumeClose 0 false, .resumeClose 0 false, .resumeIngest 2 .send, .resumeIngest 2 .send, .resumeIngest 2 .send,
    .resumeRun .receive, .resumeRun .receive, .resumeRun .receive]

theorem accepted_events_written_shutdown :
    (shutdownRun.getD .new).sends = [1, 0] ∧
      (shutdownRun.getD .new).written.flatten.map LogEvent.eventId = ["e3", "e1", "new"] ∧
      List.Forall₂ (fun event copy => ∃ eventId, Copies ⟨id, fun _ c _ => [c]⟩ eventId event copy)
        (shutdownRun.getD .new).given (shutdownRun.getD .new).written.flatten := by
  have done : shutdownRun = some (shutdownRun.getD .new) := by
    have some : shutdownRun.isSome = true := by decide +kernel
    obtain ⟨last, found⟩ := Option.isSome_iff_exists.mp some
    rw [found]
    simp
  have written := (accepted_events_written _ _ _ (Reachable.replay .start done)).2.2.2 (by decide +kernel)
  exact ⟨by decide +kernel, by decide +kernel, written.2.2.2.2⟩

end Service

end Logging

end MonkeyOcr
