import MonkeyOcr.Logging.FallbackStore

namespace MonkeyOcr

namespace Logging

open Codec

inductive StoreCall
  | writeBatch (events : List Event)
  | replayOnce (publisher : Option Publisher)

def StoreCall.events : StoreCall → List Event
  | .writeBatch events => events
  | .replayOnce _ => []

/-- The store, and what was written to each file since it was last replayed with success. -/
structure Course where
  store : FallbackStore := {}
  regular : List Event := []
  errorAudit : List Event := []

/-- The course after a call, if the call is no `WriteBatch` that returns an error. -/
def Course.next (course : Course) : StoreCall → Option Course
  | .writeBatch events =>
    match course.store.writeBatch events with
    | (.error _, _) => none
    | (.ok (), store) => some
        { store
          regular := course.regular ++ events.filter (!errorAndAuditOnly ·)
          errorAudit := course.errorAudit ++ events.filter (errorAndAuditOnly ·) }
  | .replayOnce none => some { course with store := (course.store.replayOnce none).left }
  | .replayOnce (some publish) =>
    let regular := (replayFile course.store.regular publish).result.isOk
    let errorAudit := regular && (replayFile course.store.errorAudit publish).result.isOk
    some
      { store := (course.store.replayOnce (some publish)).left
        regular := if regular then [] else course.regular
        errorAudit := if errorAudit then [] else course.errorAudit }

def history (course : Course) : List StoreCall → Option Course
  | [] => some course
  | call :: rest => (course.next call).bind fun course => history course rest

/-- A replay to a publisher that accepts everything. -/
def Course.drain (course : Course) : Replay FallbackStore := course.store.replayOnce (some fun _ => .ok ())

/-- It publishes what was written, in order, and leaves nothing. -/
structure Drained (course : Course) : Prop where
  result : course.drain.result = .ok ()
  published : course.drain.published =
    ([course.regular, course.errorAudit].filter fun events => !events.isEmpty).map fun events => events.map Event.normal
  regular : course.drain.left.regular.getD [] = []
  errorAudit : course.drain.left.errorAudit.getD [] = []

def Event.line (event : Event) : List Char := event.encode.getD []

/-- The line of the event and its line break fit in the buffer of a scanner. -/
def Fits (event : Event) : Prop := byteSize event.line < maxScanTokenSize

/-- The lines of the events are in the file. -/
structure Content (file : File) (pending : List Event) : Prop where
  encoded : ∀ event ∈ pending, event.encode = some event.line
  text : file.getD [] = pending.flatMap fun event => event.line ++ ['\n']

section

variable {event : Event} {events pending : List Event} {file : File} {line word rest : List Char} {publish : Publisher}

/-! ### Lines -/

theorem byteSize_reverse (text : List Char) : byteSize text.reverse = byteSize text := by
  rw [byteSize, List.map_reverse, List.sum_reverse]
  rfl

theorem scanLines_line (plain : '\n' ∉ word) : scanLines line (word ++ '\n' :: rest) =
    if maxScanTokenSize ≤ byteSize (word.reverse ++ line) then ([], true)
    else (dropCR (word.reverse ++ line).reverse :: (scanLines [] rest).1, (scanLines [] rest).2) := by
  induction word generalizing line with
  | nil => rw [List.nil_append, scanLines, if_pos rfl]; rfl
  | cons c word ih =>
    have other : c ≠ '\n' := fun same => plain (same ▸ List.mem_cons_self)
    have later : '\n' ∉ word := fun member => plain (List.mem_cons_of_mem c member)
    rw [List.cons_append, scanLines, if_neg other, ih later, List.reverse_cons, List.append_assoc, List.singleton_append]

/-- A line is an object on one line. -/
theorem line_shape (encoded : event.encode = some line) : '\n' ∉ line ∧ line ≠ [] ∧ dropCR line = line := by
  obtain ⟨timestamp, -, rfl⟩ := Option.map_eq_some_iff.mp encoded
  refine ⟨Json.newline_written newline_goEscape _ (event.literals timestamp), ?_, ?_⟩
  · rw [Json.written]
    exact List.cons_ne_nil _ _
  · have last : (Json.written goEscape (.obj (event.members timestamp))).getLast? = some '\x7d' := by
      rw [Json.written, ← List.cons_append, List.getLast?_concat]
    rw [dropCR, last, if_neg (by decide)]

theorem scanLines_event (encoded : event.encode = some event.line) : scanLines [] (event.line ++ '\n' :: rest) =
    if maxScanTokenSize ≤ byteSize event.line then ([], true)
    else (event.line :: (scanLines [] rest).1, (scanLines [] rest).2) := by
  obtain ⟨plain, -, whole⟩ := line_shape encoded
  rw [scanLines_line plain, List.append_nil, byteSize_reverse, List.reverse_reverse, whole]

theorem flatMap_lines (event : Event) (pending : List Event) :
    ((event :: pending).flatMap fun event => event.line ++ ['\n']) =
      event.line ++ '\n' :: pending.flatMap fun event => event.line ++ ['\n'] := by
  rw [List.flatMap_cons, List.append_assoc, List.singleton_append]

/-- Lines that fit are the tokens of the scanner. -/
theorem scanLines_fits (encoded : ∀ event ∈ pending, event.encode = some event.line) (fits : ∀ event ∈ pending, Fits event) :
    scanLines [] (pending.flatMap fun event => event.line ++ ['\n']) = (pending.map Event.line, false) := by
  induction pending with
  | nil => rfl
  | cons event pending ih =>
    have here := encoded event List.mem_cons_self
    have short : ¬ maxScanTokenSize ≤ byteSize event.line := Nat.not_le.mpr (fits event List.mem_cons_self)
    have later := ih (fun e member => encoded e (List.mem_cons_of_mem _ member))
      fun e member => fits e (List.mem_cons_of_mem _ member)
    rw [flatMap_lines, scanLines_event here, if_neg short, later]
    rfl

/-- The scanner stops at a line that does not fit. -/
theorem scanLines_long (encoded : ∀ event ∈ pending, event.encode = some event.line)
    (long : ∃ event ∈ pending, ¬ Fits event) :
    (scanLines [] (pending.flatMap fun event => event.line ++ ['\n'])).2 = true := by
  induction pending with
  | nil =>
    obtain ⟨event, none, -⟩ := long
    cases none
  | cons event pending ih =>
    have here := encoded event List.mem_cons_self
    rw [flatMap_lines, scanLines_event here]
    by_cases short : maxScanTokenSize ≤ byteSize event.line
    · rw [if_pos short]
    · rw [if_neg short]
      obtain ⟨other, member, wide⟩ := long
      rcases List.mem_cons.mp member with rfl | later
      · exact absurd (Nat.not_le.mp short) wide
      · exact ih (fun e member => encoded e (List.mem_cons_of_mem _ member)) ⟨other, later, wide⟩

/-! ### Files -/

theorem mapM_unmarshal (encoded : ∀ event ∈ pending, event.encode = some event.line) :
    (pending.map Event.line).mapM unmarshal = some (pending.map Event.normal) := by
  induction pending with
  | nil => rfl
  | cons event pending ih =>
    have here := unmarshal_encode (encoded event List.mem_cons_self)
    have later := ih fun e member => encoded e (List.mem_cons_of_mem _ member)
    rw [List.map_cons, List.mapM_cons, here, later]
    rfl

theorem filter_lines (encoded : ∀ event ∈ pending, event.encode = some event.line) :
    (pending.map Event.line).filter (· ≠ []) = pending.map Event.line := by
  refine List.filter_eq_self.mpr fun line member => ?_
  obtain ⟨event, among, rfl⟩ := List.mem_map.mp member
  exact decide_eq_true (line_shape (encoded event among)).2.1

theorem Content.blank (content : Content none pending) : pending = [] := by
  cases pending with
  | nil => rfl
  | cons event pending =>
    have text := content.text
    rw [flatMap_lines] at text
    have size := congrArg List.length text
    simp at size

/-- A file whose lines fit is read as it was written. -/
theorem readEvents_fits (content : Content file pending) (fits : ∀ event ∈ pending, Fits event) :
    readEvents file = .ok (pending.map Event.normal) := by
  cases file with
  | none =>
    rw [content.blank]
    rfl
  | some text =>
    have same : text = _ := content.text
    rw [readEvents, same, scanLines_fits content.encoded fits]
    simp only [filter_lines content.encoded, mapM_unmarshal content.encoded]
    rfl

theorem readEvents_long (content : Content file pending) (long : ∃ event ∈ pending, ¬ Fits event) :
    ∃ e, readEvents file = .error e := by
  cases file with
  | none =>
    rw [content.blank] at long
    obtain ⟨event, none, -⟩ := long
    cases none
  | some text =>
    have same : text = _ := content.text
    have stopped := scanLines_long content.encoded long
    rw [← same] at stopped
    rw [readEvents]
    cases (List.filter (· ≠ []) (scanLines [] text).1).mapM unmarshal with
    | none => exact ⟨_, rfl⟩
    | some events => exact ⟨_, if_pos stopped⟩

/-- A replay that succeeds leaves an empty file, any other leaves the file as it is. -/
theorem replayFile_left (content : Content file pending) (publish : Publisher) :
    Content (replayFile file publish).left (if (replayFile file publish).result.isOk then [] else pending) := by
  have empty : Content (some []) [] := ⟨fun _ none => absurd none List.not_mem_nil, rfl⟩
  rw [replayFile]
  cases read : readEvents file with
  | error e => exact content
  | ok events =>
    dsimp only
    split
    · rename_i none
      have fits : ∀ event ∈ pending, Fits event := by
        by_contra long
        simp only [not_forall] at long
        obtain ⟨event, member, wide⟩ := long
        obtain ⟨e, failed⟩ := readEvents_long content ⟨event, member, wide⟩
        rw [read] at failed
        cases failed
      rw [readEvents_fits content fits] at read
      have same : pending.map Event.normal = events := Except.ok.inj read
      have nothing : pending = [] := by
        rw [← same, List.length_map] at none
        exact List.length_eq_zero_iff.mp none
      subst nothing
      exact content
    · cases publish events with
      | error e => exact content
      | ok => exact empty

/-- A line that does not fit stays, and so does all that is in the file. -/
theorem replayFile_long (content : Content file pending) (long : ∃ event ∈ pending, ¬ Fits event) (publish : Publisher) :
    ∃ e, replayFile file publish = ⟨.error e, [], file⟩ := by
  obtain ⟨e, failed⟩ := readEvents_long content long
  exact ⟨e, by rw [replayFile, failed]⟩

/-- What is accepted is what was written. -/
theorem replayFile_fits (content : Content file pending) (fits : ∀ event ∈ pending, Fits event) :
    (replayFile file fun _ => .ok ()).result = .ok () ∧
    (replayFile file fun _ => .ok ()).published =
      ([pending].filter fun events => !events.isEmpty).map (fun events => events.map Event.normal) ∧
    (replayFile file fun _ => .ok ()).left.getD [] = [] := by
  rw [replayFile, readEvents_fits content fits]
  cases pending with
  | nil => exact ⟨rfl, rfl, content.text⟩
  | cons event pending => exact ⟨rfl, rfl, rfl⟩

theorem encodeAll_ok {text : List Char} (ok : (encodeAll text events).1 = .ok ()) :
    (∀ event ∈ events, event.encode = some event.line) ∧
      (encodeAll text events).2 = text ++ events.flatMap fun event => event.line ++ ['\n'] := by
  induction events generalizing text with
  | nil => exact ⟨fun _ none => absurd none List.not_mem_nil, (List.append_nil text).symm⟩
  | cons event events ih =>
    cases here : event.encode with
    | none =>
      rw [encodeAll, here] at ok
      cases ok
    | some line =>
      have own : event.line = line := by rw [Event.line, here]; rfl
      simp only [encodeAll, here] at ok ⊢
      obtain ⟨later, written⟩ := ih ok
      refine ⟨fun e member => ?_, ?_⟩
      · rcases List.mem_cons.mp member with rfl | member
        · rw [here, own]
        · exact later e member
      · rw [written, flatMap_lines, own]
        simp

/-- Events are appended to what is there. -/
theorem appendEvents_ok (content : Content file pending) (ok : (appendEvents file events).1 = .ok ()) :
    Content (appendEvents file events).2 (pending ++ events) := by
  rw [appendEvents] at ok ⊢
  split at ok
  · rename_i none
    rw [if_pos none, List.length_eq_zero_iff.mp none, List.append_nil]
    exact content
  · rename_i some
    obtain ⟨encoded, written⟩ := encodeAll_ok ok
    rw [if_neg some]
    refine ⟨fun event member => ?_, ?_⟩
    · rcases List.mem_append.mp member with old | new
      · exact content.encoded event old
      · exact encoded event new
    · rw [List.flatMap_append, ← content.text]
      exact written

/-! ### Runs -/

/-- Both files hold what is pending, and an event that does not fit is pending forever. -/
structure Course.Keeps (course : Course) (written : List Event) : Prop where
  regular : Content course.store.regular course.regular
  errorAudit : Content course.store.errorAudit course.errorAudit
  known : ∀ event, event ∈ course.regular ∨ event ∈ course.errorAudit → event ∈ written
  long : ∀ event ∈ written, ¬ Fits event → event ∈ course.regular ∨ event ∈ course.errorAudit

theorem writeBatch_ok {store store' : FallbackStore} (ok : store.writeBatch events = (.ok (), store')) :
    (appendEvents store.regular (events.filter (!errorAndAuditOnly ·))).1 = .ok () ∧
    (appendEvents store.errorAudit (events.filter (errorAndAuditOnly ·))).1 = .ok () ∧
    store'.regular = (appendEvents store.regular (events.filter (!errorAndAuditOnly ·))).2 ∧
    store'.errorAudit = (appendEvents store.errorAudit (events.filter (errorAndAuditOnly ·))).2 := by
  have parts : events.partition errorAndAuditOnly =
      (events.filter (errorAndAuditOnly ·), events.filter (!errorAndAuditOnly ·)) := List.partition_eq_filter_filter
  simp only [FallbackStore.writeBatch, parts] at ok
  cases first : appendEvents store.regular (events.filter (!errorAndAuditOnly ·)) with
  | mk result regular =>
    rw [first] at ok
    cases result with
    | error e => cases ok
    | ok =>
      cases second : appendEvents store.errorAudit (events.filter (errorAndAuditOnly ·)) with
      | mk result errorAudit =>
        rw [second] at ok
        cases ok
        exact ⟨rfl, rfl, rfl, rfl⟩

/-- What a replay leaves of the two files. -/
theorem replayOnce_left (store : FallbackStore) (publish : Publisher) :
    (store.replayOnce (some publish)).left.regular = (replayFile store.regular publish).left ∧
    (store.replayOnce (some publish)).left.errorAudit =
      if (replayFile store.regular publish).result.isOk then (replayFile store.errorAudit publish).left
      else store.errorAudit := by
  rw [FallbackStore.replayOnce]
  cases result : (replayFile store.regular publish).result with
  | error e => simp [Except.isOk, Except.toBool]
  | ok => simp [Except.isOk, Except.toBool]

theorem Course.Keeps.next {course course' : Course} {written : List Event} (keeps : course.Keeps written) {call : StoreCall}
    (next : course.next call = some course') : course'.Keeps (written ++ call.events) := by
  cases call with
  | writeBatch events =>
    rw [Course.next] at next
    cases result : course.store.writeBatch events with
    | mk answer store =>
      rw [result] at next
      cases answer with
      | error e => cases next
      | ok =>
        obtain ⟨first, second, regular, errorAudit⟩ := writeBatch_ok result
        cases next
        refine ⟨?_, ?_, fun event member => ?_, fun event member wide => ?_⟩
        · exact regular ▸ appendEvents_ok keeps.regular first
        · exact errorAudit ▸ appendEvents_ok keeps.errorAudit second
        · simp only [List.mem_append, List.mem_filter, StoreCall.events] at member ⊢
          have before := keeps.known event
          tauto
        · simp only [List.mem_append, List.mem_filter, StoreCall.events] at member ⊢
          have before := keeps.long event
          cases kind : errorAndAuditOnly event with
          | true => tauto
          | false => simp; tauto
  | replayOnce publisher =>
    rw [StoreCall.events, List.append_nil]
    cases publisher with
    | none =>
      cases next
      exact keeps
    | some publish =>
      obtain ⟨regular, errorAudit⟩ := replayOnce_left course.store publish
      have first := replayFile_left keeps.regular publish
      have second := replayFile_left keeps.errorAudit publish
      cases next
      refine ⟨?_, ?_, fun event member => ?_, fun event member wide => ?_⟩
      · exact regular ▸ first
      · dsimp only
        rw [errorAudit]
        cases (replayFile course.store.regular publish).result.isOk with
        | false => exact keeps.errorAudit
        | true => exact second
      · refine keeps.known event (member.imp ?_ ?_)
        · intro member
          dsimp only at member
          split at member
          · exact absurd member List.not_mem_nil
          · exact member
        · intro member
          dsimp only at member
          split at member
          · exact absurd member List.not_mem_nil
          · exact member
      · rcases keeps.long event member wide with here | here
        · obtain ⟨e, failed⟩ := replayFile_long keeps.regular ⟨event, here, wide⟩ publish
          left
          dsimp only
          rw [failed]
          exact here
        · obtain ⟨e, failed⟩ := replayFile_long keeps.errorAudit ⟨event, here, wide⟩ publish
          right
          dsimp only
          rw [failed]
          simpa [Except.isOk, Except.toBool] using here

theorem Course.Keeps.history {course course' : Course} {written : List Event} {calls : List StoreCall}
    (keeps : course.Keeps written) (ran : history course calls = some course') :
    course'.Keeps (written ++ calls.flatMap StoreCall.events) := by
  induction calls generalizing course written with
  | nil =>
    cases ran
    rw [List.flatMap_nil, List.append_nil]
    exact keeps
  | cons call calls ih =>
    obtain ⟨middle, next, rest⟩ := Option.bind_eq_some_iff.mp ran
    have later := ih (keeps.next next) rest
    rw [List.append_assoc] at later
    exact later

theorem keeps_new : Course.Keeps {} [] :=
  ⟨⟨fun _ none => absurd none List.not_mem_nil, rfl⟩, ⟨fun _ none => absurd none List.not_mem_nil, rfl⟩,
    fun _ none => absurd none (by simp), fun _ none => absurd none List.not_mem_nil⟩

theorem drained_of_fits {course : Course} {written : List Event} (keeps : course.Keeps written)
    (fits : ∀ event ∈ written, Fits event) : Drained course := by
  obtain ⟨result, published, left⟩ := replayFile_fits keeps.regular fun e member => fits e (keeps.known e (.inl member))
  obtain ⟨result', published', left'⟩ :=
    replayFile_fits keeps.errorAudit fun e member => fits e (keeps.known e (.inr member))
  have drain : course.drain = ⟨(replayFile course.store.errorAudit fun _ => .ok ()).result,
      (replayFile course.store.regular fun _ => .ok ()).published ++
        (replayFile course.store.errorAudit fun _ => .ok ()).published,
      ⟨(replayFile course.store.regular fun _ => .ok ()).left, (replayFile course.store.errorAudit fun _ => .ok ()).left⟩⟩ := by
    rw [Course.drain, FallbackStore.replayOnce]
    simp only [result]
  refine ⟨?_, ?_, ?_, ?_⟩
  · rw [drain]
    exact result'
  · rw [drain]
    dsimp only
    rw [published, published', ← List.map_append, ← List.filter_append]
    rfl
  · rw [drain]
    exact left
  · rw [drain]
    exact left'

/-- An event that does not fit stops every replay. -/
theorem not_drained_of_long {course : Course} {written : List Event} (keeps : course.Keeps written) {event : Event}
    (member : event ∈ written) (wide : ¬ Fits event) : ¬ Drained course := by
  intro drained
  have result := drained.result
  rw [Course.drain, FallbackStore.replayOnce] at result
  rcases keeps.long event member wide with here | here
  · obtain ⟨e, failed⟩ := replayFile_long keeps.regular ⟨event, here, wide⟩ fun _ => .ok ()
    simp only [failed] at result
    cases result
  · obtain ⟨e, failed⟩ := replayFile_long keeps.errorAudit ⟨event, here, wide⟩ fun _ => .ok ()
    cases first : (replayFile course.store.regular fun _ => .ok ()).result with
    | error e =>
      simp only [first] at result
      cases result
    | ok =>
      simp only [first, failed] at result
      cases result

end

/-- The store can be drained exactly if all events that were written fit in the buffer of the
scanner. -/
theorem fallback_drained_iff {calls : List StoreCall} {course : Course} (ran : history {} calls = some course) :
    Drained course ↔ ∀ event ∈ calls.flatMap StoreCall.events, Fits event := by
  have keeps : course.Keeps (calls.flatMap StoreCall.events) := keeps_new.history ran
  constructor
  · intro drained event member
    by_contra wide
    exact not_drained_of_long keeps member wide drained
  · exact drained_of_fits keeps

/-! ### Two stores -/

/-- An event of a service that is starting. -/
def startEvent (level message : String) : Event where
  eventId := "00000000-0000-4000-8000-000000000001"
  timestamp := { zeroTime with
    year := 2026
    offset := 90
    year_valid := by decide
    date_valid := by decide }
  level := level
  service := "monkeyocr-backend"
  message := message
  traceId := ""
  metadata := some [("stage", .str "<boot>"), ("port", .int 8080)]
  numbers := by
    intro members some
    cases some
    exact ⟨trivial, trivial, trivial⟩

/-- Kafka refuses a replay, and more is written before the next one. -/
def refusedCalls : List StoreCall :=
  [.writeBatch [startEvent "INFO" "started", startEvent "ERROR" "no engine"], .replayOnce (some fun _ => .error "refused"),
    .writeBatch [startEvent "AUDIT" "login"]]

theorem fallback_drained_refused : ∃ course, history {} refusedCalls = some course ∧
    course.regular.length = 1 ∧ course.errorAudit.length = 2 ∧
      (Drained course ↔ ∀ event ∈ refusedCalls.flatMap StoreCall.events, Fits event) := by
  have played : (history {} refusedCalls).map (fun course => (course.regular.length, course.errorAudit.length)) =
      some (1, 2) := by decide +kernel
  obtain ⟨course, ran, sizes⟩ := Option.map_eq_some_iff.mp played
  obtain ⟨regular, errorAudit⟩ := Prod.mk.inj sizes
  exact ⟨course, ran, regular, errorAudit, fallback_drained_iff ran⟩

theorem byteSize_append (first second : List Char) : byteSize (first ++ second) = byteSize first + byteSize second := by
  rw [byteSize, List.map_append, List.sum_append]
  rfl

theorem byteSize_cons (c : Char) (rest : List Char) : byteSize (c :: rest) = c.utf8Size + byteSize rest := by
  rw [byteSize, List.map_cons, List.sum_cons]
  rfl

theorem length_le_byteSize (text : List Char) : text.length ≤ byteSize text := by
  induction text with
  | nil => exact Nat.zero_le _
  | cons c text ih =>
    have some : 0 < c.utf8Size := Char.utf8Size_pos c
    rw [byteSize_cons, List.length_cons]
    omega

/-- The line of an event is at least as long as its trace id. -/
theorem traceId_le_line {event : Event} {line : List Char} (encoded : event.encode = some line) :
    byteSize (event.traceId.toList.flatMap goEscape) ≤ byteSize line := by
  obtain ⟨timestamp, -, rfl⟩ := Option.map_eq_some_iff.mp encoded
  simp only [Event.members, Json.written, Json.writtenMembers_cons, byteSize_append, byteSize_cons]
  omega

/-- An event with a trace id of 64 KiB. -/
def longEvent : Event := { startEvent "INFO" "started" with traceId := String.ofList (List.replicate maxScanTokenSize 'a') }

theorem longEvent_valid : validateEvent (fun timestamp => timestamp.year = 1) longEvent.toLogEvent = .ok () := by
  decide +kernel

theorem longEvent_encoded : ∃ line, longEvent.encode = some line := by
  refine Option.isSome_iff_exists.mp ?_
  rw [Event.encode, Option.isSome_map]
  decide +kernel

theorem longEvent_wide : ¬ Fits longEvent := by
  obtain ⟨line, some⟩ := longEvent_encoded
  have size := traceId_le_line some
  have plain : goEscape 'a' = ['a'] := by decide +kernel
  have same : longEvent.traceId.toList.flatMap goEscape = List.replicate maxScanTokenSize 'a' := by
    rw [show longEvent.traceId = String.ofList (List.replicate maxScanTokenSize 'a') from rfl, String.toList_ofList,
      List.flatMap_replicate, plain, List.flatten_replicate_singleton]
  have long := length_le_byteSize (List.replicate maxScanTokenSize 'a')
  rw [List.length_replicate] at long
  rw [same] at size
  rw [Fits, Event.line, some]
  exact Nat.not_lt.mpr (long.trans size)

/-- A store with one long event cannot be drained, though the event is valid. -/
theorem fallback_not_drained : ¬ ∀ calls course,
    (∀ event ∈ calls.flatMap StoreCall.events, validateEvent (fun timestamp => timestamp.year = 1) event.toLogEvent = .ok ()) →
      history {} calls = some course → Drained course := by
  intro drained
  obtain ⟨line, some⟩ := longEvent_encoded
  have kind : errorAndAuditOnly longEvent = false := by decide +kernel
  have ran : ∃ course, history {} [.writeBatch [longEvent]] = Option.some course := by
    simp [history, Course.next, FallbackStore.writeBatch, appendEvents, encodeAll, some, kind]
  obtain ⟨course, ran⟩ := ran
  have keeps : course.Keeps _ := keeps_new.history ran
  have valid : ∀ event ∈ [StoreCall.writeBatch [longEvent]].flatMap StoreCall.events,
      validateEvent (fun timestamp => timestamp.year = 1) event.toLogEvent = .ok () := by
    intro event member
    rw [List.mem_singleton.mp member]
    exact longEvent_valid
  exact not_drained_of_long keeps (by simp [StoreCall.events]) longEvent_wide (drained _ course valid ran)

end Logging

end MonkeyOcr
