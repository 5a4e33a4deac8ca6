import MonkeyOcr.Codec.Maps
import MonkeyOcr.Logging.Event
import MonkeyOcr.Text.Timestamp

namespace MonkeyOcr

namespace Logging

open Codec Rfc3339

/-- A `LogEvent`, whose numbers are held as they are written. -/
structure Event extends LogEvent Timestamp where
  numbers : ∀ members ∈ metadata, Json.LiteralsMembers members

/-- The event with its metadata as the map it is. -/
def Event.normal (event : Event) : LogEvent Timestamp :=
  { event.toLogEvent with metadata := event.metadata.map (Json.normalMembers []) }

/-! ### The lines of a file -/

/-- What `encoding/json` writes for a character of a string. It spares HTML. -/
def goEscape (c : Char) : List Char :=
  if c = '<' then ['\\', 'u', '0', '0', '3', 'c']
  else if c = '>' then ['\\', 'u', '0', '0', '3', 'e']
  else if c = '&' then ['\\', 'u', '0', '0', '2', '6']
  else if c.toNat = 0x2028 then ['\\', 'u', '2', '0', '2', '8']
  else if c.toNat = 0x2029 then ['\\', 'u', '2', '0', '2', '9']
  else Json.escape c

/-- The members of an event in the order of its fields; maps are written by their keys in order. -/
def Event.members (event : Event) (timestamp : List Char) : List (String × Json) :=
  [("event_id", .str event.eventId), ("timestamp", .str (String.ofList timestamp)), ("level", .str event.level),
    ("service", .str event.service), ("message", .str event.message), ("trace_id", .str event.traceId),
    ("metadata", Json.ofOption (fun members => .obj (Json.normalMembers [] members)) event.metadata)]

/-- `Encoder.Encode` without its line break. -/
def Event.encode (event : Event) : Option (List Char) :=
  event.timestamp.marshal.map fun timestamp => Json.written goEscape (.obj (event.members timestamp))

/-- A field of type `string`. The lines are the service's own, with the names of the fields as
they are. -/
def stringField (members : List (String × Json)) (key : String) : Option String :=
  match Json.get? members key with
  | none | some .null => some ""
  | some (.str value) => some value
  | _ => none

/-- `time.Time{}` -/
def zeroTime : Timestamp where
  year := 1
  month := 1
  day := 1
  hour := 0
  minute := 0
  second := 0
  nanosecond := 0
  offset := 0
  year_valid := by decide
  date_valid := by decide
  time_valid := by decide

def timestampField (members : List (String × Json)) (key : String) : Option Timestamp :=
  match Json.get? members key with
  | none | some .null => some zeroTime
  | some (.str value) => Timestamp.unmarshal value.toList
  | _ => none

def mapField (members : List (String × Json)) (key : String) : Option (Option (List (String × Json))) :=
  match Json.get? members key with
  | none | some .null => some none
  | some (.obj map) => some (some (Json.normalMembers [] map))
  | _ => none

/-- `json.Unmarshal` -/
def unmarshal (line : List Char) : Option (LogEvent Timestamp) := do
  match Json.read (some '\ufffd') line with
  | some (.obj members) =>
    let eventId ← stringField members "event_id"
    let timestamp ← timestampField members "timestamp"
    let level ← stringField members "level"
    let service ← stringField members "service"
    let message ← stringField members "message"
    let traceId ← stringField members "trace_id"
    let metadata ← mapField members "metadata"
    return { eventId, timestamp, level, service, message, traceId, metadata }
  | _ => none

/-- `bufio.MaxScanTokenSize` -/
def maxScanTokenSize : Nat := 64 * 1024

def byteSize (text : List Char) : Nat := (text.map Char.utf8Size).sum

/-- Without the carriage return at its end. -/
def dropCR (line : List Char) : List Char := if line.getLast? = some '\r' then line.dropLast else line

/-- The tokens of a `bufio.Scanner`, and whether it stops at one that is too long. The
buffer holds the line break of a line as well. `line` is what stands in it, last character first. -/
def scanLines (line : List Char) : List Char → List (List Char) × Bool
  | [] =>
    if line = [] then ([], false)
    else if maxScanTokenSize ≤ byteSize line then ([], true)
    else ([dropCR line.reverse], false)
  | c :: rest =>
    if c = '\n' then
      if maxScanTokenSize ≤ byteSize line then ([], true)
      else ((dropCR line.reverse) :: (scanLines [] rest).1, (scanLines [] rest).2)
    else scanLines (c :: line) rest

/-! ### `KafkaFallbackStore` -/

/-- A file that is there has a content. -/
abbrev File := Option (List Char)

def errorAndAuditOnly (event : Event) : Bool := event.level = "ERROR" ∨ event.level = "AUDIT"

def encodeAll (content : List Char) : List Event → Except String Unit × List Char
  | [] => (.ok (), content)
  | event :: rest =>
    match event.encode with
    | none => (.error "Time.MarshalJSON: timezone hour outside of range [0,23]", content)
    | some line => encodeAll (content ++ (line ++ ['\n'])) rest

def appendEvents (file : File) (events : List Event) : Except String Unit × File :=
  if events.length = 0 then (.ok (), file)
  else ((encodeAll (file.getD []) events).1, some (encodeAll (file.getD []) events).2)

def readEvents : File → Except String (List (LogEvent Timestamp))
  | none => .ok []
  | some content =>
    match ((scanLines [] content).1.filter (· ≠ [])).mapM unmarshal with
    | none => .error "invalid line"
    | some events => if (scanLines [] content).2 then .error "bufio.Scanner: token too long" else .ok events

/-- What `Publish` returns. -/
abbrev Publisher := List (LogEvent Timestamp) → Except String Unit

/-- The end of a replay, with the batches it has published. -/
structure Replay (σ : Type) where
  result : Except String Unit
  published : List (List (LogEvent Timestamp))
  left : σ

def replayFile (file : File) (publish : Publisher) : Replay File :=
  match readEvents file with
  | .error e => ⟨.error e, [], file⟩
  | .ok events =>
    if events.length = 0 then ⟨.ok (), [], file⟩
    else
      match publish events with
      | .error e => ⟨.error e, [events], file⟩
      | .ok () => ⟨.ok (), [events], some []⟩

structure FallbackStore where
  regular : File := none
  errorAudit : File := none

namespace FallbackStore

def writeBatch (store : FallbackStore) (events : List Event) : Except String Unit × FallbackStore :=
  let (errorAuditEvents, regularEvents) := events.partition errorAndAuditOnly
  match appendEvents store.regular regularEvents with
  | (.error e, regular) => (.error e, { store with regular })
  | (.ok (), regular) =>
    let (result, errorAudit) := appendEvents store.errorAudit errorAuditEvents
    (result, { regular, errorAudit })

def replayOnce (store : FallbackStore) (publisher : Option Publisher) : Replay FallbackStore :=
  match publisher with
  | none => ⟨.ok (), [], store⟩
  | some publish =>
    let first := replayFile store.regular publish
    match first.result with
    | .error e => ⟨.error e, first.published, { store with regular := first.left }⟩
    | .ok () =>
      let second := replayFile store.errorAudit publish
      ⟨second.result, first.published ++ second.published, { regular := first.left, errorAudit := second.left }⟩

end FallbackStore

/-! ### Reading what was written -/

theorem spells_goEscape (lone : Option Char) (c : Char) : Json.Spells lone c (goEscape c) := by
  have same : Char.ofNat c.toNat = c := Char.ofNat_toNat c
  rw [goEscape]
  split
  · rename_i less
    subst less
    intro rest
    rfl
  · split
    · rename_i greater
      subst greater
      intro rest
      rfl
    · split
      · rename_i ampersand
        subst ampersand
        intro rest
        rfl
      · split
        · rename_i separator
          rw [separator] at same
          subst same
          intro rest
          rfl
        · split
          · rename_i separator
            rw [separator] at same
            subst same
            intro rest
            rfl
          · exact Json.spells_escape lone c

theorem hexDigit_ne_newline : ∀ n < 16, '\n' ≠ Json.hexDigit n := by decide

theorem newline_escape (c : Char) : '\n' ∉ Json.escape c := by
  unfold Json.escape
  split
  · decide
  split
  · decide
  split
  · decide
  split
  · decide
  split
  · decide
  split
  · decide
  split
  · decide
  split
  · rename_i control
    have high := hexDigit_ne_newline (c.toNat / 16) (by omega)
    have low := hexDigit_ne_newline (c.toNat % 16) (by omega)
    simp [high, low]
  · rename_i other _ _ _ _ _
    simpa [eq_comm] using other

theorem newline_goEscape (c : Char) : '\n' ∉ goEscape c := by
  rw [goEscape]
  split
  · decide
  split
  · decide
  split
  · decide
  split
  · decide
  split
  · decide
  · exact newline_escape c

theorem Event.literals (event : Event) (timestamp : List Char) : Json.Literals (.obj (event.members timestamp)) := by
  have metadata : (Json.ofOption (fun members => .obj (Json.normalMembers [] members)) event.metadata).Literals := by
    have numbers := event.numbers
    cases here : event.metadata with
    | none => trivial
    | some members => exact @Json.normalMembers_literals [] trivial members (numbers members here)
  exact ⟨trivial, trivial, trivial, trivial, trivial, trivial, metadata, trivial⟩

/-- A line that is written is read back, as the event it was. -/
theorem unmarshal_encode {event : Event} {line : List Char} (written : event.encode = some line) :
    unmarshal line = some event.normal := by
  obtain ⟨timestamp, marshalled, rfl⟩ := Option.map_eq_some_iff.mp written
  have back := Json.read_written (spells_goEscape (some '\ufffd')) (event.literals timestamp)
  have time := Timestamp.unmarshal_marshal marshalled
  have twice : ∀ members, Json.normalMembers [] (Json.normalMembers [] members) = Json.normalMembers [] members :=
    fun members => Json.obj.inj (Json.normal_normal (.obj members))
  have fields : (event.members timestamp).map Prod.fst =
      ["event_id", "timestamp", "level", "service", "message", "trace_id", "metadata"] := rfl
  rw [unmarshal, back]
  cases metadata : event.metadata with
  | none =>
    simp [Event.members, stringField, timestampField, mapField, Json.get?, metadata, time, Event.normal, Json.ofOption]
  | some members =>
    simp [Event.members, stringField, timestampField, mapField, Json.get?, metadata, time, Event.normal, Json.ofOption, twice]

end Logging

end MonkeyOcr
