import MonkeyOcr.Application.Ports
import MonkeyOcr.Browser.Subscription

namespace MonkeyOcr

open Codec (Json)

/-- How pydantic writes JSON, a moment and a progress. -/
structure Serializer where
  dump : Json → List Char
  isoformat : Time → String
  fraction : Nat → String

/-- What a stream sends at once. An event is put into its envelope at a reading
of the clock. -/
inductive Frame
  | event (timestamp : Time) (event : JobEvent)
  | heartbeat

namespace Serializer

variable (serializer : Serializer)

/-- `JobEventDTO.from_domain` -/
def jobEventDto (event : JobEvent) : Json :=
  .obj [("event_id", .nat event.sequence), ("job_id", .str (textOf event.jobId)),
    ("event_type", .str event.eventType.text), ("status", .str event.state.text),
    ("progress", .float (serializer.fraction event.progress)),
    ("payload", .obj (("attempt", .nat event.attempt) :: event.data)),
    ("occurred_at", .str (serializer.isoformat event.occurredAt))]

/-- `ApiEnvelope.success` of an event. -/
def envelope (timestamp : Time) (event : JobEvent) : Json :=
  .obj [("internal_code", .nat InternalStatusCode.success.value), ("message", .str "操作成功"),
    ("data", serializer.jobEventDto event), ("timestamp", .str (serializer.isoformat timestamp)),
    ("request_id", .str event.requestId), ("error_reason", .null)]

/-- `envelope.model_dump_json()` -/
def json (timestamp : Time) (event : JobEvent) : List Char := serializer.dump (serializer.envelope timestamp event)

def lines : Frame → List (List Char)
  | .event timestamp event =>
    [['i', 'd', ':', ' '] ++ (toString event.sequence).toList,
      ['e', 'v', 'e', 'n', 't', ':', ' '] ++ event.eventType.text.toList,
      ['d', 'a', 't', 'a', ':', ' '] ++ serializer.json timestamp event]
  | .heartbeat => [[':', ' ', 'h', 'e', 'a', 'r', 't', 'b', 'e', 'a', 't']]

/-- The text of a frame up to the blank line that ends it. -/
def body (frame : Frame) : List Char := Text.unlines (serializer.lines frame)

/-- What the stream has sent. -/
def text (frames : List Frame) : List Char := frames.flatMap fun frame => serializer.body frame ++ ['\n', '\n']

/-- No envelope has a line end in its JSON. -/
def Inline : Prop := ∀ timestamp event, Text.Inline (serializer.json timestamp event)

variable {serializer : Serializer}

theorem inline_toString (n : Nat) : Text.Inline (toString n).toList := by
  intro c member
  have digits : c ∈ Nat.toDigits 10 n := by simpa using member
  have digit := Nat.isDigit_of_mem_toDigits (by decide) (by decide) digits
  constructor
  · intro same
    rw [same] at digit
    cases digit
  · intro same
    rw [same] at digit
    cases digit

theorem lines_inline (inline : serializer.Inline) (frame : Frame) :
    ∀ line ∈ serializer.lines frame, Text.Inline line ∧ line ≠ [] := by
  cases frame with
  | heartbeat =>
    intro line member
    cases List.mem_singleton.mp member
    exact ⟨by decide, List.cons_ne_nil _ _⟩
  | event timestamp event =>
    have id : Text.Inline ['i', 'd', ':', ' '] := by decide
    have name : Text.Inline ['e', 'v', 'e', 'n', 't', ':', ' '] := by decide
    have data : Text.Inline ['d', 'a', 't', 'a', ':', ' '] := by decide
    have type : Text.Inline event.eventType.text.toList := by
      cases event.eventType <;> decide
    intro line member
    simp only [lines, List.mem_cons, List.not_mem_nil, or_false] at member
    rcases member with rfl | rfl | rfl
    · exact ⟨id.append (inline_toString _), List.cons_ne_nil _ _⟩
    · exact ⟨name.append type, List.cons_ne_nil _ _⟩
    · exact ⟨data.append (inline timestamp event), List.cons_ne_nil _ _⟩

/-- The blocks of a stream are the bodies of its frames. -/
theorem blocks_text (inline : serializer.Inline) (frames : List Frame) :
    Text.blocks (serializer.text frames) = (frames.map serializer.body, []) := by
  induction frames with
  | nil => rfl
  | cons frame rest ih =>
    have written : serializer.lines frame ≠ [] := by cases frame <;> exact List.cons_ne_nil _ _
    have first := Text.blocks_unlines (serializer.text rest) written (lines_inline inline frame)
    have body : serializer.text (frame :: rest) =
        Text.unlines (serializer.lines frame) ++ '\n' :: '\n' :: serializer.text rest := by
      simp [text, Serializer.body]
    rw [body, first, ih]
    rfl

/-- What the browser reads in the block of a frame. -/
def message (serializer : Serializer) : Frame → Option Browser.SseMessage
  | .event timestamp event =>
    some ⟨some (toString event.sequence).toList, some event.eventType.text.toList, serializer.json timestamp event⟩
  | .heartbeat => none

theorem parseSseBlock_body (inline : serializer.Inline) (frame : Frame) :
    Browser.parseSseBlock (serializer.body frame) = serializer.message frame := by
  have inside : ∀ line ∈ serializer.lines frame, Text.Inline line :=
    fun line member => (lines_inline inline frame line member).1
  have written : serializer.lines frame ≠ [] := by cases frame <;> exact List.cons_ne_nil _ _
  unfold Browser.parseSseBlock body
  rw [Text.lines_unlines written inside]
  cases frame with
  | heartbeat => rfl
  | event timestamp event =>
    simp [lines, Browser.Fields.read, Browser.lineField, message, Text.unlines]

end Serializer
end MonkeyOcr
