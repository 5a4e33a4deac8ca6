import MonkeyOcr.Browser.Number
import MonkeyOcr.Codec.Json
import MonkeyOcr.Text.Blocks

namespace MonkeyOcr.Browser

open Codec (Json)

structure SseMessage where
  id : Option (List Char)
  event : Option (List Char)
  data : List Char

/-- The name and the value of a line of a block. One space after the colon is
not part of the value. -/
def lineField (rawLine : List Char) : List Char × List Char :=
  match rawLine.dropWhile (· ≠ ':') with
  | [] => (rawLine, [])
  | _ :: value =>
    (rawLine.takeWhile (· ≠ ':'), match value with
      | ' ' :: rest => rest
      | value => value)

/-- The variables of `parseSseBlock`. -/
structure Fields where
  id : Option (List Char) := none
  event : Option (List Char) := none
  data : List (List Char) := []

def Fields.read (fields : Fields) (rawLine : List Char) : Fields :=
  if rawLine.isEmpty ∨ rawLine.head? = some ':' then fields
  else
    let (field, value) := lineField rawLine
    let fields := if field = ['i', 'd'] then { fields with id := some value } else fields
    let fields := if field = ['e', 'v', 'e', 'n', 't'] then { fields with event := some value } else fields
    if field = ['d', 'a', 't', 'a'] then { fields with data := fields.data ++ [value] } else fields

def parseSseBlock (block : List Char) : Option SseMessage :=
  let fields := (Text.lines block).foldl Fields.read {}
  if fields.data.isEmpty then none else some ⟨fields.id, fields.event, Text.unlines fields.data⟩

/-- The classes of errors that `connect` tells apart. -/
inductive SubscriptionError
  | business | protocol | transport | other
  deriving DecidableEq

/-- What the browser brings: `JSON.parse`, from which a number comes as it was
written, and the check of a timestamp. -/
structure Runtime where
  parse : List Char → Option Json
  isRfc3339 : String → Bool

structure ApiEnvelope where
  internalCode : Int
  data : Json

def assertApiEnvelope (runtime : Runtime) : Json → Except SubscriptionError ApiEnvelope
  | .obj members =>
    if (Json.get? members "code").isSome then .error .protocol
    else
      match (Json.get? members "internal_code").bind integer?, Json.get? members "message",
          Json.get? members "timestamp", Json.get? members "request_id", Json.get? members "error_reason",
          Json.get? members "data" with
      | some internalCode, some (.str message), some (.str timestamp), some (.str requestId),
          some errorReason, some data =>
        if blank message || !runtime.isRfc3339 timestamp || blank requestId then .error .protocol
        else
          match errorReason with
          | .null => if internalCode = 0 then .ok { internalCode, data } else .error .protocol
          | .str reason =>
            if internalCode = 0 || blank reason then .error .protocol else .ok { internalCode, data }
          | _ => .error .protocol
      | _, _, _, _, _, _ => .error .protocol
  | _ => .error .protocol

/-- The data of an envelope that passes is a member of the object. -/
theorem assertApiEnvelope_data {runtime : Runtime} {value : Json} {envelope : ApiEnvelope}
    (asserted : assertApiEnvelope runtime value = .ok envelope) :
    ∃ members, value = .obj members ∧ Json.get? members "data" = some envelope.data := by
  cases value with
  | obj members =>
    refine ⟨members, rfl, ?_⟩
    simp only [assertApiEnvelope] at asserted
    split at asserted
    · cases asserted
    · split at asserted
      · rename_i data
        split at asserted
        · cases asserted
        · split at asserted
          · split at asserted
            · cases asserted
              exact data
            · cases asserted
          · split at asserted
            · cases asserted
            · cases asserted
              exact data
          · cases asserted
      · cases asserted
  | _ => cases asserted

/-- A string field of an object, if it is one. -/
def textField (members : List (String × Json)) (key : String) : Option String :=
  match Json.get? members key with
  | some (.str value) => some value
  | _ => none

structure JobEventProgress where
  percent : Option ℚ
  totalPages : Option ℚ
  currentPage : Option ℚ

/-- The event as the page gets it. A missing `occurredAt` is read off the clock,
and a missing percentage is minus infinity. -/
structure JobEvent where
  eventId : Option Json
  eventType : String
  jobId : String
  status : Option String
  attempt : Option ℚ
  internalCode : Option ℚ
  progress : JobEventProgress
  occurredAt : Option String
  message : Option String
  payload : List (String × Json)

/-- A member of the payload as a number. -/
def numberField (payload : List (String × Json)) (key : String) : Option ℚ :=
  (Json.get? payload key).bind number?

/-- A share of the whole becomes a percentage. -/
def percent (rawProgress : Option ℚ) : Option ℚ :=
  match rawProgress with
  | some raw => if raw ≤ 1 then double? (raw * 100) else some raw
  | none => some 0

def normalizeJobEvent : Json → Except SubscriptionError JobEvent
  | .obj source =>
    let payload := match Json.get? source "payload" with
      | some (.obj payload) => payload
      | _ => []
    .ok {
      eventId := match Json.get? source "event_id" with
        | some (.int n) => some (.int n)
        | some (.float literal) => some (.float literal)
        | some (.str text) => some (.str text)
        | _ => none
      eventType := (textField source "event_type").getD "job.updated"
      jobId := (textField source "job_id").getD ""
      status := textField source "status"
      attempt := numberField payload "attempt"
      internalCode := numberField payload "internal_code"
      progress := {
        percent := percent (number? ((Json.get? source "progress").getD .null))
        totalPages := numberField payload "total_pages"
        currentPage := numberField payload "page_number" }
      occurredAt := textField source "occurred_at"
      message := textField payload "error_reason"
      payload }
  | _ => .error .protocol

/-- The variables of one `connect`. -/
structure Connection where
  buffer : List Char := []
  lastEventWasTerminal : Bool := false

/-- The variables of `subscribeJobEvents`, with the calls of `onEvent` so far. -/
structure Subscription where
  stopped : Bool := false
  lastEventId : Option (List Char) := none
  connection : Option Connection := none
  received : List (JobEvent × Option (List Char)) := []

namespace Subscription

def terminal (event : JobEvent) : Bool :=
  event.status = some "succeeded" || event.status = some "failed" || event.status = some "cancelled"

/-- The loop over the blocks of a chunk. What was done before an error stays
done. -/
def handle (runtime : Runtime) : List (List Char) → Subscription → Bool →
    Subscription × Except SubscriptionError Bool
  | [], subscription, lastEventWasTerminal => (subscription, .ok lastEventWasTerminal)
  | block :: rest, subscription, lastEventWasTerminal =>
    match parseSseBlock block with
    | none => handle runtime rest subscription lastEventWasTerminal
    | some message =>
      match runtime.parse message.data with
      | none => (subscription, .error .other)
      | some value =>
        match assertApiEnvelope runtime value with
        | .error e => (subscription, .error e)
        | .ok envelope =>
          if envelope.internalCode ≠ 0 then (subscription, .error .business)
          else
            let subscription :=
              { subscription with lastEventId := message.id.filter (!·.isEmpty) <|> subscription.lastEventId }
            match normalizeJobEvent envelope.data with
            | .error e => (subscription, .error e)
            | .ok event =>
              handle runtime rest
                { subscription with received := subscription.received ++ [(event, message.id)] } (terminal event)

/-- The `catch` of `connect`: stop, or reconnect later. -/
def failed (subscription : Subscription) (e : SubscriptionError) : Subscription :=
  { subscription with connection := none, stopped := subscription.stopped || e = .business || e = .protocol }

/-- `reader.read()` has given a chunk. -/
def read (runtime : Runtime) (subscription : Subscription) (value : List Char) : Subscription :=
  match subscription.connection with
  | none => subscription
  | some connection =>
    let (blocks, buffer) := Text.blocks (connection.buffer ++ value)
    match handle runtime blocks subscription connection.lastEventWasTerminal with
    | (subscription, .error e) => subscription.failed e
    | (subscription, .ok lastEventWasTerminal) =>
      { subscription with connection := some { buffer, lastEventWasTerminal } }

/-- `reader.read()` has found the end. -/
def done (subscription : Subscription) : Subscription :=
  match subscription.connection with
  | none => subscription
  | some connection =>
    if connection.lastEventWasTerminal then { subscription with connection := none, stopped := true }
    else subscription.failed .transport

/-- `close` -/
def close (subscription : Subscription) : Subscription := { subscription with connection := none, stopped := true }

end Subscription

end MonkeyOcr.Browser
