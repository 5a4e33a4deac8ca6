import Mathlib
import MonkeyOcr.Browser.Subscription
import MonkeyOcr.Text.Bytes
import MonkeyOcr.Text.Rfc3339
import MonkeyOcr.Text.Trim

namespace MonkeyOcr

namespace Gateway

open Codec (Json)

def success : Int := 0

def transportInternalError : Int := 90000

def transportBadGateway : Int := 90002

def transportGatewayTimeout : Int := 90004

def maxEnvelopeValidationBytes : Nat := 16 * 2 ^ 20

/-- `json.Unmarshal` into an `int`. It leaves the zero of the variable at `null`. -/
def unmarshalInt : Json → Option Int
  | .null => some 0
  | .int value => if -2 ^ 63 ≤ value ∧ value < 2 ^ 63 then some value else none
  | _ => none

/-- `json.Unmarshal` into a `string`. -/
def unmarshalString : Json → Option String
  | .null => some ""
  | .str value => some value
  | _ => none

def requiredFields : List String := ["internal_code", "message", "data", "timestamp", "request_id", "error_reason"]

/-- A string that is more than blanks. -/
def requireText (value : Json) (error : String) : Except String String :=
  match unmarshalString value with
  | some text => if trimSpace text = "" then .error error else .ok text
  | none => .error error

def requireInt (value : Json) (error : String) : Except String Int :=
  match unmarshalInt value with
  | some value => .ok value
  | none => .error error

def requireTimestamp (value : Json) (error : String) : Except String String :=
  match unmarshalString value with
  | some text => if (Rfc3339.goParse text).isNone then .error error else .ok text
  | none => .error error

/-- The rule of success and failure. -/
def requireReason (internalCode : Int) (value : Json) : Except String Unit :=
  if internalCode = success then
    match value with
    | .null => .ok ()
    | _ => .error "success error_reason must be null"
  else
    (requireText value "failure error_reason must be a non-empty string").map fun _ => ()

/-- `validateEnvelope` of a body that `encoding/json` reads as the value. -/
def validateEnvelope : Json → Except String (Int × String)
  | .obj envelope =>
    if (Json.get? envelope "code").isSome then .error "legacy code field is forbidden"
    else
      match requiredFields.find? fun field => (Json.get? envelope field).isNone with
      | some field => .error s!"missing {field}"
      | none => do
        let field key := (Json.get? envelope key).getD .null
        let internalCode ← requireInt (field "internal_code") "internal_code is not an integer"
        let _ ← requireText (field "message") "invalid message"
        let _ ← requireTimestamp (field "timestamp") "invalid timestamp"
        let requestId ← requireText (field "request_id") "invalid request_id"
        requireReason internalCode (field "error_reason")
        return (internalCode, requestId)
  | .null => .error "missing internal_code"
  | _ => .error "invalid JSON"

def isAllowedHTTPStatus (status : Nat) : Bool := status = 200 ∨ status = 500 ∨ status = 502 ∨ status = 504

def statusMatchesInternalCode (status : Nat) (internalCode : Int) : Bool :=
  match status with
  | 200 => internalCode ≠ transportInternalError ∧ internalCode ≠ transportBadGateway ∧
      internalCode ≠ transportGatewayTimeout
  | 500 => internalCode = transportInternalError
  | 502 => internalCode = transportBadGateway
  | 504 => internalCode = transportGatewayTimeout
  | _ => false

/-- A response of an upstream: what `mime.ParseMediaType` makes of its type, its body
as bytes are counted and as `encoding/json` reads it, and the header of the request it
answers, which is empty if it is absent. -/
structure UpstreamResponse where
  statusCode : Nat
  mediaType : Option String
  bodyLength : Nat
  body : Option Json
  requestId : List (BitVec 8)

inductive Validated where
  | stream
  | envelope (internalCode : Int)
  deriving DecidableEq

def Validated.internalCode? : Validated → Option Int
  | stream => none
  | envelope internalCode => some internalCode

/-- Whether `validateUpstreamResponse` lets the id of the envelope pass. -/
def requestIdMatches (header : List (BitVec 8)) (requestId : String) : Bool :=
  let expected := Bytes.trimSpace header
  ¬ (expected ≠ [] ∧ Bytes.utf8 requestId ≠ expected)

/-- `validateUpstreamResponse` -/
def validateUpstreamResponse (response : UpstreamResponse) : Except String Validated :=
  if ¬ isAllowedHTTPStatus response.statusCode then .error s!"unsupported HTTP status {response.statusCode}"
  else
    match response.mediaType with
    | none => .error "invalid content type"
    | some "text/event-stream" =>
      if response.statusCode ≠ 200 then .error "SSE status must be 200" else .ok .stream
    | some "application/json" =>
      if maxEnvelopeValidationBytes < response.bodyLength then .error "envelope too large"
      else
        match response.body with
        | none => .error "invalid JSON"
        | some body => do
          let (internalCode, requestId) ← validateEnvelope body
          if ¬ requestIdMatches response.requestId requestId then .error "request_id does not match request"
          else if ¬ statusMatchesInternalCode response.statusCode internalCode then
            .error "HTTP status and internal_code disagree"
          else .ok (.envelope internalCode)
    | some _ => .error "upstream must return ApiEnvelope JSON or SSE"

/-- A text that `trim` removes, with a byte order mark in it, which is no blank to Go. -/
def OnlyMarks (text : String) : Prop := '\uFEFF' ∈ text.toList ∧ ∀ c ∈ text.toList, Browser.isSpace c

instance (text : String) : Decidable (OnlyMarks text) := inferInstanceAs (Decidable (_ ∧ _))

/-- What the browser asks for beyond the gateway: a code that is not null, texts that
are more than byte order marks, an hour of two digits, a point before the fraction, and
a zone that its `Date.parse` takes. -/
def Readable (date : Rfc3339.DateParse) (envelope : List (String × Json)) : Prop :=
  Json.get? envelope "internal_code" ≠ some .null ∧
    (∀ key ∈ ["message", "request_id", "error_reason"], ∀ text, Json.get? envelope key = some (.str text) →
      ¬ OnlyMarks text) ∧
    ∀ timestamp, Json.get? envelope "timestamp" = some (.str timestamp) →
      timestamp.toList[13]? = some ':' ∧ timestamp.toList[19]? ≠ some ',' ∧
        ∀ fields, Rfc3339.goParse timestamp = some fields → ¬ fields.ZoneWithin 23 59 → date.finite timestamp = true

theorem goSpace_of_isSpace {c : Char} (space : Browser.isSpace c) : goSpace c ∨ c = '\uFEFF' := by
  have code : c.toNat = 0xFEFF → c = '\uFEFF' := by
    intro same
    rw [← Char.ofNat_toNat c, same]
  simp only [Browser.isSpace, Bool.or_eq_true, Bool.and_eq_true, decide_eq_true_eq] at space
  by_cases mark : c.toNat = 0xFEFF
  · exact .inr (code mark)
  · left
    simp only [goSpace, Bool.or_eq_true, Bool.and_eq_true, decide_eq_true_eq]
    omega

/-- A text that Go keeps is blank to the browser for its byte order marks only. -/
theorem blank_iff_onlyMarks {text : String} (kept : trimSpace text ≠ "") :
    Browser.blank text = true ↔ OnlyMarks text := by
  rw [Ne, trimSpace_eq_empty] at kept
  simp only [Browser.blank, List.all_eq_true, OnlyMarks]
  constructor
  · intro all
    refine ⟨?_, all⟩
    by_contra without
    apply kept
    intro c member
    rcases goSpace_of_isSpace (all c member) with space | mark
    · exact space
    · exact absurd (mark ▸ member) without
  · exact And.right

theorem requireText_ok {value : Json} {error text : String} (valid : requireText value error = .ok text) :
    value = .str text ∧ trimSpace text ≠ "" := by
  unfold requireText at valid
  split at valid
  · rename_i kept read
    split at valid
    · cases valid
    · rename_i nonblank
      cases valid
      cases value with
      | str content => exact ⟨congrArg Json.str (Option.some.inj read), nonblank⟩
      | null =>
        have empty : trimSpace text = "" := by
          rw [← Option.some.inj read]
          rfl
        exact absurd empty nonblank
      | _ => cases read
  · cases valid

theorem requireInt_ok {value : Json} {error : String} {code : Int} (valid : requireInt value error = .ok code) :
    value = .null ∧ code = 0 ∨ value = .int code ∧ -2 ^ 63 ≤ code ∧ code < 2 ^ 63 := by
  unfold requireInt at valid
  split at valid
  · rename_i n read
    cases valid
    cases value with
    | null => exact .inl ⟨rfl, (Option.some.inj read).symm⟩
    | int n =>
      simp only [unmarshalInt] at read
      split at read
      · rename_i range
        cases read
        exact .inr ⟨rfl, range⟩
      · cases read
    | _ => cases read
  · cases valid

theorem requireTimestamp_ok {value : Json} {error text : String} (valid : requireTimestamp value error = .ok text) :
    value = .str text ∧ ∃ fields, Rfc3339.goParse text = some fields := by
  unfold requireTimestamp at valid
  split at valid
  · rename_i kept read
    split at valid
    · cases valid
    · rename_i parsed
      cases valid
      have some' := Option.ne_none_iff_exists'.mp (by simpa using parsed)
      cases value with
      | str content => exact ⟨congrArg Json.str (Option.some.inj read), some'⟩
      | null =>
        obtain ⟨fields, parsed⟩ := some'
        rw [← Option.some.inj read] at parsed
        cases parsed
      | _ => cases read
  · cases valid

theorem requireReason_ok {code : Int} {value : Json} (valid : requireReason code value = .ok ()) :
    code = 0 ∧ value = .null ∨ code ≠ 0 ∧ ∃ text, value = .str text ∧ trimSpace text ≠ "" := by
  unfold requireReason at valid
  split at valid
  · rename_i succeeded
    cases value with
    | null => exact .inl ⟨succeeded, rfl⟩
    | _ => cases valid
  · rename_i failed
    cases read : requireText value "failure error_reason must be a non-empty string" with
    | error e => simp [read, Except.map] at valid
    | ok text => exact .inr ⟨failed, text, requireText_ok read⟩

/-- All that an envelope has when the gateway lets it through. -/
structure Passed (envelope : List (String × Json)) (internalCode : Int) (message timestamp requestId : String)
    (reason data : Json) : Prop where
  legacy : Json.get? envelope "code" = none
  code : Json.get? envelope "internal_code" = some .null ∧ internalCode = 0 ∨
    Json.get? envelope "internal_code" = some (.int internalCode) ∧ -2 ^ 63 ≤ internalCode ∧ internalCode < 2 ^ 63
  message : Json.get? envelope "message" = some (.str message) ∧ trimSpace message ≠ ""
  timestamp : Json.get? envelope "timestamp" = some (.str timestamp) ∧ ∃ fields, Rfc3339.goParse timestamp = some fields
  requestId : Json.get? envelope "request_id" = some (.str requestId) ∧ trimSpace requestId ≠ ""
  reason : Json.get? envelope "error_reason" = some reason ∧
    (internalCode = 0 ∧ reason = .null ∨ internalCode ≠ 0 ∧ ∃ text, reason = .str text ∧ trimSpace text ≠ "")
  data : Json.get? envelope "data" = some data

theorem validateEnvelope_ok {body : Json} {code : Int} {requestId : String}
    (valid : validateEnvelope body = .ok (code, requestId)) :
    ∃ envelope message timestamp reason data, body = .obj envelope ∧
      Passed envelope code message timestamp requestId reason data := by
  cases body with
  | obj envelope =>
    simp only [validateEnvelope] at valid
    split at valid
    · cases valid
    · rename_i legacy
      cases present : requiredFields.find? fun field => (Json.get? envelope field).isNone with
      | some field => simp [present] at valid
      | none =>
        have here : ∀ key ∈ requiredFields, Json.get? envelope key = some ((Json.get? envelope key).getD .null) := by
          intro key member
          have found := List.find?_eq_none.mp present key member
          cases value : Json.get? envelope key with
          | none => simp [value] at found
          | some _ => rfl
        simp only [present, bind, Except.bind, pure, Except.pure] at valid
        split at valid
        · cases valid
        · rename_i n readCode
          split at valid
          · cases valid
          · rename_i message readMessage
            split at valid
            · cases valid
            · rename_i timestamp readTimestamp
              split at valid
              · cases valid
              · rename_i id readId
                split at valid
                · cases valid
                · rename_i readReason
                  cases valid
                  have code := requireInt_ok readCode
                  have text := requireText_ok readMessage
                  have time := requireTimestamp_ok readTimestamp
                  have request := requireText_ok readId
                  have reason := requireReason_ok readReason
                  refine ⟨envelope, message, timestamp, _, _, rfl, ⟨by simpa using legacy, ?_, ?_, ?_, ?_,
                    ⟨here _ (by decide), reason⟩, here _ (by decide)⟩⟩
                  · rcases code with ⟨null, zero⟩ | ⟨int, range⟩
                    · exact .inl ⟨by rw [here _ (by decide), null], zero⟩
                    · exact .inr ⟨by rw [here _ (by decide), int], range⟩
                  · exact ⟨by rw [here _ (by decide), text.1], text.2⟩
                  · exact ⟨by rw [here _ (by decide), time.1], time.2⟩
                  · exact ⟨by rw [here _ (by decide), request.1], request.2⟩
  | _ => cases valid

/-- When the browser takes a timestamp of the gateway. -/
theorem isRfc3339_iff (date : Rfc3339.DateParse) {timestamp : String} {fields : Rfc3339.Fields}
    (parsed : Rfc3339.goParse timestamp = some fields) :
    Rfc3339.isRfc3339 date timestamp = true ↔ timestamp.toList[13]? = some ':' ∧ timestamp.toList[19]? ≠ some ',' ∧
      (¬ fields.ZoneWithin 23 59 → date.finite timestamp = true) := by
  obtain ⟨loose, ranges⟩ := Option.filter_eq_some_iff.mp parsed
  have exists' := (of_decide_eq_true ranges).1
  have strict := Rfc3339.scan_strict loose
  simp only [Rfc3339.isRfc3339, Rfc3339.matchesPattern, Bool.and_eq_true, strict]
  by_cases shape : timestamp.toList[13]? = some ':' ∧ timestamp.toList[19]? ≠ some ','
  · rw [if_pos shape] at strict ⊢
    simp only [Option.isSome_some, true_and, shape.1, shape.2, ne_eq, not_false_eq_true]
    constructor
    · exact fun finite _ => finite
    · intro exotic
      by_cases ordinary : fields.ZoneWithin 23 59
      · exact date.reads timestamp fields strict exists' ordinary
      · exact exotic ordinary
  · rw [if_neg shape]
    simp only [Option.isSome_none, Bool.false_eq_true, false_and, false_iff]
    exact fun ⟨colon, point, _⟩ => shape ⟨colon, point⟩

theorem Passed.readable_iff {envelope : List (String × Json)} {internalCode : Int}
    {message timestamp requestId : String} {reason data : Json} (date : Rfc3339.DateParse)
    (passed : Passed envelope internalCode message timestamp requestId reason data) :
    Readable date envelope ↔ Json.get? envelope "internal_code" ≠ some .null ∧ Browser.blank message = false ∧
      Browser.blank requestId = false ∧ (∀ text, reason = .str text → Browser.blank text = false) ∧
      Rfc3339.isRfc3339 date timestamp = true := by
  obtain ⟨atTimestamp, fields, parsed⟩ := passed.timestamp
  have blankReason : ∀ text, reason = .str text → (Browser.blank text = false ↔ ¬ OnlyMarks text) := by
    intro text same
    rcases passed.reason.2 with ⟨_, null⟩ | ⟨_, kept, read, nonblank⟩
    · rw [null] at same
      cases same
    · rw [read] at same
      cases same
      rw [← blank_iff_onlyMarks nonblank, Bool.not_eq_true]
  rw [isRfc3339_iff date parsed, ← Bool.not_eq_true, ← Bool.not_eq_true, blank_iff_onlyMarks passed.message.2,
    blank_iff_onlyMarks passed.requestId.2]
  simp only [Readable, List.mem_cons, List.not_mem_nil, or_false, forall_eq_or_imp, forall_eq, passed.message.1,
    passed.requestId.1, passed.reason.1, atTimestamp, Option.some.injEq, Json.str.injEq, forall_eq', parsed, and_assoc]
  have reasons : (∀ text, reason = .str text → ¬ OnlyMarks text) ↔
      ∀ text, reason = .str text → Browser.blank text = false :=
    forall_congr' fun text => imp_congr_right fun same => (blankReason text same).symm
  rw [reasons]

/-- An envelope the gateway lets through is read by the browser exactly when it is
readable. -/
theorem Passed.asserted_iff {envelope : List (String × Json)} {internalCode : Int}
    {message timestamp requestId : String} {reason data : Json} (date : Rfc3339.DateParse)
    (parse : List Char → Option Json)
    (passed : Passed envelope internalCode message timestamp requestId reason data) :
    (∃ asserted, Browser.assertApiEnvelope ⟨parse, Rfc3339.isRfc3339 date⟩ (.obj envelope) = .ok asserted) ↔
      Readable date envelope := by
  rw [passed.readable_iff]
  rcases passed.code with ⟨null, _⟩ | ⟨int, least, greatest⟩
  · simp [Browser.assertApiEnvelope, Browser.integer?, Browser.numeric?, passed.legacy, null]
  · obtain ⟨read, whole, zero_iff⟩ := Browser.integer?_int least greatest
    simp only [Browser.assertApiEnvelope, passed.legacy, int, Option.bind_some, whole, passed.message.1,
      passed.timestamp.1, passed.requestId.1, passed.reason.1, passed.data, Option.isSome_none,
      Bool.false_eq_true, if_false]
    by_cases bad : (Browser.blank message || !Rfc3339.isRfc3339 date timestamp || Browser.blank requestId) = true
    · rw [if_pos bad]
      have unreadable : ¬ (Browser.blank message = false ∧ Browser.blank requestId = false ∧
          Rfc3339.isRfc3339 date timestamp = true) := by
        rintro ⟨one, two, three⟩
        simp [one, two, three] at bad
      simp only [reduceCtorEq, exists_false, false_iff]
      intro readable
      obtain ⟨_, one, two, _, three⟩ := readable
      exact unreadable ⟨one, two, three⟩
    · rw [if_neg bad]
      simp only [Bool.or_eq_true, Bool.not_eq_true', not_or, Bool.not_eq_true, Bool.not_eq_false] at bad
      obtain ⟨⟨one, three⟩, two⟩ := bad
      rcases passed.reason.2 with ⟨zero, null⟩ | ⟨failed, text, reason, _⟩
      · simp [one, two, three, null, zero_iff.mpr zero]
      · have kept : read ≠ 0 := fun zero => failed (zero_iff.mp zero)
        by_cases marks : Browser.blank text = true
        · simp [one, two, three, reason, kept, marks]
        · simp [one, two, three, reason, kept, marks]

/-- The response the gateway lets through has an envelope that passes. -/
theorem validateUpstreamResponse_ok {response : UpstreamResponse} {internalCode : Int}
    (valid : validateUpstreamResponse response = .ok (.envelope internalCode)) :
    ∃ body requestId, response.body = some body ∧ validateEnvelope body = .ok (internalCode, requestId) := by
  unfold validateUpstreamResponse at valid
  split at valid
  · cases valid
  · split at valid
    · cases valid
    · split at valid <;> cases valid
    · split at valid
      · cases valid
      · split at valid
        · cases valid
        · rename_i body read
          simp only [bind, Except.bind] at valid
          split at valid
          · cases valid
          · rename_i result checked
            split at valid
            · cases valid
            · split at valid
              · cases valid
              · cases valid
                exact ⟨body, result.2, read, checked⟩
    · cases valid

/-- Among the responses that the gateway lets through as envelopes the browser reads
exactly those that are readable. -/
theorem gateway_envelope_read_iff (date : Rfc3339.DateParse) (parse : List Char → Option Json)
    {response : UpstreamResponse} {internalCode : Int} {body : Json} (read : response.body = some body)
    (accepted : validateUpstreamResponse response = .ok (.envelope internalCode)) :
    (∃ asserted, Browser.assertApiEnvelope ⟨parse, Rfc3339.isRfc3339 date⟩ body = .ok asserted) ↔
      ∃ envelope, body = .obj envelope ∧ Readable date envelope := by
  obtain ⟨same, requestId, found, valid⟩ := validateUpstreamResponse_ok accepted
  rw [read] at found
  cases found
  obtain ⟨envelope, message, timestamp, reason, data, rfl, passed⟩ := validateEnvelope_ok valid
  rw [passed.asserted_iff]
  constructor
  · exact fun readable => ⟨envelope, rfl, readable⟩
  · rintro ⟨_, same, readable⟩
    cases same
    exact readable

/-- An envelope of success with these members. -/
def successEnvelope (internalCode : Json) (message timestamp : String) : Json :=
  .obj [("internal_code", internalCode), ("message", .str message), ("data", .null), ("timestamp", .str timestamp),
    ("request_id", .str "r1"), ("error_reason", .null)]

def jsonResponse (body : Json) : UpstreamResponse where
  statusCode := 200
  mediaType := some "application/json"
  bodyLength := 200
  body := some body
  requestId := [114, 49]

/-- A `Date.parse` that reads the fixed format only. -/
def fixedDateParse : Rfc3339.DateParse where
  finite text := (Rfc3339.scan true false text.toList).any fun fields => fields.InRange
  reads text fields scanned exists' _ := by simp [scanned, exists']

theorem gateway_envelope_read_success :
    ∃ asserted, Browser.assertApiEnvelope ⟨fun _ => none, Rfc3339.isRfc3339 fixedDateParse⟩
      (successEnvelope (.int 0) "ok" "2026-01-01T08:00:00.5Z") = .ok asserted := by
  have accepted : validateUpstreamResponse (jsonResponse (successEnvelope (.int 0) "ok" "2026-01-01T08:00:00.5Z")) =
      .ok (.envelope 0) := by decide +kernel
  refine (gateway_envelope_read_iff fixedDateParse (fun _ => none) rfl accepted).mpr ⟨_, rfl, ?_, ?_, ?_⟩
  · simp [Json.get?]
  · simp [Json.get?]
    decide +kernel
  · simp [Json.get?]
    decide +kernel

/-- A code that is `null`, a message of a byte order mark, a comma in the timestamp and
an hour of one digit pass the gateway, and the browser throws at each. -/
theorem gateway_envelope_unread :
    ([successEnvelope .null "ok" "2026-01-01T08:00:00Z", successEnvelope (.int 0) "\uFEFF" "2026-01-01T08:00:00Z",
        successEnvelope (.int 0) "ok" "2026-01-01T08:00:00,5Z",
        successEnvelope (.int 0) "ok" "2026-01-01T8:00:00Z"].map fun body =>
      (validateUpstreamResponse (jsonResponse body),
        (Browser.assertApiEnvelope ⟨fun _ => none, Rfc3339.isRfc3339 fixedDateParse⟩ body).isOk)) =
      List.replicate 4 (.ok (.envelope 0), false) := by
  decide +kernel

end Gateway

end MonkeyOcr
