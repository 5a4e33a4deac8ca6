import MonkeyOcr.Gateway.Envelope

namespace MonkeyOcr

namespace Gateway

open Codec (Json)

/-- What `generateRequestID` reads: random bytes, which may fail, and the clock. -/
structure Entropy where
  raw : Option (Fin 16 → BitVec 8)
  date : Fin 8 → Fin 10
  clock : Fin 6 → Fin 10
  nanoseconds : Fin 9 → Fin 10

def hexDigit (n : Nat) : BitVec 8 := if n < 10 then BitVec.ofNat 8 (48 + n) else BitVec.ofNat 8 (87 + n)

def decimals {n : Nat} (digits : Fin n → Fin 10) : List (BitVec 8) := (List.ofFn digits).map fun d => hexDigit d.val

/-- `generateRequestID`. The two services differ in the letter of the time. -/
def generateRequestId (letter : List (BitVec 8)) (entropy : Entropy) : List (BitVec 8) :=
  match entropy.raw with
  | some raw => (List.ofFn raw).flatMap fun b => [hexDigit (b.toNat / 16), hexDigit (b.toNat % 16)]
  | none => decimals entropy.date ++ letter ++ decimals entropy.clock ++ [46] ++ decimals entropy.nanoseconds

/-- `strings.ContainsAny(requestID, "\r\n")` -/
def breaksLine (requestId : List (BitVec 8)) : Bool := 13 ∈ requestId ∨ 10 ∈ requestId

/-- The middleware `RequestID`. -/
def middlewareRequestId (header : Option (List (BitVec 8))) (entropy : Entropy) : List (BitVec 8) :=
  let requestId := Bytes.trimSpace (header.getD [])
  if requestId = [] ∨ breaksLine requestId then generateRequestId [84] entropy else requestId

/-- `RequestIDPolicy.Resolve` -/
def resolve (value : List (BitVec 8)) (entropy : Entropy) : List (BitVec 8) :=
  let normalized := Bytes.trimSpace value
  if normalized ≠ [] ∧ ¬ breaksLine normalized then normalized else generateRequestId [] entropy

/-- The header of the proxied request. -/
def forwardedRequestId (header : Option (List (BitVec 8))) (first second : Entropy) : List (BitVec 8) :=
  resolve (middlewareRequestId header first) second

/-- `ApiEnvelope` of the backend. -/
structure Envelope where
  internalCode : Int
  message : String
  data : Json
  timestamp : String
  requestId : String
  errorReason : Option String

def Envelope.toJson (envelope : Envelope) : Json :=
  .obj [("internal_code", .int envelope.internalCode), ("message", .str envelope.message), ("data", envelope.data),
    ("timestamp", .str envelope.timestamp), ("request_id", .str envelope.requestId),
    ("error_reason", Json.ofOption .str envelope.errorReason)]

/-- How a request of the backend ends. -/
inductive Outcome where
  | success (data : Json)
  | businessError (internalCode : Int) (message errorReason : String) (data : Json)
  | dependencyError (internalCode : Int) (publicMessage errorReason : String)
  | validationError (details : Json)
  | httpError
  | unexpected

/-- `request_id_middleware`. Starlette reads a header as Latin-1. -/
def stateRequestId (header : Option (List (BitVec 8))) (uuid7 : String) : String :=
  let candidate := (header.map Bytes.latin1).getD ""
  if candidate = "" then uuid7 else String.ofList (candidate.toList.take 128)

/-- `_request_id`, for a state that may lack the attribute. -/
def requestIdOf (state : Option String) (header : Option (List (BitVec 8))) (uuid7 : String) : String :=
  state.getD ((header.map Bytes.latin1).getD uuid7)

/-- The handlers of `create_app`, and an endpoint that returns. -/
def handle (requestId timestamp : String) : Outcome → Nat × Envelope
  | .success data => (200, ⟨0, "操作成功", data, timestamp, requestId, none⟩)
  | .businessError code message reason data => (200, ⟨code, message, data, timestamp, requestId, some reason⟩)
  | .dependencyError code message reason => (200, ⟨code, message, .null, timestamp, requestId, some reason⟩)
  | .validationError details =>
    (200, ⟨10001, "请求参数无效", .obj [("errors", details)], timestamp, requestId, some "request_validation_failed"⟩)
  | .httpError => (200, ⟨10002, "请求的接口或资源不存在", .null, timestamp, requestId, some "http_resource_not_found"⟩)
  | .unexpected =>
    (500, ⟨transportInternalError, "服务未能形成正常响应", .null, timestamp, requestId, some "transport_internal_error"⟩)

/-- The backend, where the middleware sets the state before anything else runs. -/
def backendResponse (header : Option (List (BitVec 8))) (uuid7 timestamp : String) (outcome : Outcome) : Nat × Envelope :=
  handle (requestIdOf (some (stateRequestId header uuid7)) header uuid7) timestamp outcome

/-- An id that the backend returns as it was sent: ASCII of at most 128 characters, or
less of ASCII than that and then twice what is left of the word that recoding repeats. -/
def Agreeing (sent : List (BitVec 8)) : Prop :=
  (∀ b ∈ sent, b < 128) ∧ sent.length ≤ 128 ∨
    ∃ front, (∀ b ∈ front, b < 128) ∧ front.length < 128 ∧ sent = front ++ Bytes.echo (2 * (128 - front.length))

theorem hexDigit_visible : ∀ n < 16, 32 < hexDigit n ∧ hexDigit n < 128 := by decide

theorem decimals_visible {n : Nat} (digits : Fin n → Fin 10) : ∀ b ∈ decimals digits, 32 < b ∧ b < 128 := by
  intro b member
  obtain ⟨d, _, rfl⟩ := List.mem_map.mp member
  exact hexDigit_visible d.val (d.isLt.trans (by decide))

/-- A generated id is visible ASCII, not empty and short. -/
theorem generateRequestId_visible {letter : List (BitVec 8)} (visible : ∀ b ∈ letter, 32 < b ∧ b < 128)
    (short : letter.length ≤ 1) (entropy : Entropy) :
    (∀ b ∈ generateRequestId letter entropy, 32 < b ∧ b < 128) ∧ generateRequestId letter entropy ≠ [] ∧
      (generateRequestId letter entropy).length ≤ 128 := by
  unfold generateRequestId
  split
  · rename_i raw _
    refine ⟨?_, by simp, ?_⟩
    · intro b member
      obtain ⟨byte, _, inPair⟩ := List.mem_flatMap.mp member
      have bound := byte.isLt
      rcases List.mem_cons.mp inPair with rfl | inPair
      · exact hexDigit_visible _ (by omega)
      · rw [List.mem_singleton] at inPair
        rw [inPair]
        exact hexDigit_visible _ (Nat.mod_lt _ (by omega))
    · rw [List.length_flatMap]
      simp
  · refine ⟨?_, by simp, ?_⟩
    · intro b member
      simp only [List.mem_append, List.mem_singleton] at member
      rcases member with (((date | letter) | clock) | point) | nanoseconds
      · exact decimals_visible _ b date
      · exact visible b letter
      · exact decimals_visible _ b clock
      · rw [point]
        decide
      · exact decimals_visible _ b nanoseconds
    · simp only [List.length_append, decimals, List.length_map, List.length_ofFn, List.length_singleton]
      omega

theorem not_breaksLine {requestId : List (BitVec 8)} (visible : ∀ b ∈ requestId, 32 < b ∧ b < 128) :
    breaksLine requestId = false := by
  simp only [breaksLine, decide_eq_false_iff_not, not_or]
  constructor
  · intro carriage
    exact absurd (visible _ carriage).1 (by decide)
  · intro newline
    exact absurd (visible _ newline).1 (by decide)

/-- The middleware leaves a trimmed id, which the policy keeps. -/
theorem forwardedRequestId_eq (header : Option (List (BitVec 8))) (first second : Entropy) :
    forwardedRequestId header first second = middlewareRequestId header first ∧
      Bytes.Trimmed (middlewareRequestId header first) ∧ middlewareRequestId header first ≠ [] := by
  have letter : ∀ b ∈ ([84] : List (BitVec 8)), 32 < b ∧ b < 128 := by decide
  have generated := generateRequestId_visible letter le_rfl first
  have kept : Bytes.Trimmed (middlewareRequestId header first) ∧ middlewareRequestId header first ≠ [] ∧
      breaksLine (middlewareRequestId header first) = false := by
    unfold middlewareRequestId
    by_cases refused : Bytes.trimSpace (header.getD []) = [] ∨ breaksLine (Bytes.trimSpace (header.getD [])) = true
    · rw [if_pos refused]
      exact ⟨Bytes.trimmed_of_visible generated.1, generated.2.1, not_breaksLine generated.1⟩
    · rw [if_neg refused]
      rw [not_or, Bool.not_eq_true] at refused
      exact ⟨Bytes.trimmed_trimSpace _, refused.1, refused.2⟩
  obtain ⟨trimmed, nonempty, oneLine⟩ := kept
  refine ⟨?_, trimmed, nonempty⟩
  simp only [forwardedRequestId, resolve, Bytes.trimSpace_of_trimmed trimmed]
  rw [if_pos ⟨nonempty, by simp [oneLine]⟩]

/-- Without a header the gateway makes an id that the backend returns. -/
theorem agreeing_of_generated (first second : Entropy) : Agreeing (forwardedRequestId none first second) := by
  have letter : ∀ b ∈ ([84] : List (BitVec 8)), 32 < b ∧ b < 128 := by decide
  have generated := generateRequestId_visible letter le_rfl first
  have empty : Bytes.trimSpace [] = [] := rfl
  rw [(forwardedRequestId_eq none first second).1, middlewareRequestId]
  simp only [Option.getD_none, empty, true_or, if_true]
  exact .inl ⟨fun b member => (generated.1 b member).2, generated.2.2⟩

theorem recoded_take_eq_iff {sent : List (BitVec 8)} : Bytes.recoded (sent.take 128) = sent ↔ Agreeing sent := by
  constructor
  · intro same
    by_cases ascii : ∀ b ∈ sent.take 128, b < 128
    · rw [Bytes.recoded_ascii ascii] at same
      left
      rw [same] at ascii
      refine ⟨ascii, ?_⟩
      have length := congrArg List.length same
      rw [List.length_take] at length
      omega
    · right
      have split := List.takeWhile_append_dropWhile (p := fun b => decide (b < 128)) (l := sent.take 128)
      have plain : ∀ b ∈ (sent.take 128).takeWhile fun b => decide (b < 128), b < 128 :=
        fun b member => of_decide_eq_true (List.mem_takeWhile_imp (p := fun b => decide (b < 128)) member)
      generalize (sent.take 128).takeWhile (fun b => decide (b < 128)) = front at split plain
      cases back : (sent.take 128).dropWhile fun b => decide (b < 128) with
      | nil =>
        rw [back, List.append_nil] at split
        exact absurd (split ▸ plain) ascii
      | cons b rest =>
        have wide : ¬ b < 128 := by
          have head := List.head?_dropWhile_not (fun b : BitVec 8 => decide (b < 128)) (sent.take 128)
          rw [back] at head
          simpa using head
        rw [back] at split
        have whole : front ++ Bytes.recoded (b :: rest) = sent := by
          rw [← same, ← split, Bytes.recoded_append, Bytes.recoded_ascii plain]
        have continues : b :: rest <+: Bytes.recoded (b :: rest) := by
          have taken := List.take_prefix 128 sent
          rw [← split] at taken
          rw [← whole] at taken
          exact (List.prefix_append_right_inj front).mp taken
        have echo := Bytes.eq_echo_of_prefix wide continues
        rw [echo, Bytes.recoded_echo] at whole
        have long := congrArg List.length whole
        have taken := congrArg List.length split
        simp only [List.length_append, Bytes.length_echo, List.length_cons, List.length_take] at long taken
        have rest' : (b :: rest).length = 128 - front.length := by
          rw [List.length_cons]
          omega
        refine ⟨front, plain, by omega, ?_⟩
        rw [← rest', List.length_cons]
        exact whole.symm
  · rintro (⟨ascii, short⟩ | ⟨front, plain, less, rfl⟩)
    · rw [List.take_of_length_le short, Bytes.recoded_ascii ascii]
    · have cut : 128 - front.length ≤ 2 * (128 - front.length) := by omega
      rw [List.take_append, List.take_of_length_le (by omega), Bytes.take_echo cut, Bytes.recoded_append,
        Bytes.recoded_ascii plain, Bytes.recoded_echo]

theorem stateRequestId_some {sent : List (BitVec 8)} (nonempty : sent ≠ []) (uuid7 : String) :
    stateRequestId (some sent) uuid7 = Bytes.latin1 (sent.take 128) := by
  have some' : Bytes.latin1 sent ≠ "" := by
    intro empty
    have lists := congrArg String.toList empty
    simp only [Bytes.latin1, String.toList_ofList, String.toList_empty, List.map_eq_nil_iff] at lists
    exact nonempty lists
  simp only [stateRequestId, Option.map_some, Option.getD_some]
  rw [if_neg some']
  simp only [Bytes.latin1, String.toList_ofList, List.map_take]

/-- Every way in which a request ends returns the id of the state. -/
theorem backendResponse_requestId (header : Option (List (BitVec 8))) (uuid7 timestamp : String) (outcome : Outcome) :
    (backendResponse header uuid7 timestamp outcome).2.requestId = stateRequestId header uuid7 := by
  cases outcome <;> rfl

/-- For every header and every outcome the envelope has the id of the proxied request
exactly when that id is one that agrees, and exactly then the gateway lets it pass. -/
theorem request_ids_agree_iff (header : Option (List (BitVec 8))) (first second : Entropy) (uuid7 timestamp : String)
    (outcome : Outcome) :
    let sent := forwardedRequestId header first second
    let envelope := (backendResponse (some sent) uuid7 timestamp outcome).2
    (Bytes.utf8 envelope.requestId = Bytes.trimSpace sent ↔ Agreeing sent) ∧
      (requestIdMatches sent envelope.requestId = true ↔ Agreeing sent) := by
  intro sent envelope
  obtain ⟨same, trimmed, nonempty⟩ := forwardedRequestId_eq header first second
  rw [← same] at trimmed nonempty
  have kept : Bytes.trimSpace sent = sent := Bytes.trimSpace_of_trimmed trimmed
  have id : Bytes.utf8 envelope.requestId = Bytes.recoded (sent.take 128) := by
    rw [backendResponse_requestId, stateRequestId_some nonempty, Bytes.utf8_latin1]
  have agree : Bytes.utf8 envelope.requestId = Bytes.trimSpace sent ↔ Agreeing sent := by
    rw [id, kept]
    exact recoded_take_eq_iff
  refine ⟨agree, ?_⟩
  rw [← agree, requestIdMatches]
  have given : Bytes.trimSpace sent ≠ [] := by rw [kept]; exact nonempty
  simp [given]

/-- A header of one letter with an accent, and one of 129 letters. -/
theorem request_ids_disagree :
    let entropy : Entropy := ⟨none, fun _ => 0, fun _ => 0, fun _ => 0⟩
    ∀ header ∈ [[0xC3, 0xA9], List.replicate 129 97],
      let sent := forwardedRequestId (some header) entropy entropy
      let envelope := (backendResponse (some sent) "uuid" "2026-01-01T08:00:00Z" .httpError).2
      Bytes.utf8 envelope.requestId ≠ Bytes.trimSpace sent ∧
        validateUpstreamResponse ⟨200, some "application/json", 200, some envelope.toJson, sent⟩ =
          .error "request_id does not match request" := by
  decide +kernel

end Gateway

end MonkeyOcr
