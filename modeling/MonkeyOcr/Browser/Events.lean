import Mathlib
import MonkeyOcr.Browser.Progress
import MonkeyOcr.Browser.Subscription

namespace MonkeyOcr.Browser

open Codec (Json)
open Progress (BackendEvent eventPercent)

/-- What `mergeJobEvent` reads of an event of the subscription. -/
def JobEvent.merged (event : JobEvent) : Progress.JobEvent where
  eventType := event.eventType
  status := event.status
  attempt := event.attempt.map Rat.num
  internalCode := event.internalCode.map Rat.num
  progress := some {
    percent := some event.progress.percent
    totalPages := some event.progress.totalPages
    currentPage := some event.progress.currentPage }
  occurredAt := event.occurredAt.getD ""
  message := event.message

/-- An integer that is a double. -/
def Whole (n : ℤ) : Prop := n.natAbs < 2 ^ 53

/-- The members with which the backend writes an event. -/
structure Spells (source payload : List (String × Json)) (event : BackendEvent) : Prop where
  eventType : Json.get? source "event_type" = some (.str event.eventType)
  status : Json.get? source "status" = some (.str event.status)
  progress : ∃ literal, Json.get? source "progress" = some (.float literal) ∧
    numeric? (.float literal) = some event.progress
  occurredAt : Json.get? source "occurred_at" = some (.str event.occurredAt)
  content : Json.get? source "payload" = some (.obj payload)
  attempt : Json.get? payload "attempt" = event.attempt.map Json.int
  internalCode : Json.get? payload "internal_code" = event.internalCode.map Json.int
  totalPages : Json.get? payload "total_pages" = event.totalPages.map Json.nat
  pageNumber : Json.get? payload "page_number" = event.pageNumber.map Json.nat
  errorReason : Json.get? payload "error_reason" = event.errorReason.map Json.str
  wholeAttempt : ∀ n, event.attempt = some n → Whole n
  wholeCode : ∀ n, event.internalCode = some n → Whole n
  wholeTotal : ∀ n, event.totalPages = some n → Whole n
  wholePage : ∀ n, event.pageNumber = some n → Whole n

variable {source payload : List (String × Json)} {event : BackendEvent}

theorem number?_whole {n : ℤ} (whole : Whole n) : number? (.int n) = some (n : ℚ) := by
  have same : Codec.Binary64.nearest n.natAbs = n.natAbs := nearest_of_lt whole
  have finite : Codec.Binary64.nearest n.natAbs < limit := lt_limit (by unfold Whole at whole; omega)
  have read : number? (.int n) = numeric? (.int n) := by simp only [number?]
  rw [read, numeric?_int finite, same, Int.sign_mul_natAbs]

theorem numberField_whole {key : String} {value : Option ℤ} (field : Json.get? payload key = value.map Json.int)
    (whole : ∀ n, value = some n → Whole n) : numberField payload key = value.map Int.cast := by
  rw [numberField, field]
  cases value with
  | none => rfl
  | some n =>
    rw [Option.map_some, Option.bind_some, Option.map_some, number?_whole (whole n rfl)]

theorem numberField_natural {key : String} {value : Option ℕ} (field : Json.get? payload key = value.map Json.nat)
    (whole : ∀ n, value = some n → Whole n) : numberField payload key = value.map Nat.cast := by
  rw [numberField, field]
  cases value with
  | none => rfl
  | some n =>
    rw [Option.map_some, Option.bind_some, Option.map_some, Json.nat, number?_whole (whole n rfl), Int.cast_natCast]

/-- The percentage of a share of the whole is finite. -/
theorem percent_share {share : ℚ} (nonneg : 0 ≤ share) (le : share ≤ 1) :
    percent (some share) = some (eventPercent share) := by
  have bound := Codec.Double.abs_nearest_le (share * 100)
  rw [abs_of_nonneg (a := share * 100) (by linarith)] at bound
  have large : (201 : ℚ) < limit := by exact_mod_cast lt_limit (n := 201) (by decide)
  have finite : |Codec.Double.nearest (share * 100)| < limit := by linarith
  rw [percent, if_pos le, eventPercent, if_pos le, double?]
  exact if_pos finite

/-- The two views of an event agree: what the subscription makes of the members is what
`mergeJobEvent` is given. -/
theorem normalizeJobEvent_spells (spells : Spells source payload event) :
    ∃ normal, normalizeJobEvent (.obj source) = .ok normal ∧ normal.merged = Progress.normalizeJobEvent event := by
  refine ⟨_, rfl, ?_⟩
  obtain ⟨literal, member, read⟩ := spells.progress
  have attempt := numberField_whole spells.attempt spells.wholeAttempt
  have internalCode := numberField_whole spells.internalCode spells.wholeCode
  have totalPages := numberField_natural spells.totalPages spells.wholeTotal
  have currentPage := numberField_natural spells.pageNumber spells.wholePage
  have share : number? ((Json.get? source "progress").getD .null) = some event.progress := by
    rw [member]
    exact read
  have message : textField payload "error_reason" = event.errorReason := by
    rw [textField, spells.errorReason]
    cases event.errorReason <;> rfl
  have fields : ∀ key text, Json.get? source key = some (.str text) → textField source key = some text := by
    intro key text field
    rw [textField, field]
  have numbers : ∀ value : Option ℤ, (Option.map (Int.cast : ℤ → ℚ) value).map Rat.num = value := by
    intro value
    cases value <;> rfl
  simp only [JobEvent.merged, Progress.normalizeJobEvent, fields _ _ spells.eventType, fields _ _ spells.status,
    fields _ _ spells.occurredAt, spells.content, attempt, internalCode, totalPages, currentPage, share, message,
    percent_share event.progress_nonneg event.progress_le, numbers, Option.getD_some]

/-- The first page of four. -/
example : ∃ normal, normalizeJobEvent (.obj [("event_type", .str "page.succeeded"), ("status", .str "running"),
      ("progress", .float "0.25"), ("occurred_at", .str "10:01"),
      ("payload", .obj [("attempt", .int 1), ("total_pages", .int 4), ("page_number", .int 1)])]) = .ok normal ∧
    normal.merged = Progress.normalizeJobEvent
      ⟨"page.succeeded", "running", 1 / 4, by norm_num, by norm_num, some 1, none, some 4, some 1, none, "10:01"⟩ :=
  normalizeJobEvent_spells {
    eventType := rfl, status := rfl, progress := ⟨"0.25", rfl, by decide +kernel⟩, occurredAt := rfl, content := rfl
    attempt := rfl, internalCode := rfl, totalPages := rfl, pageNumber := rfl, errorReason := rfl
    wholeAttempt := by simp [Whole], wholeCode := by simp, wholeTotal := by simp [Whole], wholePage := by simp [Whole] }

end MonkeyOcr.Browser
