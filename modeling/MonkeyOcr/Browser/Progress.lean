import Mathlib.Tactic.Linarith
import MonkeyOcr.Codec.Double

namespace MonkeyOcr.Browser.Progress

open Codec.Double (nearest mathRound)

/-- The numbers of the page are finite doubles. A key of a partial object may be missing,
or be there with `undefined`. -/
structure PartialProgress where
  completedPages : Option (Option ℚ) := none
  totalPages : Option (Option ℚ) := none
  percent : Option (Option ℚ) := none
  currentPage : Option (Option ℚ) := none

structure JobProgress where
  completedPages : ℚ
  totalPages : ℚ
  percent : ℚ
  currentPage : Option ℚ
  deriving DecidableEq

structure OcrJob where
  status : String
  progress : JobProgress
  attempt : ℤ
  internalCode : Option ℤ
  updatedAt : String
  errorMessage : Option String
  deriving DecidableEq

structure JobEvent where
  eventType : String
  status : Option String
  attempt : Option ℤ
  internalCode : Option ℤ
  progress : Option PartialProgress
  occurredAt : String
  message : Option String

/-- An event as the backend sends it: `_job_event` puts the attempt and the keywords of
its caller into the payload. -/
structure BackendEvent where
  eventType : String
  status : String
  progress : ℚ
  progress_nonneg : 0 ≤ progress
  progress_le : progress ≤ 1
  attempt : Option ℤ
  internalCode : Option ℤ := none
  totalPages : Option ℕ := none
  pageNumber : Option ℕ := none
  errorReason : Option String := none
  occurredAt : String

/-- The percent of an event: what is not above 1 is a fraction. -/
def eventPercent (rawProgress : ℚ) : ℚ := if rawProgress ≤ 1 then nearest (rawProgress * 100) else rawProgress

/-- The keys of `progress` are there for every event, but for `completed_pages`. -/
def normalizeJobEvent (event : BackendEvent) : JobEvent where
  eventType := event.eventType
  status := some event.status
  attempt := event.attempt
  internalCode := event.internalCode
  progress := some {
    percent := some (some (eventPercent event.progress))
    totalPages := some (event.totalPages.map Nat.cast)
    currentPage := some (event.pageNumber.map Nat.cast) }
  occurredAt := event.occurredAt
  message := event.errorReason

/-- `{ ...first, ...second }`: a key of the second object counts also when it is `undefined`. -/
def PartialProgress.spread (first second : PartialProgress) : PartialProgress where
  completedPages := second.completedPages <|> first.completedPages
  totalPages := second.totalPages <|> first.totalPages
  percent := second.percent <|> first.percent
  currentPage := second.currentPage <|> first.currentPage

def JobProgress.toPartial (progress : JobProgress) : PartialProgress where
  completedPages := some (some progress.completedPages)
  totalPages := some (some progress.totalPages)
  percent := some (some progress.percent)
  currentPage := some progress.currentPage

def normalizeProgress (progress : PartialProgress) : JobProgress :=
  let completed := max 0 (progress.completedPages.join.getD 0)
  let total := max 0 (progress.totalPages.join.getD 0)
  let inferredPercent := if 0 < total then nearest (nearest (completed / total) * 100) else 0
  { completedPages := completed
    totalPages := total
    percent := min 100 (max 0 (progress.percent.join.getD inferredPercent))
    currentPage := progress.currentPage.join }

/-- `Math.round((percent / 100) * total)` -/
def roundedPages (percent total : ℚ) : ℚ := mathRound (nearest (nearest (percent / 100) * total))

/-- The progress that `mergeJobEvent` normalizes. -/
def mergeProgress (job : JobProgress) (event : PartialProgress) : PartialProgress :=
  let progress := job.toPartial.spread event
  let progress :=
    if event.percent.join = none ∧ (event.completedPages.join ≠ none ∨ event.totalPages.join ≠ none) then
      { progress with percent := some none }
    else progress
  match event.percent.join with
  | some percent =>
    if event.completedPages.join = none ∧ 0 < job.totalPages then
      { progress with completedPages := some (some (roundedPages percent job.totalPages)) }
    else progress
  | none => progress

/-- `event.attempt !== undefined && event.attempt < job.attempt` -/
def Stale (attempt : ℤ) (event : Option ℤ) : Prop := ∃ number, event = some number ∧ number < attempt

instance (attempt : ℤ) : (event : Option ℤ) → Decidable (Stale attempt event)
  | none => .isFalse nofun
  | some number => decidable_of_iff (number < attempt) (by simp [Stale])

def mergeJobEvent (job : OcrJob) (event : JobEvent) : OcrJob :=
  if Stale job.attempt event.attempt then job
  else
    { status := event.status.getD job.status
      progress := normalizeProgress
        (match event.progress with
        | some progress => mergeProgress job.progress progress
        | none => job.progress.toPartial)
      attempt := event.attempt.getD job.attempt
      internalCode := event.internalCode <|> job.internalCode
      updatedAt := if event.occurredAt = "" then job.updatedAt else event.occurredAt
      errorMessage :=
        if event.eventType = "job.failed" ∧ event.message ≠ none ∧ event.message ≠ some "" then event.message
        else job.errorMessage }

def receive (job : OcrJob) (event : BackendEvent) : OcrJob := mergeJobEvent job (normalizeJobEvent event)

/-- The last total announced, or the one there was. -/
def announced (total : ℚ) (events : List BackendEvent) : ℚ :=
  events.foldl (fun total event => (event.totalPages.map Nat.cast).getD total) total

/-- What the user sees is sound, with this total announced last. -/
structure Sound (job : OcrJob) (total : ℚ) : Prop where
  completed_nonneg : 0 ≤ job.progress.completedPages
  completed_le : job.progress.completedPages ≤ job.progress.totalPages
  percent_nonneg : 0 ≤ job.progress.percent
  percent_le : job.progress.percent ≤ 100
  total : job.progress.totalPages = total

/-- An event of the current or a later attempt announces its total, not below the pages
that its progress makes of the total before; without a total nothing has been announced.
An event of an earlier attempt announces nothing new. -/
def Announces (attempt : ℤ) (total : ℚ) (event : BackendEvent) : Prop :=
  if Stale attempt event.attempt then ∀ pages, event.totalPages = some pages → total = pages
  else
    match event.totalPages with
    | some pages => roundedPages (eventPercent event.progress) total ≤ pages
    | none => total = 0

def AllAnnounce : ℤ → ℚ → List BackendEvent → Prop
  | _, _, [] => True
  | attempt, total, event :: rest =>
    Announces attempt total event ∧
      AllAnnounce (max attempt (event.attempt.getD attempt)) ((event.totalPages.map Nat.cast).getD total) rest

variable {job : OcrJob} {event : BackendEvent} {events : List BackendEvent} {total : ℚ}

theorem receive_stale (stale : Stale job.attempt event.attempt) : receive job event = job := if_pos stale

theorem receive_attempt : (receive job event).attempt = max job.attempt (event.attempt.getD job.attempt) := by
  by_cases stale : Stale job.attempt event.attempt
  · obtain ⟨number, same, before⟩ := stale
    have kept : receive job event = job := receive_stale ⟨number, same, before⟩
    rw [kept, same]
    exact (max_eq_left before.le).symm
  · have current : ¬ Stale job.attempt (normalizeJobEvent event).attempt := stale
    rw [receive, mergeJobEvent, if_neg current]
    change event.attempt.getD job.attempt = _
    cases attempt : event.attempt with
    | none => exact (max_self job.attempt).symm
    | some number =>
      have later : job.attempt ≤ number := not_lt.mp fun before => stale ⟨number, attempt, before⟩
      exact (max_eq_right later).symm

/-- The progress after an event that counts. -/
theorem receive_progress (current : ¬ Stale job.attempt event.attempt) : (receive job event).progress =
    { completedPages := max 0 (if 0 < job.progress.totalPages then
        roundedPages (eventPercent event.progress) job.progress.totalPages else job.progress.completedPages)
      totalPages := max 0 ((event.totalPages.map Nat.cast).getD 0)
      percent := min 100 (max 0 (eventPercent event.progress))
      currentPage := event.pageNumber.map Nat.cast } := by
  have counts : ¬ Stale job.attempt (normalizeJobEvent event).attempt := current
  rw [receive, mergeJobEvent, if_neg counts]
  by_cases some : 0 < job.progress.totalPages
  · simp [normalizeJobEvent, mergeProgress, normalizeProgress, PartialProgress.spread, JobProgress.toPartial, some]
  · simp [normalizeJobEvent, mergeProgress, normalizeProgress, PartialProgress.spread, JobProgress.toPartial, some]

theorem roundedPages_zero (percent : ℚ) : roundedPages percent 0 = 0 := by
  have zero : nearest 0 = 0 := by decide +kernel
  rw [roundedPages, mul_zero, zero]
  decide +kernel

/-- On a sound job, the rounding is all that becomes of the completed pages. -/
theorem receive_completed (sound : Sound job total) (current : ¬ Stale job.attempt event.attempt) :
    (receive job event).progress.completedPages = max 0 (roundedPages (eventPercent event.progress) total) := by
  rw [receive_progress current, ← sound.total]
  dsimp only
  split
  · rfl
  · rename_i none
    have zero : job.progress.totalPages = 0 := by
      linarith [sound.completed_nonneg, sound.completed_le]
    have nothing : job.progress.completedPages = 0 := by
      linarith [sound.completed_nonneg, sound.completed_le]
    rw [nothing, zero, roundedPages_zero]

/-- One event keeps the progress sound exactly if it announces its total. -/
theorem sound_receive_iff (sound : Sound job total) :
    Sound (receive job event) ((event.totalPages.map Nat.cast).getD total) ↔ Announces job.attempt total event := by
  unfold Announces
  split
  · rename_i stale
    rw [receive_stale stale]
    constructor
    · intro after pages same
      have now := after.total
      rw [same] at now
      exact sound.total.symm.trans now
    · intro nothing
      refine ⟨sound.completed_nonneg, sound.completed_le, sound.percent_nonneg, sound.percent_le, ?_⟩
      cases pages : event.totalPages with
      | none => exact sound.total
      | some number => exact sound.total.trans (nothing number pages)
  · rename_i current
    have progress := receive_progress current
    have completed := receive_completed sound current
    have totals : (receive job event).progress.totalPages = max 0 ((event.totalPages.map Nat.cast).getD 0) := by rw [progress]
    have percent : (receive job event).progress.percent = min 100 (max 0 (eventPercent event.progress)) := by rw [progress]
    cases pages : event.totalPages with
    | none =>
      rw [pages] at totals
      have zero : (receive job event).progress.totalPages = 0 := totals
      constructor
      · intro after
        exact after.total.symm.trans zero
      · intro none
        rw [none, roundedPages_zero] at completed
        refine ⟨?_, ?_, ?_, ?_, ?_⟩
        · rw [completed]; exact le_max_left 0 0
        · rw [completed, zero]; exact (max_self 0).le
        · rw [percent]; exact le_min (by norm_num) (le_max_left _ _)
        · rw [percent]; exact min_le_left _ _
        · rw [zero]; exact none.symm
    | some number =>
      rw [pages] at totals
      have announced : (receive job event).progress.totalPages = number := by
        rw [totals]
        exact max_eq_right (Nat.cast_nonneg number)
      constructor
      · intro after
        have below := after.completed_le
        rw [completed, announced] at below
        exact (le_max_right _ _).trans below
      · intro below
        refine ⟨?_, ?_, ?_, ?_, announced⟩
        · rw [completed]; exact le_max_left _ _
        · rw [completed, announced]; exact max_le (Nat.cast_nonneg number) below
        · rw [percent]; exact le_min (by norm_num) (le_max_left _ _)
        · rw [percent]; exact min_le_left _ _

/-- The progress is sound after every event of the list exactly if all of them announce
their totals. -/
theorem progress_sound_iff (events : List BackendEvent) {job : OcrJob} {total : ℚ} (sound : Sound job total) :
    (∀ before after, events = before ++ after → Sound (before.foldl receive job) (announced total before)) ↔
      AllAnnounce job.attempt total events := by
  induction events generalizing job total with
  | nil =>
    refine iff_of_true (fun before after split => ?_) trivial
    have none : before = [] := (List.append_eq_nil_iff.mp split.symm).1
    subst none
    exact sound
  | cons event rest ih =>
    rw [AllAnnounce, ← sound_receive_iff sound, ← receive_attempt]
    constructor
    · intro all
      have first : Sound (receive job event) ((event.totalPages.map Nat.cast).getD total) := all [event] rest rfl
      refine ⟨first, (ih first).mp fun before after split => ?_⟩
      exact all (event :: before) after (by rw [split]; rfl)
    · intro ⟨first, later⟩ before after split
      cases before with
      | nil => exact sound
      | cons head before =>
        obtain ⟨rfl, tail⟩ := List.cons.inj split
        exact (ih first).mpr later before after tail

/-- A document of four pages is prepared, has its first page, and is done. -/
def fourPages : List BackendEvent :=
  [⟨"job.pages_prepared", "preprocessing", 0, le_rfl, zero_le_one, some 1, none, some 4, none, none, "10:00"⟩,
    ⟨"page.succeeded", "running", 1 / 4, by norm_num, by norm_num, some 1, none, some 4, some 1, none, "10:01"⟩,
    ⟨"job.succeeded", "succeeded", 1, zero_le_one, le_rfl, some 1, none, some 4, none, none, "10:02"⟩]

/-- The page shows 25 percent after the second event, and one of four pages. -/
theorem progress_sound_iff_prepared :
    let shown (events : List BackendEvent) := events.foldl receive ⟨"queued", ⟨0, 0, 0, none⟩, 1, none, "", none⟩
    (shown (fourPages.take 2)).progress = ⟨1, 4, 25, some 1⟩ ∧
      Sound (shown (fourPages.take 2)) 4 ∧ Sound (shown fourPages) 4 := by
  have fresh : Sound ⟨"queued", ⟨0, 0, 0, none⟩, 1, none, "", none⟩ 0 := by
    constructor <;> norm_num
  have rounded : roundedPages (eventPercent 0) 0 ≤ (4 : ℕ) ∧ roundedPages (eventPercent (1 / 4)) (4 : ℕ) ≤ (4 : ℕ) ∧
      roundedPages (eventPercent 1) (4 : ℕ) ≤ (4 : ℕ) := by decide +kernel
  have all : AllAnnounce 1 0 fourPages := by
    have current : ¬ Stale 1 (some 1) := by decide
    simp only [fourPages, AllAnnounce, Announces, Option.getD_some, max_self, if_neg current, Option.map_some, and_true]
    exact rounded
  have sound := (progress_sound_iff fourPages fresh).mpr all
  exact ⟨by decide +kernel, sound _ (fourPages.drop 2) rfl, sound _ [] (List.append_nil _).symm⟩

/-- `job.running` says nothing of the pages, and the three pages announced before are gone. -/
theorem progress_not_sound : ¬ ∀ (job : OcrJob) (events : List BackendEvent), Sound job job.progress.totalPages →
    (∀ event ∈ events, ¬ Stale job.attempt event.attempt) → ∀ before after, events = before ++ after →
      Sound (before.foldl receive job) (announced job.progress.totalPages before) := by
  intro all
  have sound : Sound ⟨"preprocessing", ⟨0, 3, 0, none⟩, 1, none, "", none⟩ 3 := by
    constructor <;> norm_num
  have after := all ⟨"preprocessing", ⟨0, 3, 0, none⟩, 1, none, "", none⟩
    [⟨"job.running", "running", 0, le_rfl, zero_le_one, some 1, none, none, none, none, "10:00"⟩] sound
    (by simp [Stale]) [_] [] rfl
  have last : (receive ⟨"preprocessing", ⟨0, 3, 0, none⟩, 1, none, "", none⟩
    ⟨"job.running", "running", 0, le_rfl, zero_le_one, some 1, none, none, none, none, "10:00"⟩).progress.totalPages = 3 :=
    after.total
  have current : ¬ Stale 1 (some 1) := by decide
  rw [receive_progress current] at last
  norm_num at last

end MonkeyOcr.Browser.Progress
