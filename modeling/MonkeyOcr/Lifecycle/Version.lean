import MonkeyOcr.Infrastructure.Persistence
import Mathlib.Data.Multiset.Basic
import Mathlib.Logic.Relation

namespace MonkeyOcr

/-- What the saves of a job change, as the database keeps it: the order of
artifacts and the texts of pages are not part of it. -/
structure Version where
  state : JobState
  attempt : Nat
  pages : List PageRow
  artifacts : Multiset Artifact

def Job.version (job : Job) : Version where
  state := job.state
  attempt := job.attempt
  pages := job.pages.map Page.toRow
  artifacts := job.artifacts

def JobRow.version (row : JobRow) : Version where
  state := row.status
  attempt := row.currentAttempt
  pages := row.pages row.currentAttempt
  artifacts := row.artifacts row.currentAttempt

/-- What `create_job` fixes of a job. -/
structure Birth where
  ownerId : Id
  uploadId : Id
  options : List (String × Codec.Json)
  idempotencyKey : Option String
  createdAt : Time

def Job.birth (job : Job) : Birth where
  ownerId := job.ownerId
  uploadId := job.uploadId
  options := job.options
  idempotencyKey := job.idempotencyKey
  createdAt := job.createdAt

def JobRow.birth (row : JobRow) : Birth where
  ownerId := row.apiKeyId
  uploadId := row.uploadId
  options := row.options
  idempotencyKey := row.idempotencyKey
  createdAt := row.createdAt

namespace PageRow

def started (page : PageRow) : PageRow :=
  if page.status = .succeeded then page
  else
    { page with
      status := .running, retryCount := page.retryCount + 1, lastInternalCode := 0
      lastErrorReason := none }

def noted (page : PageRow) (internalCode : Nat) (reason : Option String) : PageRow :=
  { page with lastInternalCode := internalCode, lastErrorReason := reason }

def succeededWith (page : PageRow) (result : ObjectKey) (sha256 : String)
    (visualization : Option ObjectKey) : PageRow :=
  { page with
    status := .succeeded, resultObjectKey := some result, resultSha256 := some sha256
    visualizationObjectKey := visualization, lastInternalCode := 0, lastErrorReason := none }

def failedWith (page : PageRow) (internalCode : Nat) (reason : String) : PageRow :=
  { page with status := .failed, lastInternalCode := internalCode, lastErrorReason := some reason }

def retried (page : PageRow) : PageRow :=
  if page.status = .succeeded then page
  else
    { page with
      status := .pending, retryCount := 0, resultObjectKey := none, resultSha256 := none
      visualizationObjectKey := none, lastInternalCode := 0, lastErrorReason := none }

@[simp] theorem toPage_toRow (row : PageRow) : row.toPage.toRow = row := rfl

end PageRow

namespace Page

theorem start_toRow (page : Page) : page.start.toRow = page.toRow.started := by
  unfold Page.start PageRow.started
  by_cases done : page.state = .succeeded <;> simp [toRow, done]

theorem prepareRetry_toRow (page : Page) : page.prepareRetry.toRow = page.toRow.retried := by
  unfold Page.prepareRetry PageRow.retried
  by_cases done : page.state = .succeeded <;> simp [toRow, done]

theorem succeed_toRow (page : Page) (markdown structured result sha256 visualization) :
    (page.succeed markdown structured result sha256 visualization).toRow =
      page.toRow.succeededWith result sha256 visualization := rfl

theorem fail_toRow (page : Page) (reason internalCode) :
    (page.fail reason internalCode).toRow = page.toRow.failedWith internalCode reason := rfl

end Page

namespace Version

/-- The version with its page at `index` replaced. -/
def setPage (v : Version) (index : Nat) (page : PageRow) : Version :=
  { v with pages := v.pages.set index page }

def terminal (v : Version) : Prop := v.state = .cancelled ∨ v.state = .succeeded ∨ v.state = .failed

def Cancelling (v : Version) : Prop := v.state = .cancelRequested ∨ v.state = .cancelled

end Version

/-- A page as `set_pages` makes it. -/
def PageRow.Fresh (page : PageRow) : Prop :=
  page.status = .pending ∧ page.retryCount = 0 ∧ page.resultObjectKey = none ∧
    page.visualizationObjectKey = none

/-- One save of a job, by the event it is saved with: the life cycle every
client of the job table keeps to. `origin` is the read the saved object stems
from, `none` after a save of its own. -/
inductive Edit (origin : Option Site) (v : Version) : EventType → Version → Prop
  | preprocessing (waiting : v.state = .queued ∨ v.state = .retrying) :
      Edit origin v .jobPreprocessing { v with state := .preprocessing }
  | pagesPrepared {pages : List PageRow} (state : v.state = .preprocessing) (none : v.pages = [])
      (some : pages ≠ []) (ordered : Tables.Sorted PageRow.pageNumber pages)
      (fresh : ∀ page ∈ pages, page.Fresh) :
      Edit origin v .jobPagesPrepared { v with pages }
  | running (state : v.state = .preprocessing) : Edit origin v .jobRunning { v with state := .running }
  | pageRunning {index page} (active : v.state ≠ .cancelRequested) (found : v.pages[index]? = some page) :
      Edit origin v .pageRunning (v.setPage index page.started)
  | pageRetryScheduled {index page internalCode reason} (active : v.state ≠ .cancelRequested)
      (found : v.pages[index]? = some page) :
      Edit origin v .pageRetryScheduled (v.setPage index (page.noted internalCode reason))
  | pageSucceeded {index page result sha256 visualization} (read : origin = some (.recognized index))
      (active : v.state ≠ .cancelRequested) (found : v.pages[index]? = some page) :
      Edit origin v .pageSucceeded (v.setPage index (page.succeededWith result sha256 visualization))
  | pageFailed {index page internalCode reason} (read : origin = some (.exhausted index))
      (found : v.pages[index]? = some page) :
      Edit origin v .pageFailed (v.setPage index (page.failedWith internalCode reason))
  | assembling (state : v.state = .running) :
      Edit origin v .jobAssembling { v with state := .assembling }
  | succeeded {artifacts} (state : v.state = .assembling)
      (complete : ∀ page ∈ v.pages, page.status = .succeeded) :
      Edit origin v .jobSucceeded { v with state := .succeeded, artifacts }
  | failed (active : v.state ≠ .cancelRequested) (running : ¬ v.terminal) :
      Edit origin v .jobFailed { v with state := .failed }
  | cancelRequested (active : v.state = .preprocessing ∨ v.state = .running ∨ v.state = .assembling) :
      Edit origin v .jobCancelRequested { v with state := .cancelRequested }
  | cancelled (asked : v.state = .cancelRequested ∨ v.state = .queued ∨ v.state = .retrying) :
      Edit origin v .jobCancelled { v with state := .cancelled }
  | retrying (ended : v.state = .failed ∨ v.state = .cancelled) :
      Edit origin v .jobRetrying
        { state := .retrying, attempt := v.attempt + 1, pages := v.pages.map PageRow.retried
          artifacts := 0 }

/-- Some saves later. -/
def Version.Evolves : Version → Version → Prop :=
  Relation.ReflTransGen fun v v' => ∃ origin type, Edit origin v type v'

namespace Edit

variable {origin : Option Site} {v v' : Version} {type : EventType}

theorem attempt (edit : Edit origin v type v') :
    v'.attempt = v.attempt ∨ type = .jobRetrying ∧ v'.attempt = v.attempt + 1 := by
  cases edit <;> simp [Version.setPage]

/-- What is terminal changes state by a retry only. -/
theorem terminal_state (edit : Edit origin v type v') (ended : v.terminal)
    (same : v'.attempt = v.attempt) : v'.state = v.state := by
  cases edit <;> grind [Version.terminal, Version.setPage]

/-- A cancellation outlasts every save within the attempt. -/
theorem cancelling (edit : Edit origin v type v') (asked : v.Cancelling)
    (same : v'.attempt = v.attempt) : v'.Cancelling := by
  cases edit <;> grind [Version.Cancelling, Version.setPage, Version.terminal]

/-- Artifacts come with success and leave with a retry. -/
theorem artifacts (edit : Edit origin v type v') (only : v.artifacts ≠ 0 → v.state = .succeeded) :
    v'.artifacts ≠ 0 → v'.state = .succeeded := by
  cases edit <;> grind [Version.setPage, Version.terminal]

/-- A save after success keeps the artifacts of the attempt. -/
theorem artifacts_kept (edit : Edit origin v type v') (done : v.state = .succeeded) :
    v'.artifacts = v.artifacts := by
  cases edit <;> grind [Version.setPage, Version.terminal]

/-- A terminal event is saved with the state it reports, and only when the job
was not terminal before. -/
theorem terminal_event (edit : Edit origin v type v') (last : type.terminal = true) :
    ¬ v.terminal ∧ v'.attempt = v.attempt ∧
      (type = .jobCancelled ∧ v'.state = .cancelled ∨ type = .jobFailed ∧ v'.state = .failed ∨
        type = .jobSucceeded ∧ v'.state = .succeeded) := by
  cases edit <;> grind [EventType.terminal, Version.terminal]

end Edit

namespace Version

variable {v v' v'' : Version}

theorem Evolves.refl : v.Evolves v := Relation.ReflTransGen.refl

theorem Evolves.trans (first : v.Evolves v') (rest : v'.Evolves v'') : v.Evolves v'' :=
  Relation.ReflTransGen.trans first rest

theorem Evolves.edit {origin type} (before : v.Evolves v') (edit : Edit origin v' type v'') :
    v.Evolves v'' := Relation.ReflTransGen.tail before ⟨origin, type, edit⟩

theorem Evolves.attempt_le (evolves : v.Evolves v') : v.attempt ≤ v'.attempt := by
  induction evolves with
  | refl => rfl
  | tail _ edit ih =>
    obtain ⟨origin, type, edit⟩ := edit
    rcases edit.attempt with same | ⟨-, more⟩ <;> omega

/-- What one save preserves within an attempt, any number of saves do. -/
theorem Evolves.within {P : Version → Prop} (evolves : v.Evolves v')
    (kept : ∀ {origin type u u'}, Edit origin u type u' → P u → u'.attempt = u.attempt → P u')
    (same : v'.attempt = v.attempt) (holds : P v) : P v' := by
  induction evolves with
  | refl => exact holds
  | @tail u u' before edit ih =>
    obtain ⟨origin, type, edit⟩ := edit
    have low := Evolves.attempt_le before
    have step : u'.attempt = u.attempt ∨ _ := edit.attempt
    have stays : u'.attempt = u.attempt := by rcases step with h | ⟨-, h⟩ <;> omega
    exact kept edit (ih (by omega)) stays

theorem Evolves.terminal_state (evolves : v.Evolves v') (same : v'.attempt = v.attempt)
    (ended : v.terminal) : v'.state = v.state := by
  have kept : v'.state = v.state ∧ v'.terminal :=
    evolves.within (P := fun u => u.state = v.state ∧ u.terminal)
      (fun edit ⟨state, ended⟩ stays => by
        have now := edit.terminal_state ended stays
        exact ⟨now.trans state, by simpa [terminal, now] using ended⟩) same ⟨rfl, ended⟩
  exact kept.1

theorem Evolves.cancelling (evolves : v.Evolves v') (same : v'.attempt = v.attempt)
    (asked : v.Cancelling) : v'.Cancelling :=
  evolves.within (P := Cancelling) (fun edit asked stays => edit.cancelling asked stays) same asked

end Version
end MonkeyOcr
