import MonkeyOcr.Infrastructure.ExecutionLemmas
import MonkeyOcr.Lifecycle.Memory

namespace MonkeyOcr

open Tables

namespace Edit

variable {origin : Option Site} {v v' : Version} {type : EventType}

theorem pageNumbers (edit : Edit origin v type v') :
    v'.pages.map PageRow.pageNumber = v.pages.map PageRow.pageNumber ∨ v.pages = [] := by
  have replaced : ∀ {index page page'}, v.pages[index]? = some page →
      page'.pageNumber = page.pageNumber →
      (v.pages.set index page').map PageRow.pageNumber = v.pages.map PageRow.pageNumber := by
    intro index page page' found same
    obtain ⟨bound, rfl⟩ := List.getElem?_eq_some_iff.mp found
    rw [List.map_set, same, ← List.getElem_map PageRow.pageNumber (h := by simpa using bound)]
    exact List.set_getElem_self _
  cases edit with
  | pagesPrepared _ none => exact .inr none
  | pageRunning _ found => exact .inl (replaced found (by unfold PageRow.started; split <;> rfl))
  | pageRetryScheduled _ found => exact .inl (replaced found rfl)
  | pageSucceeded _ _ found => exact .inl (replaced found rfl)
  | pageFailed _ found => exact .inl (replaced found rfl)
  | retrying =>
    refine .inl ?_
    rw [List.map_map]
    refine List.map_congr_left fun page _ => ?_
    unfold Function.comp PageRow.retried
    split <;> rfl
  | _ => exact .inl rfl

theorem ordered (edit : Edit origin v type v') (sorted : Sorted PageRow.pageNumber v.pages) :
    Sorted PageRow.pageNumber v'.pages := by
  have numbers := edit.pageNumbers
  cases edit with
  | pagesPrepared _ _ _ ordered => exact ordered
  | _ =>
    rcases numbers with same | none
    · unfold Sorted at *
      exact List.pairwise_map.mp (same ▸ List.pairwise_map.mpr sorted)
    · simp_all [Sorted]

end Edit

namespace JobRow

variable {row row' : JobRow} {job : Job} {event : JobEvent} {retentionDays : Nat} {id : Id}

@[simp] theorem version_toJob (id : Id) : (row.toJob id).version = row.version := by
  have pages : ∀ rows : List PageRow, (rows.map PageRow.toPage).map Page.toRow = rows := fun rows => by
    rw [List.map_map]
    exact List.map_id rows
  have artifacts : ((row.toJob id).artifacts : Multiset Artifact) = row.artifacts row.currentAttempt :=
    Multiset.coe_eq_coe.mpr (List.perm_insertionSort _ _)
  simp only [Job.version, artifacts]
  simp only [toJob, pages]
  rfl

/-- What a successful `_save_job` found and did. -/
structure Saves (row : JobRow) (job : Job) (row' : JobRow) : Prop where
  unclaimed : row.claim = none
  revision : row.revision = job.revision
  next : row'.revision = row.revision + 1
  claim : row'.claim = none
  status : row'.status = job.state
  attempt : row'.currentAttempt = job.attempt
  progress : row'.progressPercent = job.progress
  pages : row'.pages = Function.update row.pages job.attempt
    (upsertAll PageRow.pageNumber (row.pages job.attempt) (job.pages.map Page.toRow))
  artifacts : row'.artifacts = if job.artifacts.isEmpty then row.artifacts
    else Function.update row.artifacts job.attempt job.artifacts
  attempts : row'.attempts = upsertAttempt row.attempts job
  events : row'.events = row.events
  uploadId : row'.uploadId = row.uploadId
  apiKeyId : row'.apiKeyId = row.apiKeyId
  options : row'.options = job.options
  idempotencyKey : row'.idempotencyKey = row.idempotencyKey
  createdAt : row'.createdAt = row.createdAt

theorem save_ok (done : row.save job retentionDays = .ok row') : row.Saves job row' := by
  unfold save at done
  split at done
  · cases done
  · rename_i free
    split at done
    · cases done
    · split at done
      · cases done
      · cases done
        simp only [not_or, Option.not_isSome_iff_eq_none, not_not, ne_eq] at free
        exact ⟨free.1, free.2, rfl, free.1, rfl, rfl, rfl, rfl, rfl, rfl, rfl, rfl, rfl, rfl, rfl, rfl⟩

@[simp] theorem append_version : (row.append event).2.version = row.version := by
  rw [append_row]; rfl

/-- The rows of a job's tables: nothing is stored for an attempt to come, the
pages of every attempt are in order, artifacts belong to success. -/
structure Tidy (row : JobRow) : Prop where
  pagesLater : ∀ attempt, row.currentAttempt < attempt → row.pages attempt = []
  artifactsLater : ∀ attempt, row.currentAttempt < attempt → row.artifacts attempt = []
  ordered : ∀ attempt, Sorted PageRow.pageNumber (row.pages attempt)
  artifacts : row.version.artifacts ≠ 0 → row.version.state = .succeeded

theorem Tidy.congr (tidy : row.Tidy) (pages : row'.pages = row.pages)
    (artifacts : row'.artifacts = row.artifacts) (attempt : row'.currentAttempt = row.currentAttempt)
    (status : row'.status = row.status) : row'.Tidy := by
  refine ⟨?_, ?_, ?_, ?_⟩
  · rw [pages, attempt]; exact tidy.pagesLater
  · rw [artifacts, attempt]; exact tidy.artifactsLater
  · rw [pages]; exact tidy.ordered
  · simp only [version, pages, artifacts, attempt, status]; exact tidy.artifacts

theorem Tidy.append (tidy : row.Tidy) : (row.append event).2.Tidy :=
  tidy.congr append_pages append_artifacts append_currentAttempt append_status

theorem insert_version (new : job.New) :
    (insert job retentionDays).version = ⟨.queued, 1, [], 0⟩ := by
  simp [version, insert, new.state, new.attempt]

theorem insert_tidy : (insert job retentionDays).Tidy :=
  ⟨fun _ _ => rfl, fun _ _ => rfl, fun _ => List.Pairwise.nil, fun some => absurd rfl some⟩

/-- A save that is one edit away from the row stores exactly that edit. -/
theorem Saves.version {origin : Option Site} {type : EventType} (saves : row.Saves job row')
    (tidy : row.Tidy) (edit : Edit origin row.version type job.version) :
    row'.version = job.version := by
  have pages : upsertAll PageRow.pageNumber (row.pages job.attempt) (job.pages.map Page.toRow) =
      job.pages.map Page.toRow := by
    refine upsertAll_of_covers (tidy.ordered _) (edit.ordered (tidy.ordered _)) fun old member => ?_
    rcases edit.attempt with same | ⟨-, later⟩
    · have here : old ∈ row.version.pages := by
        change job.attempt = row.currentAttempt at same
        rwa [same] at member
      rcases edit.pageNumbers with numbers | none
      · have number := List.mem_map_of_mem (f := PageRow.pageNumber) here
        rw [← numbers] at number
        exact List.mem_map.mp number
      · rw [none] at here; cases here
    · change job.attempt = row.currentAttempt + 1 at later
      rw [tidy.pagesLater job.attempt (by omega)] at member
      cases member
  have artifacts : (row'.artifacts job.attempt : Multiset Artifact) = job.artifacts := by
    rw [saves.artifacts]
    split
    · rename_i empty
      rw [List.isEmpty_iff.mp empty]
      rcases edit.attempt with same | ⟨-, later⟩
      · change job.attempt = row.currentAttempt at same
        have kept : row.version.artifacts = job.version.artifacts ∨ row.version.artifacts = 0 := by
          by_cases none : row.version.artifacts = 0
          · exact .inr none
          · exact .inl ((edit.artifacts_kept (tidy.artifacts none)).symm)
        have nothing : job.version.artifacts = 0 := by
          simp [Job.version, List.isEmpty_iff.mp empty]
        rw [nothing, or_self] at kept
        rw [same]
        exact kept
      · change job.attempt = row.currentAttempt + 1 at later
        rw [tidy.artifactsLater job.attempt (by omega)]
    · rw [Function.update_self]
  simp only [JobRow.version, Job.version, saves.status, saves.attempt, saves.pages,
    Function.update_self, pages, artifacts]

theorem Saves.tidy {origin : Option Site} {type : EventType} (saves : row.Saves job row')
    (tidy : row.Tidy) (edit : Edit origin row.version type job.version) : row'.Tidy := by
  have version := saves.version tidy edit
  have low : row.currentAttempt ≤ job.attempt := by
    rcases edit.attempt with same | ⟨-, later⟩
    · exact same.ge
    · exact Nat.le_of_lt (by change job.attempt = row.currentAttempt + 1 at later; omega)
  refine ⟨fun attempt later => ?_, fun attempt later => ?_, fun attempt => ?_, ?_⟩
  · rw [saves.attempt] at later
    rw [saves.pages, Function.update_of_ne (by omega)]
    exact tidy.pagesLater attempt (by omega)
  · rw [saves.attempt] at later
    rw [saves.artifacts]
    split
    · exact tidy.artifactsLater attempt (by omega)
    · rw [Function.update_of_ne (by omega)]
      exact tidy.artifactsLater attempt (by omega)
  · by_cases here : attempt = job.attempt
    · have pages : row'.pages attempt = job.version.pages := by
        rw [← version, here, ← saves.attempt]; rfl
      rw [pages]
      exact edit.ordered (tidy.ordered _)
    · rw [saves.pages, Function.update_of_ne here]
      exact tidy.ordered attempt
  · rw [version]
    exact edit.artifacts tidy.artifacts

end JobRow
end MonkeyOcr
