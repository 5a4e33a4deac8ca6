import MonkeyOcr.Application.Services
import MonkeyOcr.Application.Worker
import MonkeyOcr.Lifecycle.Version

namespace MonkeyOcr

/-- `job'` is `job` after one edit, ready to be saved over it. -/
structure Job.Edits (origin : Option Site) (job : Job) (type : EventType) (job' : Job) : Prop where
  id : job'.id = job.id
  revision : job'.revision = job.revision
  birth : job'.birth = job.birth
  edit : Edit origin job.version type job'.version

namespace Job

variable {job job' : Job} {now : Time} {origin : Option Site}

theorem transition_ok {target : JobState} {allowed : List JobState}
    (done : job.transition target allowed now = .ok job') :
    job.state ∈ allowed ∧ job' = { job with state := target, updatedAt := now } := by
  unfold transition at done
  split at done
  · rename_i permitted
    exact ⟨permitted, (Except.ok.inj done).symm⟩
  · cases done

theorem version_setPage (index : Nat) (page : Page) :
    (job.setPage index page).version = job.version.setPage index page.toRow := by
  simp [version, setPage, Version.setPage, List.map_set]

theorem version_pages_getElem? {index : Nat} {page : Page} (found : job.pages[index]? = some page) :
    job.version.pages[index]? = some page.toRow := by
  simp [version, found]

theorem beginPreprocessing_edits (done : job.beginPreprocessing now = .ok job') :
    job.Edits origin .jobPreprocessing job' := by
  unfold beginPreprocessing at done
  cases moved : job.transition .preprocessing [.queued, .retrying] now with
  | error e => rw [moved] at done; cases done
  | ok middle =>
    obtain ⟨permitted, rfl⟩ := transition_ok moved
    rw [moved] at done
    cases done
    exact ⟨rfl, rfl, rfl, .preprocessing (by simpa [version] using permitted)⟩

theorem setPages_ok {pages : List Page} (done : job.setPages pages now = .ok job') :
    job.state = .preprocessing ∧ pages ≠ [] ∧ job' = { job with pages, updatedAt := now } := by
  unfold setPages at done
  split at done
  · cases done
  · rename_i state
    split at done
    · cases done
    · rename_i some
      exact ⟨by simpa using state, by simpa using some, (Except.ok.inj done).symm⟩

theorem beginRunning_edits (done : job.beginRunning now = .ok job') :
    job.Edits origin .jobRunning job' := by
  obtain ⟨permitted, rfl⟩ := transition_ok done
  exact ⟨rfl, rfl, rfl, .running (by simpa [version] using permitted)⟩

theorem beginAssembling_edits (done : job.beginAssembling now = .ok job') :
    job.Edits origin .jobAssembling job' := by
  obtain ⟨permitted, rfl⟩ := transition_ok done
  exact ⟨rfl, rfl, rfl, .assembling (by simpa [version] using permitted)⟩

theorem cancel_ok (done : job.cancel now = .ok job') :
    job.state = .cancelRequested ∧
      job' = { job with state := .cancelled, updatedAt := now, completedAt := some now } := by
  unfold cancel at done
  cases moved : job.transition .cancelled [.cancelRequested] now with
  | error e => rw [moved] at done; cases done
  | ok middle =>
    obtain ⟨permitted, rfl⟩ := transition_ok moved
    rw [moved] at done
    cases done
    exact ⟨by simpa using permitted, rfl⟩

theorem cancel_edits (done : job.cancel now = .ok job') :
    job.Edits origin .jobCancelled job' ∧ job'.state = .cancelled := by
  obtain ⟨asked, rfl⟩ := cancel_ok done
  exact ⟨⟨rfl, rfl, rfl, .cancelled (.inl asked)⟩, rfl⟩

theorem succeed_ok {artifacts : List Artifact} (done : job.succeed artifacts now = .ok job') :
    (∀ page ∈ job.pages, page.state = .succeeded) ∧ job.state = .assembling ∧
      job' = { job with
        state := .succeeded, updatedAt := now, artifacts, completedAt := some now
        internalCode := 0, errorReason := none } := by
  unfold succeed at done
  split at done
  · cases done
  · rename_i complete
    cases moved : job.transition .succeeded [.assembling] now with
    | error e => simp [moved, bind, Except.bind] at done
    | ok middle =>
      obtain ⟨permitted, rfl⟩ := transition_ok moved
      simp only [moved, bind, Except.bind, pure, Except.pure] at done
      refine ⟨?_, by simpa using permitted, (Except.ok.inj done).symm⟩
      simp only [Bool.or_eq_true, List.any_eq_true, not_or, not_exists, not_and] at complete
      intro page member
      simpa using complete.2 page member

theorem succeed_edits {artifacts : List Artifact} (done : job.succeed artifacts now = .ok job') :
    job.Edits origin .jobSucceeded job' ∧ job'.state = .succeeded := by
  obtain ⟨complete, state, rfl⟩ := succeed_ok done
  refine ⟨⟨rfl, rfl, rfl, .succeeded state fun row member => ?_⟩, rfl⟩
  obtain ⟨page, memberPage, rfl⟩ := List.mem_map.mp member
  exact complete page memberPage

theorem fail_ok {reason : String} {internalCode : Nat}
    (done : job.fail reason internalCode now = .ok job') :
    ¬ job.version.terminal ∧
      job' = { job with
        state := .failed, updatedAt := now, internalCode, errorReason := some reason
        completedAt := some now } := by
  unfold fail at done
  cases moved : job.transition .failed
      [.queued, .preprocessing, .running, .assembling, .retrying, .cancelRequested] now with
  | error e => rw [moved] at done; cases done
  | ok middle =>
    obtain ⟨permitted, rfl⟩ := transition_ok moved
    rw [moved] at done
    cases done
    refine ⟨fun ended => ?_, rfl⟩
    rcases ended with h | h | h <;> simp_all [version]

theorem fail_edits {reason : String} {internalCode : Nat} (active : job.state ≠ .cancelRequested)
    (done : job.fail reason internalCode now = .ok job') :
    job.Edits origin .jobFailed job' ∧ job'.state = .failed := by
  obtain ⟨running, rfl⟩ := fail_ok done
  exact ⟨⟨rfl, rfl, rfl, .failed active running⟩, rfl⟩

theorem retry_edits {requestId : String} (done : job.retry requestId now = .ok job') :
    job.Edits origin .jobRetrying job' ∧ job'.attempt = job.attempt + 1 := by
  unfold retry at done
  cases moved : job.transition .retrying [.failed, .cancelled] now with
  | error e => rw [moved] at done; cases done
  | ok middle =>
    obtain ⟨permitted, rfl⟩ := transition_ok moved
    rw [moved] at done
    cases done
    refine ⟨⟨rfl, rfl, rfl, ?_⟩, rfl⟩
    have pages : (job.pages.map Page.prepareRetry).map Page.toRow =
        (job.pages.map Page.toRow).map PageRow.retried := by
      simp [Page.prepareRetry_toRow]
    change Edit origin job.version .jobRetrying
      ⟨.retrying, job.attempt + 1, (job.pages.map Page.prepareRetry).map Page.toRow, 0⟩
    rw [pages]
    exact .retrying (by simpa [version] using permitted)

/-- `request_cancel` of the service: a job that waits is cancelled at once. -/
theorem requestCancel_ok (done : job.requestCancel now = .ok job') :
    job.state ∈ [.queued, .preprocessing, .running, .assembling, .retrying] ∧
      job' = { job with state := .cancelRequested, updatedAt := now } := transition_ok done

theorem pageRunning_edits {index : Nat} {page : Page} (active : job.state ≠ .cancelRequested)
    (found : job.pages[index]? = some page) :
    job.Edits origin .pageRunning (job.setPage index page.start) := by
  refine ⟨rfl, rfl, rfl, ?_⟩
  rw [version_setPage, Page.start_toRow]
  exact .pageRunning active (version_pages_getElem? found)

theorem pageRetryScheduled_edits {index : Nat} {page : Page} (internalCode : Nat)
    (reason : Option String) (active : job.state ≠ .cancelRequested)
    (found : job.pages[index]? = some page) :
    job.Edits origin .pageRetryScheduled
      (job.setPage index { page with internalCode, errorReason := reason }) := by
  refine ⟨rfl, rfl, rfl, ?_⟩
  rw [version_setPage]
  exact .pageRetryScheduled active (version_pages_getElem? found)

/-- The page that failed was not of `job`, which is saved as it is. -/
theorem pageRetryScheduled_edits_unchanged {index : Nat} {page : Page}
    (active : job.state ≠ .cancelRequested) (found : job.pages[index]? = some page) :
    job.Edits origin .pageRetryScheduled job := by
  have unchanged : job.setPage index page = job := by
    have same : job.pages.set index page = job.pages := by
      obtain ⟨bound, rfl⟩ := List.getElem?_eq_some_iff.mp found
      exact List.set_getElem_self bound
    rw [setPage, same]
  have edits : job.Edits origin .pageRetryScheduled (job.setPage index page) :=
      pageRetryScheduled_edits page.internalCode page.errorReason active found
  rwa [unchanged] at edits

theorem pageSucceeded_edits {index : Nat} {page : Page} {result : OCRResult}
    {markdown structured resultKey sha256 visualization} (active : job.state ≠ .cancelRequested)
    (found : job.pages[index]? = some page) :
    job.Edits (some (.recognized index)) .pageSucceeded ((OCRWorker.withEngine job result).setPage index
      (page.succeed markdown structured resultKey sha256 visualization)) := by
  refine ⟨rfl, rfl, rfl, ?_⟩
  rw [version_setPage, Page.succeed_toRow]
  exact .pageSucceeded rfl active (version_pages_getElem? found)

theorem pageFailed_edits {index : Nat} {page : Page} {reason : String} {internalCode : Nat}
    (found : job.pages[index]? = some page) :
    job.Edits (some (.exhausted index)) .pageFailed
      (job.setPage index (page.fail reason internalCode)) := by
  refine ⟨rfl, rfl, rfl, ?_⟩
  rw [version_setPage, Page.fail_toRow]
  exact .pageFailed rfl (version_pages_getElem? found)

end Job

/-- The pages `set_pages` is called with, from what a preprocessor returned. -/
theorem preparedPages_sorted {prepared : List PreparedPage} {n : Nat}
    (numbers : prepared.map PreparedPage.pageNumber = List.range' 1 n) :
    Tables.Sorted PageRow.pageNumber
      ((prepared.map fun page => ({ pageNumber := page.pageNumber
                                    inputObjectKey := page.objectKey } : Page)).map Page.toRow) := by
  have increasing : (prepared.map PreparedPage.pageNumber).Pairwise (· < ·) :=
    numbers ▸ List.pairwise_lt_range'
  rw [Tables.Sorted, List.pairwise_map, List.pairwise_map]
  exact List.pairwise_map.mp increasing

theorem preparedPages_insertionSort {prepared : List PreparedPage} {n : Nat}
    (numbers : prepared.map PreparedPage.pageNumber = List.range' 1 n) :
    prepared.insertionSort (fun a b => a.pageNumber ≤ b.pageNumber) = prepared := by
  have increasing : (prepared.map PreparedPage.pageNumber).Pairwise (· < ·) :=
    numbers ▸ List.pairwise_lt_range'
  exact List.Pairwise.insertionSort_eq ((List.pairwise_map.mp increasing).imp Nat.le_of_lt)

end MonkeyOcr
