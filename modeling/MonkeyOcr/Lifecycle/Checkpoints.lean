import MonkeyOcr.Lifecycle.Attempts

namespace MonkeyOcr

open Calls

/-- A page of `rows` that keeps the checkpoint of `page`. -/
def PageRow.Kept (page : PageRow) (rows : List PageRow) : Prop :=
  ∃ page' ∈ rows, page'.pageNumber = page.pageNumber ∧ page'.status = .succeeded ∧
    page'.resultObjectKey = page.resultObjectKey ∧ page'.resultSha256 = page.resultSha256

/-- The call that reads `job` here will write a page that is finished. -/
def Site.overwrites : Site → Job → Bool
  | .recognized index, job =>
    job.state ≠ .cancelRequested ∧ job.pages[index]?.any (·.state = .succeeded)
  | .exhausted index, job => job.pages[index]?.any (·.state = .succeeded)
  | _, _ => false

/-- What a delivery reads after its recognition, or after its last attempt at
it, is not finished by somebody else. -/
def Unfinished (s : State) : Step → Prop
  | .resume i _ =>
    ∀ call ∈ s.calls[i]?, ∀ read ∈ reading? call, ∀ job ∈ s.world.getJob read.2,
      read.1.overwrites job = false
  | _ => True

instance (s : State) : ∀ action, Decidable (Unfinished s action)
  | .resume i _ => inferInstanceAs (Decidable (∀ call ∈ s.calls[i]?, ∀ read ∈ reading? call,
      ∀ job ∈ s.world.getJob read.2, read.1.overwrites job = false))
  | .start _ | .kill _ | .env _ => isTrue trivial

/-- A page that is not the one replaced is still there, and the one replaced
is kept by what replaces it. -/
theorem PageRow.Kept.set {rows : List PageRow} {page old new : PageRow} {index : Nat}
    (found : rows[index]? = some old) (kept : page.Kept rows)
    (replaced : page.Kept [old] → page.Kept [new]) : page.Kept (rows.set index new) := by
  obtain ⟨page', member, same⟩ := kept
  obtain ⟨position, at_position⟩ := List.mem_iff_getElem?.mp member
  by_cases here : index = position
  · subst here
    cases Option.some.inj (found.symm.trans at_position)
    obtain ⟨page'', member', same'⟩ := replaced ⟨old, List.mem_singleton_self _, same⟩
    cases List.mem_singleton.mp member'
    obtain ⟨bound, -⟩ := List.getElem?_eq_some_iff.mp found
    exact ⟨new, List.mem_set bound new, same'⟩
  · refine ⟨page', List.mem_iff_getElem?.mpr ⟨position, ?_⟩, same⟩
    rw [List.getElem?_set_ne here]
    exact at_position

section

variable {origin : Option Site} {v v' : Version} {type : EventType} {page : PageRow}

/-- A save keeps the checkpoints of the version it edits, unless it comes from
a read that found the page finished. -/
theorem Edit.kept (edit : Edit origin v type v') (kept : page.Kept v.pages)
    (recognized : ∀ index, origin = some (.recognized index) → v.state ≠ .cancelRequested →
      ∀ old, v.pages[index]? = some old → old.status ≠ .succeeded)
    (exhausted : ∀ index, origin = some (.exhausted index) →
      ∀ old, v.pages[index]? = some old → old.status ≠ .succeeded) : page.Kept v'.pages := by
  cases edit with
  | pagesPrepared _ none =>
    obtain ⟨page', member, -⟩ := kept
    rw [none] at member
    cases member
  | pageRunning _ found =>
    refine kept.set found fun ⟨old, member, same⟩ => ?_
    cases List.mem_singleton.mp member
    rw [PageRow.started, if_pos same.2.1]
    exact ⟨_, List.mem_singleton_self _, same⟩
  | pageRetryScheduled _ found =>
    refine kept.set found fun ⟨old, member, same⟩ => ?_
    cases List.mem_singleton.mp member
    exact ⟨_, List.mem_singleton_self _, same⟩
  | pageSucceeded read active found =>
    refine kept.set found fun ⟨old, member, _, done, _⟩ => ?_
    cases List.mem_singleton.mp member
    exact absurd done (recognized _ read active _ found)
  | pageFailed read found =>
    refine kept.set found fun ⟨old, member, _, done, _⟩ => ?_
    cases List.mem_singleton.mp member
    exact absurd done (exhausted _ read _ found)
  | retrying =>
    obtain ⟨page', member, same⟩ := kept
    refine ⟨page'.retried, List.mem_map_of_mem member, ?_⟩
    rw [PageRow.retried, if_pos same.2.1]
    exact same
  | _ => exact kept

end

/-- What the calls have read lets them overwrite no finished page. -/
def ReadsUnfinished (s : State) : Prop :=
  ∀ call ∈ s.calls, ∀ site job, (some site, job) ∈ (memoryOf call).seen → site.overwrites job = false

section

variable {settings : Settings} {first s s' : State} {action : Step} {m : Memory} {w : World} {op : Op}
  {id : Id} {row row' : JobRow} {page : PageRow}

theorem ReadsUnfinished.step (reads : ReadsUnfinished s) (unfinished : Unfinished s action)
    (moves : Moves settings s action s') : ReadsUnfinished s' := by
  intro call' member site job seen
  rcases moves.read member seen with ⟨call, old, seenBefore⟩ | ⟨i, choice, call, id, rfl, at_i, reading, read⟩
  · exact reads call old site job seenBefore
  · exact unfinished call at_i _ reading job read

/-- The pages of a version, as `Site.overwrites` looks at them. -/
theorem Site.overwrites_page {v : Job} {index : Nat} {old : PageRow}
    (found : v.version.pages[index]? = some old) :
    v.pages[index]?.any (·.state = .succeeded) = decide (old.status = .succeeded) := by
  rw [Job.version, List.getElem?_map] at found
  obtain ⟨page, at_index, rfl⟩ := Option.map_eq_some_iff.mp found
  rw [at_index]
  rfl

theorem RowChange.checkpoint (change : RowChange m w op id (some row) (some row')) (tidy : row.Tidy)
    (reads : ∀ site job, (some site, job) ∈ m.seen → site.overwrites job = false)
    (kept : page.Kept row.version.pages) : page.Kept row'.version.pages := by
  cases change with
  | same => exact kept
  | @saved row row' origin v job event call own member adopts edits current saves reports =>
    rw [JobRow.append_version, saves.version tidy (current ▸ edits.edit)]
    refine edits.edit.kept (current ▸ kept) (fun index read active old found done => ?_)
      fun index read old found done => ?_
    · have overwrites := reads _ v (read ▸ member)
      have finished := Site.overwrites_page found
      simp only [Site.overwrites, finished, done] at overwrites
      exact active (show v.state = .cancelRequested by simpa using overwrites)
    · have overwrites := reads _ v (read ▸ member)
      have finished := Site.overwrites_page found
      simp only [Site.overwrites, finished, done] at overwrites
      cases overwrites
  | reported =>
    rw [JobRow.append_version]
    exact kept
  | claimed => exact kept
  | deferred => exact kept

/-- As long as no delivery finds the page it has recognized, or given up,
finished by another one, a page once stored with its result keeps it in every
later version of the job, in all attempts. -/
theorem checkpoint_permanent (initial : Initial first) (before : (system settings).Run Unfinished first s)
    (later : (system settings).Run Unfinished s s') (stored : s.world.jobs id = some row)
    (member : page ∈ row.pages row.currentAttempt) (done : page.status = .succeeded)
    (stored' : s'.world.jobs id = some row') :
    ∃ page' ∈ row'.pages row'.currentAttempt, page'.pageNumber = page.pageNumber ∧
      page'.status = .succeeded ∧ page'.resultObjectKey = page.resultObjectKey ∧
      page'.resultSha256 = page.resultSha256 := by
  obtain ⟨coherent, reads⟩ := initial.coherent.induction before (J := ReadsUnfinished)
    (by simp [ReadsUnfinished, initial.calls]) fun _ _ _ _ reads unfinished moves =>
      reads.step unfinished moves
  have kept := coherent.induction later
    (J := fun s' => ReadsUnfinished s' ∧ ¬ Unborn s' id ∧ ∀ row', s'.world.jobs id = some row' →
      page.Kept row'.version.pages)
    ⟨reads, coherent.consistent.stored_born stored, fun row' same => ?_⟩ ?_
  · exact kept.2.2.2 row' stored'
  · cases Option.some.inj (stored.symm.trans same)
    exact ⟨page, member, rfl, done, rfl, rfl⟩
  · rintro t action t' coherentT ⟨reads, born, kept⟩ unfinished moves
    refine ⟨reads.step unfinished moves, moves.born born, fun row' storedT => ?_⟩
    obtain ⟨row, found, rfl | ⟨call, here, op, change⟩⟩ := moves.kept coherentT born storedT
    · exact kept _ found
    · exact change.checkpoint (coherentT.consistent.tidy id row found) (reads call here) (kept row found)

/-- What an engine that knows nothing returns. -/
def blankResult : OCRResult := { markdown := "", structured := [] }

/-- One delivery, the page of which is kept when the job assembles. -/
theorem checkpoint_permanent_assembling : ∃ s s' row row' page page',
    (system {}).runsIf Unfinished oneDocument
        (createSteps 0 ++ deliverSteps 1 ++ recognizeSteps 1 blankResult) = some s ∧
      (system {}).runsIf Unfinished s (answered 1 [.now, .now, .go]) = some s' ∧
      s.world.jobs 1 = some row ∧ s'.world.jobs 1 = some row' ∧
      page ∈ row.pages row.currentAttempt ∧ page' ∈ row'.pages row'.currentAttempt ∧
      page'.status = .succeeded ∧ page'.resultSha256 = page.resultSha256 := by
  have played : ((system {}).runsIf Unfinished oneDocument
      (createSteps 0 ++ deliverSteps 1 ++ recognizeSteps 1 blankResult)).bind (fun s =>
        ((system {}).runsIf Unfinished s (answered 1 [.now, .now, .go])).bind fun s' =>
          (s.world.jobs 1).bind fun row => (s'.world.jobs 1).bind fun _ =>
            (row.pages row.currentAttempt).head?.map PageRow.status) = some .succeeded := by
    decide +kernel
  obtain ⟨s, runs, rest⟩ := Option.bind_eq_some_iff.mp played
  obtain ⟨s', runs', rest⟩ := Option.bind_eq_some_iff.mp rest
  obtain ⟨row, stored, rest⟩ := Option.bind_eq_some_iff.mp rest
  obtain ⟨row', stored', rest⟩ := Option.bind_eq_some_iff.mp rest
  obtain ⟨page, head, done⟩ := Option.map_eq_some_iff.mp rest
  have member : page ∈ row.pages row.currentAttempt := List.mem_of_mem_head? head
  obtain ⟨page', member', -, done', -, sha256⟩ := checkpoint_permanent oneDocument_initial
    (.of_runsIf runs) (.of_runsIf runs') stored member done stored'
  exact ⟨s, s', row, row', page, page', runs, runs', stored, stored', member, member', done', sha256⟩

/-- Two deliveries await the recognition of the same page; the first one
stores it. -/
def overtaken : List Step :=
  createSteps 0 ++ deliverSteps 1 ++ redeliverSteps 2 ++ recognizeSteps 1 blankResult

/-- The second delivery gets no result and marks the finished page as failed. -/
theorem checkpoint_not_permanent : ¬ ∀ (settings : Settings) (first s s' : State) (id : Id)
    (row row' : JobRow) (page : PageRow), Initial first → Reaches settings first s →
    Reaches settings s s' → s.world.jobs id = some row → page ∈ row.pages row.currentAttempt →
    page.status = .succeeded → s'.world.jobs id = some row' →
    ∃ page' ∈ row'.pages row'.currentAttempt, page'.pageNumber = page.pageNumber ∧
      page'.status = .succeeded ∧ page'.resultObjectKey = page.resultObjectKey ∧
      page'.resultSha256 = page.resultSha256 := by
  intro claim
  have played : ((system {}).runs oneDocument overtaken).bind (fun s =>
      ((system {}).runs s (answered 2 [{ failure := .before .engineProtocol }, .go, .now, .go])).bind fun s' =>
        (s.world.jobs 1).bind fun row => (s'.world.jobs 1).bind fun row' =>
          (row.pages row.currentAttempt).head?.map fun page =>
            (page.status, (row'.pages row'.currentAttempt).map PageRow.status)) =
      some (.succeeded, [.failed]) := by decide +kernel
  obtain ⟨s, runs, rest⟩ := Option.bind_eq_some_iff.mp played
  obtain ⟨s', runs', rest⟩ := Option.bind_eq_some_iff.mp rest
  obtain ⟨row, stored, rest⟩ := Option.bind_eq_some_iff.mp rest
  obtain ⟨row', stored', rest⟩ := Option.bind_eq_some_iff.mp rest
  obtain ⟨page, head, same⟩ := Option.map_eq_some_iff.mp rest
  obtain ⟨done, failed⟩ := Prod.mk.inj same
  have before : Reaches {} oneDocument s := .of_runs runs fun _ _ _ => trivial
  have later : Reaches {} s s' := .of_runs runs' fun _ _ _ => trivial
  obtain ⟨page', member', -, done', -⟩ := claim {} oneDocument s s' 1 row row' page oneDocument_initial
    before later stored (List.mem_of_mem_head? head) done stored'
  have status := List.mem_map_of_mem (f := PageRow.status) member'
  rw [failed, done'] at status
  cases List.mem_singleton.mp status

end
end MonkeyOcr
