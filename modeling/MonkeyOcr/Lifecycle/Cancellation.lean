import MonkeyOcr.Lifecycle.Invariant

namespace MonkeyOcr

open Calls

variable {settings : Settings} {first s s' : State} {action : Step} {m : Memory} {w : World} {op : Op}
  {id : Id} {row row' : JobRow} {attempt : Nat}

/-- The attempt of the job was cancelled, and the job may have gone on to a
later one. -/
structure JobRow.Cancelled (row : JobRow) (attempt : Nat) : Prop where
  reached : attempt ≤ row.currentAttempt
  asked : row.currentAttempt = attempt → row.version.Cancelling
  artifacts : row.artifacts attempt = []

/-- Artifacts are stored with success only, so a cancellation has none. -/
theorem JobRow.Tidy.cancelled (tidy : row.Tidy) (asked : row.version.Cancelling) :
    row.Cancelled row.currentAttempt := by
  refine ⟨le_rfl, fun _ => asked, ?_⟩
  by_contra some
  have state := tidy.artifacts fun none => some (Multiset.coe_eq_zero _ |>.mp none)
  rcases asked with h | h <;> rw [h] at state <;> cases state

theorem JobRow.Cancelled.congr (cancelled : row.Cancelled attempt)
    (current : row'.currentAttempt = row.currentAttempt) (version : row'.version = row.version)
    (artifacts : row'.artifacts = row.artifacts) : row'.Cancelled attempt where
  reached := current ▸ cancelled.reached
  asked same := version ▸ cancelled.asked (current ▸ same)
  artifacts := artifacts ▸ cancelled.artifacts

/-- No save takes a cancellation back, whichever read it stems from. -/
theorem JobRow.Saves.cancelled {job : Job} {origin : Option Site} {type : EventType}
    (saves : row.Saves job row') (tidy : row.Tidy) (edit : Edit origin row.version type job.version)
    (cancelled : row.Cancelled attempt) : row'.Cancelled attempt := by
  have version := saves.version tidy edit
  have current : row'.currentAttempt = job.version.attempt := saves.attempt
  have reached := cancelled.reached
  have low : row.currentAttempt ≤ job.version.attempt := by
    rcases edit.attempt with same | ⟨-, more⟩
    · exact same.ge
    · exact more.ge.trans' (Nat.le_succ _)
  by_cases here : job.version.attempt = attempt
  · have same : row.currentAttempt = attempt := le_antisymm (here ▸ low) reached
    have asked : row'.version.Cancelling := by
      rw [version]
      exact edit.cancelling (cancelled.asked same) (here.trans same.symm)
    have now := (saves.tidy tidy edit).cancelled asked
    rwa [current, here] at now
  · refine ⟨current ▸ reached.trans low, fun same => absurd (current ▸ same) here, ?_⟩
    rw [saves.artifacts]
    split
    · exact cancelled.artifacts
    · exact (Function.update_of_ne (Ne.symm here) _ _).trans cancelled.artifacts

theorem RowChange.cancelled (change : RowChange m w op id (some row) (some row')) (tidy : row.Tidy)
    (cancelled : row.Cancelled attempt) : row'.Cancelled attempt := by
  cases change with
  | same => exact cancelled
  | saved call own member adopts edits current saves =>
    exact (saves.cancelled tidy (current ▸ edits.edit) cancelled).congr JobRow.append_currentAttempt
      JobRow.append_version JobRow.append_artifacts
  | reported =>
    exact cancelled.congr JobRow.append_currentAttempt JobRow.append_version JobRow.append_artifacts
  | claimed => exact cancelled.congr rfl rfl rfl
  | deferred => exact cancelled.congr rfl rfl rfl

/-- Once a job is being cancelled, every version stored later in the same
attempt is, and the attempt never gets an artifact. -/
theorem cancellation_permanent (initial : Initial first) (before : Reaches settings first s)
    (later : Reaches settings s s') (stored : s.world.jobs id = some row)
    (asked : row.status = .cancelRequested ∨ row.status = .cancelled)
    (stored' : s'.world.jobs id = some row') :
    (row'.currentAttempt = row.currentAttempt →
        row'.status = .cancelRequested ∨ row'.status = .cancelled) ∧
      row'.artifacts row.currentAttempt = [] := by
  have coherent := initial.coherent.run before
  have kept := coherent.induction later
    (J := fun s' => ¬ Unborn s' id ∧ ∀ row', s'.world.jobs id = some row' →
      row'.Cancelled row.currentAttempt)
    ⟨coherent.consistent.stored_born stored, fun row' same => ?_⟩ ?_
  · obtain ⟨-, -, cancelled⟩ := kept
    exact ⟨(cancelled row' stored').asked, (cancelled row' stored').artifacts⟩
  · cases Option.some.inj (stored.symm.trans same)
    exact (coherent.consistent.tidy id _ stored).cancelled asked
  · rintro t action t' coherentT ⟨born, cancelled⟩ - moves
    refine ⟨moves.born born, fun row' storedT => ?_⟩
    obtain ⟨row, found, rfl | ⟨call, -, op, change⟩⟩ := moves.kept coherentT born storedT
    · exact cancelled _ found
    · exact change.cancelled (coherentT.consistent.tidy id row found) (cancelled row found)

/-- A job that waits is cancelled at once, and is retried afterwards. -/
theorem cancellation_permanent_retried : ∃ s s' row row',
    (system {}).runs oneDocument (createSteps 0 ++ cancelSteps 1) = some s ∧
      (system {}).runs s (retrySteps 2) = some s' ∧
      s.world.jobs 1 = some row ∧ s'.world.jobs 1 = some row' ∧
      row'.artifacts row.currentAttempt = [] := by
  have played : (((system {}).runs oneDocument (createSteps 0 ++ cancelSteps 1)).bind fun s =>
      ((system {}).runs s (retrySteps 2)).bind fun s' => (s.world.jobs 1).bind fun row =>
        (s'.world.jobs 1).map fun _ => row.status) = some .cancelled := by decide +kernel
  obtain ⟨s, runs, rest⟩ := Option.bind_eq_some_iff.mp played
  obtain ⟨s', runs', rest⟩ := Option.bind_eq_some_iff.mp rest
  obtain ⟨row, stored, rest⟩ := Option.bind_eq_some_iff.mp rest
  obtain ⟨row', stored', asked⟩ := Option.map_eq_some_iff.mp rest
  have before : Reaches {} oneDocument s := .of_runs runs fun _ _ _ => trivial
  have later : Reaches {} s s' := .of_runs runs' fun _ _ _ => trivial
  exact ⟨s, s', row, row', runs, runs', stored, stored',
    (cancellation_permanent oneDocument_initial before later stored (.inr asked) stored').2⟩

end MonkeyOcr
