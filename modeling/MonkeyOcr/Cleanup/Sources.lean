import MonkeyOcr.Cleanup.Claims

namespace MonkeyOcr

open Calls

/-- The upload that a call inserts a job for next. -/
def inserting? (call : SystemCall) : Option Id :=
  match call.prog with
  | .call (.addWithOutboxAndEvent job _ _) _ => some job.uploadId
  | _ => none

/-- A job is inserted only while its upload is not claimed by retention. -/
def InsertsUnclaimed (s : State) : Step → Prop
  | .resume i _ =>
    ∀ call ∈ s.calls[i]?, ∀ uploadId ∈ inserting? call, ∀ row ∈ s.world.uploads uploadId, row.claim.isSome = false
  | _ => True

instance (s : State) : ∀ action, Decidable (InsertsUnclaimed s action)
  | .resume i _ => inferInstanceAs (Decidable (∀ call ∈ s.calls[i]?, ∀ uploadId ∈ inserting? call,
      ∀ row ∈ s.world.uploads uploadId, row.claim.isSome = false))
  | .start _ | .kill _ | .env _ => isTrue trivial

/-- A cleaner has called for the deletion of the object, and it is gone. -/
def DeletedByRetention (s : State) (key : ObjectKey) : Prop :=
  s.world.objects key = none ∧ ∃ call ∈ s.calls, key ∈ (sweepOf call).tried

/-- The upload of every job is there, and retention has not deleted its document. -/
def SourcesKept (s : State) : Prop :=
  ∀ id row, s.world.jobs id = some row →
    ∃ upload, s.world.uploads row.uploadId = some upload ∧ ¬ DeletedByRetention s upload.upload.objectKey

/-- The upload of every job is there, and not claimed. -/
def UploadsHeld (s : State) : Prop :=
  ∀ id row, s.world.jobs id = some row →
    ∃ upload, s.world.uploads row.uploadId = some upload ∧ upload.claim = none

section

variable {settings : Settings} {first s s' : State} {action : Step} {m : Memory} {w : World} {op : Op} {id : Id}

theorem RowChange.uploadId {row row' : JobRow} (change : RowChange m w op id (some row) (some row')) :
    row'.uploadId = row.uploadId := by
  cases change with
  | saved _ _ _ _ _ _ saves => exact JobRow.append_uploadId.trans saves.uploadId
  | reported => exact JobRow.append_uploadId
  | _ => rfl

/-- An upload with a job is not claimed or deleted. -/
theorem UploadChange.held {upload : UploadRow} {after : Option UploadRow} {row : JobRow} {jobId : Id}
    (change : UploadChange m w op id (some upload) after) (free : upload.claim = none)
    (stored : w.jobs jobId = some row) (drawn : jobId < w.nextId) (uses : row.uploadId = id) :
    ∃ upload', after = some upload' ∧ upload'.claim = none := by
  have used : (w.jobIds fun job => job.uploadId = id) ≠ [] := by
    refine List.ne_nil_of_mem (a := jobId) (List.mem_filter.mpr ⟨List.mem_range.mpr drawn, ?_⟩)
    simp [stored, uses]
  cases change with
  | same => exact ⟨upload, rfl, free⟩
  | saved => exact ⟨_, rfl, free⟩
  | claimed unused => exact absurd unused used
  | deferred held =>
    rw [free] at held
    cases held
  | deleted held =>
    rw [free] at held
    cases held

theorem UploadsHeld.step (coherent : Coherent s) (held : UploadsHeld s) (permitted : InsertsUnclaimed s action)
    (moves : Moves settings s action s') : UploadsHeld s' := by
  intro id row' stored
  have keeps : ∀ row, s.world.jobs id = some row → row'.uploadId = row.uploadId →
      ∃ upload, s'.world.uploads row'.uploadId = some upload ∧ upload.claim = none := by
    intro row found same
    obtain ⟨upload, there, free⟩ := held id row found
    have drawn : id < s.world.nextId := by
      by_contra later
      exact coherent.consistent.stored_born found (.inl (Nat.le_of_not_lt later))
    rw [same]
    rcases moves.uploads row.uploadId with unchanged | ⟨call, -, op, change⟩
    · exact ⟨upload, unchanged.trans there, free⟩
    · rw [there] at change
      exact change.held free found drawn rfl
  cases moves with
  | start => exact keeps row' stored rfl
  | kill => exact keeps row' stored rfl
  | env event =>
    rw [World.rebalance_kafka] at stored
    exact keeps row' stored rfl
  | @resume i choice call op r next w at_i prog executed allowed =>
    have change := coherent.consistent.rows at_i (Task.contract_writes allowed) executed id
    rw [show w.jobs id = some row' from stored] at change
    cases before : s.world.jobs id with
    | some row =>
      rw [before] at change
      exact keeps row before change.uploadId
    | none =>
      rw [before] at change
      cases change with
      | @inserted job outboxEvent event days same own drawn new reports type there =>
        subst same
        obtain ⟨upload, found⟩ := Option.isSome_iff_exists.mp there
        have unchanged : w.uploads = s.world.uploads :=
          World.exec_same (show Part.uploads ∉ _ by simp [Op.writes]) executed
        have free := permitted call at_i job.uploadId (by rw [inserting?, prog]; rfl) upload found
        refine ⟨upload, ?_, Option.not_isSome_iff_eq_none.mp (by simp [free])⟩
        change w.uploads _ = _
        rw [unchanged, JobRow.append_uploadId]
        exact found

theorem Initial.uploadsHeld (initial : Initial s) : UploadsHeld s := by
  intro id row stored
  rw [initial.world.jobs] at stored
  cases stored

/-- What a cleaner has tried to delete is no document of an upload that is not
claimed. -/
theorem SweepsFit.sourcesKept (fit : SweepsFit s) (held : UploadsHeld s) : SourcesKept s := by
  intro id row stored
  obtain ⟨upload, found, free⟩ := held id row stored
  refine ⟨upload, found, fun ⟨_, call, member, tried⟩ => ?_⟩
  obtain ⟨candidate, fits, named⟩ := fit.tried call member _ tried
  rw [fit.sources _ upload found] at named
  cases kind : candidate.aggregateKind with
  | job =>
    have own := (fits.job kind).2.1 _ named
    cases own
  | upload =>
    obtain ⟨-, source, rows⟩ := fits.upload kind
    rw [source, List.mem_singleton] at named
    have claimed := rows upload (by rw [← ObjectKey.source.inj named]; exact found)
    rw [free] at claimed
    cases claimed

/-- As long as no job is inserted for an upload that retention has claimed, no
job is left without its document. -/
theorem sources_kept (initial : Initial first) (run : (system settings).Run InsertsUnclaimed first s) :
    SourcesKept s := by
  obtain ⟨-, fit, held⟩ := initial.coherent.induction run
    (J := fun s => SweepsFit s ∧ UploadsHeld s) ⟨initial.sweepsFit, initial.uploadsHeld⟩
    fun _ _ _ coherent ⟨fit, held⟩ permitted moves => ⟨fit.step coherent moves, held.step coherent permitted moves⟩
  exact fit.sourcesKept held

/-- A cleaner that comes when the upload has expired, but is in use. -/
theorem sources_kept_inUse : ∃ s row,
    (system {}).runsIf InsertsUnclaimed oneDocument (createSteps 0 ++
      .start (.runBatch 10 60 (some 100)) :: answered 1 [{ answer := .picked [] [] }]) = some s ∧
    s.world.jobs 1 = some row ∧ ∃ upload, s.world.uploads row.uploadId = some upload ∧
      ¬ DeletedByRetention s upload.upload.objectKey := by
  have played : (((system {}).runsIf InsertsUnclaimed oneDocument (createSteps 0 ++
      .start (.runBatch 10 60 (some 100)) :: answered 1 [{ answer := .picked [] [] }])).bind
        fun s => s.world.jobs 1).isSome = true := by decide +kernel
  obtain ⟨row, stored⟩ := Option.isSome_iff_exists.mp played
  obtain ⟨s, runs, stored⟩ := Option.bind_eq_some_iff.mp stored
  exact ⟨s, row, runs, stored, sources_kept oneDocument_initial (.of_runsIf runs) 1 row stored⟩

/-- `create_job` has read the upload; a cleaner claims the upload and deletes
its document; the job is inserted. -/
def lateInsert : List Step :=
  .start (.createJob ⟨0, []⟩ 7 "request" none) :: answered 0 [.go, .go, .now, .go, .now] ++
    .start (.runBatch 10 60 (some 100)) :: answered 1 [{ answer := .picked [] [0] }, .go] ++
    answered 0 [.go]

/-- The insert asks for the row of the upload, not for its claim. -/
theorem sources_not_kept : ¬ ∀ (settings : Settings) (first s : State), Initial first →
    Reaches settings first s → SourcesKept s := by
  intro claim
  have played : ((system {}).runs oneDocument lateInsert).bind (fun s => (s.world.jobs 1).bind fun row =>
      (s.world.uploads row.uploadId).bind fun upload => s.calls[1]?.map fun call =>
        (upload.upload.objectKey, (s.world.objects upload.upload.objectKey).isNone, (sweepOf call).tried)) =
      some (.source 0, true, [.source 0]) := by decide +kernel
  obtain ⟨s, runs, rest⟩ := Option.bind_eq_some_iff.mp played
  obtain ⟨row, stored, rest⟩ := Option.bind_eq_some_iff.mp rest
  obtain ⟨upload, found, rest⟩ := Option.bind_eq_some_iff.mp rest
  obtain ⟨call, at_1, same⟩ := Option.map_eq_some_iff.mp rest
  simp only [Prod.mk.injEq] at same
  obtain ⟨key, gone, tried⟩ := same
  have run : Reaches {} oneDocument s := .of_runs runs fun _ _ _ => trivial
  obtain ⟨upload', found', kept⟩ := claim {} oneDocument s oneDocument_initial run 1 row stored
  cases Option.some.inj (found.symm.trans found')
  refine kept ⟨Option.isNone_iff_eq_none.mp gone, call, List.mem_of_getElem? at_1, ?_⟩
  rw [tried, key]
  exact List.mem_singleton.mpr rfl

end
end MonkeyOcr
