import MonkeyOcr.Cleanup.Sweeps

namespace MonkeyOcr

open Calls

/-- A candidate that was claimed: its row still carries a claim or is gone, and
the candidate names all the objects of the row. -/
structure Fits (s : State) (candidate : RetentionCandidate) : Prop where
  job : candidate.aggregateKind = .job → ¬ Unborn s candidate.aggregateId ∧
    (∀ key ∈ candidate.objectKeys, key.job? = some candidate.aggregateId) ∧
    ∀ row, s.world.jobs candidate.aggregateId = some row → row.claim.isSome = true ∧
      ∀ key, row.References candidate.aggregateId key → key ∈ candidate.objectKeys
  upload : candidate.aggregateKind = .upload → ¬ Unborn s candidate.aggregateId ∧
    candidate.objectKeys = [.source candidate.aggregateId] ∧
    ∀ row, s.world.uploads candidate.aggregateId = some row → row.claim.isSome = true

/-- The claims and deletions of all cleaners. -/
structure SweepsFit (s : State) : Prop where
  sweeping : ∀ call ∈ s.calls, Sweeping call
  sources : ∀ id row, s.world.uploads id = some row → row.upload.objectKey = .source id
  claimed : ∀ call ∈ s.calls, ∀ candidate ∈ (sweepOf call).claimed, Fits s candidate
  tried : ∀ call ∈ s.calls, ∀ key ∈ (sweepOf call).tried, ∃ candidate, Fits s candidate ∧ key ∈ candidate.objectKeys

section

variable {settings : Settings} {s s' : State} {action : Step} {call : SystemCall} {m : Memory} {w : World}
  {op : Op} {id : Id} {row row' : JobRow} {key : ObjectKey}

/-- A claimed row is frozen: calls change its claim and its log at most. -/
theorem RowChange.frozen (change : RowChange m w op id (some row) (some row')) (claimed : row.claim.isSome = true) :
    row'.claim.isSome = true ∧ row' = { row with claim := row'.claim, events := row'.events } := by
  cases change with
  | same => exact ⟨claimed, rfl⟩
  | saved _ _ _ _ _ _ saves =>
    rw [saves.unclaimed] at claimed
    cases claimed
  | reported =>
    refine ⟨JobRow.append_claim.symm ▸ claimed, ?_⟩
    rw [JobRow.append_claim]
    exact JobRow.append_row _
  | claimed => exact ⟨rfl, rfl⟩
  | deferred => exact ⟨rfl, rfl⟩

theorem JobRow.References.frozen (references : row'.References id key)
    (frozen : row' = { row with claim := row'.claim, events := row'.events }) : row.References id key := by
  rw [frozen] at references
  exact references

theorem Moves.uploads (moves : Moves settings s action s') (id : Id) :
    s'.world.uploads id = s.world.uploads id ∨ ∃ call ∈ s.calls, ∃ op,
      UploadChange (memoryOf call) s.world op id (s.world.uploads id) (s'.world.uploads id) := by
  cases moves with
  | start => exact .inl rfl
  | kill => exact .inl rfl
  | env event => exact .inl (by rw [World.rebalance_kafka])
  | resume at_i _ executed allowed =>
    exact .inr ⟨_, List.mem_of_getElem? at_i, _, World.exec_uploads (Task.contract_writes allowed) executed id⟩

/-- An upload row that is there after a step is a new one, or one of the same
session that was there before. -/
theorem Moves.upload (moves : Moves settings s action s') {row' : UploadRow}
    (stored : s'.world.uploads id = some row') :
    (Unborn s id ∧ row'.upload.id = id ∧ row'.upload.objectKey = .source id) ∨
      ∃ row, s.world.uploads id = some row ∧ (∃ state detectedContentType completedAt,
        row'.upload = { row.upload with state, detectedContentType, completedAt }) ∧
        (row.claim.isSome = true → row'.claim.isSome = true) := by
  rcases moves.uploads id with same | ⟨call, member, op, change⟩
  · exact .inr ⟨row', same ▸ stored, ⟨_, _, _, rfl⟩, fun claimed => claimed⟩
  · rw [stored] at change
    cases before : s.world.uploads id with
    | some row =>
      rw [before] at change
      exact .inr ⟨row, rfl, change.kept⟩
    | none =>
      rw [before] at change
      cases change with
      | added _ own drawn source => exact .inl ⟨.inr ⟨call, member, drawn⟩, own, source⟩

theorem Fits.moves {candidate : RetentionCandidate} (coherent : Coherent s) (moves : Moves settings s action s')
    (fits : Fits s candidate) : Fits s' candidate := by
  refine ⟨fun kind => ?_, fun kind => ?_⟩
  · obtain ⟨born, own, rows⟩ := fits.job kind
    refine ⟨moves.born born, own, fun row' stored => ?_⟩
    obtain ⟨row, found, rfl | ⟨_, _, _, change⟩⟩ := moves.kept coherent born stored
    · exact rows _ found
    · obtain ⟨claimed, named⟩ := rows row found
      obtain ⟨claimed', frozen⟩ := change.frozen claimed
      exact ⟨claimed', fun key references => named key (references.frozen frozen)⟩
  · obtain ⟨born, source, rows⟩ := fits.upload kind
    refine ⟨moves.born born, source, fun row' stored => ?_⟩
    rcases moves.upload stored with ⟨unborn, -⟩ | ⟨row, found, -, claimed⟩
    · exact absurd unborn born
    · exact claimed (rows row found)

/-- What a claim returns fits the rows it leaves. -/
theorem World.Claims.fits {now : Time} {leaseSeconds : Nat} {jobs uploads : List Id}
    {candidates : List RetentionCandidate} {candidate : RetentionCandidate}
    (claims : w.Claims now leaseSeconds jobs uploads candidates s'.world) (inv' : Consistent s')
    (tidy : ∀ id row, w.jobs id = some row → row.Tidy)
    (sources : ∀ id row, w.uploads id = some row → row.upload.objectKey = .source id)
    (member : candidate ∈ candidates) : Fits s' candidate := by
  rw [claims.candidates] at member
  rcases List.mem_append.mp member with job | upload
  · obtain ⟨id, claimed, rfl⟩ := List.mem_map.mp job
    obtain ⟨row, found, -⟩ := claims.expired id claimed
    have after := claims.jobs id
    rw [if_pos claimed, found, Option.map_some] at after
    refine ⟨fun _ => ⟨inv'.stored_born after, fun key named => ?_, fun row' stored => ?_⟩, nofun⟩
    · simp only [jobCandidate, found, Option.elim] at named
      exact ((tidy id row found).mem_referencedKeys.mp named).1
    · change s'.world.jobs id = some row' at stored
      cases Option.some.inj (after.symm.trans stored)
      refine ⟨rfl, fun key references => ?_⟩
      simp only [jobCandidate, found, Option.elim]
      exact (tidy id row found).mem_referencedKeys.mpr references
  · obtain ⟨id, claimed, rfl⟩ := List.mem_map.mp upload
    obtain ⟨row, found, -⟩ := claims.unused id claimed
    have after := claims.uploads id
    rw [if_pos claimed, found, Option.map_some] at after
    refine ⟨nofun, fun _ => ⟨inv'.used_born after, ?_, fun row' stored => ?_⟩⟩
    · simp only [uploadCandidate, found, Option.elim, sources id row found]
    · change s'.world.uploads id = some row' at stored
      cases Option.some.inj (after.symm.trans stored)
      rfl

theorem Initial.sweepsFit (initial : Initial s) : SweepsFit s := by
  refine ⟨by simp [initial.calls], fun id row stored => ?_, by simp [initial.calls], by simp [initial.calls]⟩
  exact (initial.world.uploads id row stored).2.2.1

theorem SweepsFit.step (coherent : Coherent s) (fit : SweepsFit s) (moves : Moves settings s action s') :
    SweepsFit s' := by
  have inv' := (coherent.step moves.step).1.consistent
  have sources : ∀ id row, s'.world.uploads id = some row → row.upload.objectKey = .source id := by
    intro id row' stored
    rcases moves.upload stored with ⟨-, -, source⟩ | ⟨row, found, ⟨state, detected, completed, same⟩, -⟩
    · exact source
    · rw [same]
      exact fit.sources id row found
  have claimed : ∀ call ∈ s.calls, ∀ candidate ∈ (sweepOf call).claimed, Fits s' candidate :=
    fun call member candidate held => (fit.claimed call member candidate held).moves coherent moves
  have tried : ∀ call ∈ s.calls, ∀ key ∈ (sweepOf call).tried,
      ∃ candidate, Fits s' candidate ∧ key ∈ candidate.objectKeys := by
    intro call member key held
    obtain ⟨candidate, fits, named⟩ := fit.tried call member key held
    exact ⟨candidate, fits.moves coherent moves, named⟩
  have sweeping := moves.sweeping fit.sweeping
  cases moves with
  | start task =>
    refine ⟨sweeping, sources, fun call member => ?_, fun call member => ?_⟩
    · rcases List.mem_append.mp member with old | new
      · exact claimed call old
      · cases List.mem_singleton.mp new
        exact nofun
    · rcases List.mem_append.mp member with old | new
      · exact tried call old
      · cases List.mem_singleton.mp new
        exact nofun
  | kill i =>
    refine ⟨sweeping, sources, fun call member => ?_, fun call member => ?_⟩
    · rcases Machine.mem_modify_killed member with old | ⟨before, memberBefore, rfl⟩
      · exact claimed call old
      · exact claimed before memberBefore
    · rcases Machine.mem_modify_killed member with old | ⟨before, memberBefore, rfl⟩
      · exact tried call old
      · exact tried before memberBefore
  | env event => exact ⟨sweeping, sources, claimed, tried⟩
  | @resume i choice call op r next w at_i prog executed allowed =>
    have here := List.mem_of_getElem? at_i
    have own : (∀ candidate ∈ ((sweepOf call).next op r).claimed, Fits (resumed s i call op r next w) candidate) ∧
        ∀ key ∈ ((sweepOf call).next op r).tried,
          ∃ candidate, Fits (resumed s i call op r next w) candidate ∧ key ∈ candidate.objectKeys := by
      cases op with
      | claimExpired now limit leaseSeconds =>
        cases r with
        | error e => exact ⟨claimed call here, tried call here⟩
        | ok candidates =>
          refine ⟨fun candidate member => ?_, tried call here⟩
          rcases World.exec_cases executed with ⟨_, failed, -⟩ | ⟨r₀, performed, rfl | ⟨_, failed, -⟩⟩
          · cases failed
          · generalize choice.answer = answer at performed
            cases answer with
            | picked jobs uploads =>
              obtain ⟨⟨_, w₀⟩, done, same⟩ := Option.map_eq_some_iff.mp performed
              cases same
              rcases World.claimExpired_some done with ⟨rfl, rfl⟩ | claims
              · cases member
              · have fits : Fits (resumed s i call _ _ next w) candidate :=
                  claims.fits inv' coherent.consistent.tidy fit.sources member
                exact fits
            | _ => cases performed
          · cases failed
      | deleteObject key =>
        have named := (fit.sweeping call here).calls prog rfl
        obtain ⟨candidate, held, names⟩ := named
        have adds : ∀ other ∈ key :: (sweepOf call).tried,
            ∃ candidate, Fits (resumed s i call (.deleteObject key) r next w) candidate ∧
              other ∈ candidate.objectKeys := by
          intro other member
          rcases List.mem_cons.mp member with rfl | old
          · exact ⟨candidate, claimed call here candidate held, names⟩
          · exact tried call here other old
        cases r with
        | error e => exact ⟨claimed call here, adds⟩
        | ok => exact ⟨claimed call here, adds⟩
      | _ => cases r <;> exact ⟨claimed call here, tried call here⟩
    refine ⟨sweeping, sources, fun other member => ?_, fun other member => ?_⟩
    · rcases Machine.mem_set_answered member with old | rfl
      · exact claimed other old
      · exact own.1
    · rcases Machine.mem_set_answered member with old | rfl
      · exact tried other old
      · exact own.2

end
end MonkeyOcr
