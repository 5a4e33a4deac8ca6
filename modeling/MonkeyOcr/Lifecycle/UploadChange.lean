import MonkeyOcr.Lifecycle.RowChange

namespace MonkeyOcr

open Calls

/-- All that one call does to the row of an upload. -/
inductive UploadChange (m : Memory) (w : World) (op : Op) (id : Id) : Option UploadRow → Option UploadRow → Prop
  | same {row} : UploadChange m w op id row row
  | added {upload expiresAt} (call : op = .addUpload upload) (own : upload.id = id) (drawn : id ∈ m.ids)
      (source : upload.objectKey = .source id) :
      UploadChange m w op id none (some
        { upload := { upload with completedAt := none, detectedContentType := none }, expiresAt })
  | saved {row upload} (call : op = .saveUpload upload) (own : upload.id = id) (free : row.claim = none) :
      UploadChange m w op id (some row) (some { row with
        upload := { row.upload with
          state := upload.state
          detectedContentType := upload.detectedContentType
          completedAt := upload.completedAt } })
  | claimed {row claim} (unused : (w.jobIds fun job => job.uploadId = id) = []) :
      UploadChange m w op id (some row) (some { row with claim := some claim })
  | deferred {row claim lease} (held : row.claim = some claim) :
      UploadChange m w op id (some row) (some { row with claim := some { claim with leaseExpiresAt := lease } })
  | deleted {row claim} (held : row.claim = some claim) (unused : (w.jobIds fun job => job.uploadId = id) = []) :
      UploadChange m w op id (some row) none

namespace World

variable {settings : Settings} {i : Nat} {m : Memory} {w w' : World} {op : Op} {choice : Choice}
  {r : Except Exc op.Val}

theorem exec_uploads (writes : m.writes op) (executed : exec settings i op choice w = some (r, w')) (id : Id) :
    UploadChange m w op id (w.uploads id) (w'.uploads id) := by
  rcases exec_cases executed with ⟨_, -, -, rfl⟩ | ⟨r₀, performed, -⟩
  · exact .same
  by_cases quiet : Part.uploads ∉ op.writes
  · rw [(perform_same quiet performed : w'.uploads = w.uploads)]
    exact .same
  cases op with
  | addUpload upload =>
    rcases transact_cases (Option.some.inj performed) with ⟨saved, done, -⟩ | ⟨e, -, rfl⟩
    · obtain ⟨absent, rfl⟩ := addUpload_ok done
      simp only [setUpload, Function.update_apply]
      split
      · rename_i here
        subst here
        rw [absent]
        exact .added rfl rfl writes.1 writes.2
      · exact .same
    · exact .same
  | saveUpload upload =>
    rcases transact_cases (Option.some.inj performed) with ⟨saved, done, -⟩ | ⟨e, -, rfl⟩
    · obtain ⟨row, found, free, rfl⟩ := saveUpload_ok done
      simp only [setUpload, Function.update_apply]
      split
      · rename_i here
        rw [here, found]
        exact .saved rfl rfl free
      · exact .same
    · exact .same
  | claimExpired now limit leaseSeconds =>
    generalize choice.answer = answer at performed
    cases answer with
    | picked jobs uploads =>
      obtain ⟨⟨candidates, w₀⟩, done, same⟩ := Option.map_eq_some_iff.mp performed
      cases same
      rcases claimExpired_some done with ⟨-, rfl⟩ | claims
      · exact .same
      · rw [claims.uploads]
        split
        · rename_i member
          obtain ⟨row, found, expired⟩ := claims.unused id member
          simp only [uploadExpired, decide_eq_true_eq] at expired
          rw [found]
          exact .claimed expired.2.2
        · exact .same
    | _ => cases performed
  | complete candidate =>
    have effect : w' = (w.complete candidate).2 := (Prod.mk.inj (Option.some.inj performed)).2.symm
    rw [effect]
    unfold complete
    split
    · split <;> exact .same
    · split
      · rename_i held
        obtain ⟨held, unused⟩ := held
        simp only [setUpload, Function.update_apply]
        split
        · rename_i here
          obtain ⟨row, found, holds⟩ := (Option.any_eq_true _ _).mp held
          obtain ⟨claim, claimed, -⟩ := (Option.any_eq_true _ _).mp holds
          rw [here, found]
          exact .deleted claimed unused
        · exact .same
      · exact .same
  | defer candidate retryAt =>
    have effect : w' = w.defer candidate retryAt := (Prod.mk.inj (Option.some.inj performed)).2.symm
    rw [effect]
    unfold defer
    dsimp only
    split
    · exact .same
    · simp only [setUpload, Function.update_apply]
      split
      · rename_i here
        subst here
        cases found : w.uploads candidate.aggregateId with
        | none => exact .same
        | some row =>
          cases held : row.claim with
          | none =>
            simp only [Option.map_some, held, Option.map_none]
            rw [← held]
            exact .same
          | some claim =>
            simp only [Option.map_some, held]
            split
            · exact .deferred held
            · rw [← held]
              exact .same
      · exact .same
  | _ => exact absurd (by simp [Op.writes]) quiet

end World

/-- A row that stays is of the same session, and claimed if it was. -/
theorem UploadChange.kept {m : Memory} {w : World} {op : Op} {id : Id} {row row' : UploadRow}
    (change : UploadChange m w op id (some row) (some row')) :
    (∃ state detectedContentType completedAt,
      row'.upload = { row.upload with state, detectedContentType, completedAt }) ∧
      (row.claim.isSome = true → row'.claim.isSome = true) := by
  cases change with
  | same => exact ⟨⟨_, _, _, rfl⟩, fun claimed => claimed⟩
  | saved => exact ⟨⟨_, _, _, rfl⟩, fun claimed => claimed⟩
  | claimed => exact ⟨⟨_, _, _, rfl⟩, fun _ => rfl⟩
  | deferred => exact ⟨⟨_, _, _, rfl⟩, fun _ => rfl⟩

end MonkeyOcr
