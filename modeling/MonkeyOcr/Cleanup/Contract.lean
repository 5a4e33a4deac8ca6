import MonkeyOcr.Lifecycle.Work

namespace MonkeyOcr

open Calls

/-- What a cleaner remembers: the candidates it has claimed, the objects it has
tried to delete, and those it has deleted. -/
structure Sweep where
  claimed : List RetentionCandidate := []
  tried : List ObjectKey := []
  deleted : List ObjectKey := []

namespace Sweep

def next (m : Sweep) : (op : Op) → Except Exc op.Val → Sweep
  | .claimExpired .., .ok candidates => { m with claimed := candidates }
  | .deleteObject key, .ok _ => { m with tried := key :: m.tried, deleted := key :: m.deleted }
  | .deleteObject key, .error _ => { m with tried := key :: m.tried }
  | _, _ => m

def ghost : Ghost Sig Sweep := ⟨next⟩

/-- The calls of a cleaner: it deletes what a candidate of its own names, and
completes a candidate once all of that is deleted. -/
def calls (m : Sweep) : Op → Prop
  | .deleteObject key => ∃ candidate ∈ m.claimed, key ∈ candidate.objectKeys
  | .complete candidate => candidate ∈ m.claimed ∧ ∀ key ∈ candidate.objectKeys, key ∈ m.deleted
  | .claimExpired .. | .defer .. | .abortMultipartUpload .. | .utcNow | .log .. => True
  | _ => False

/-- A cleaner goes on with the same candidates. -/
structure Grows (m m' : Sweep) : Prop where
  claimed : m'.claimed = m.claimed
  deleted : ∀ key ∈ m.deleted, key ∈ m'.deleted

theorem Grows.refl {m : Sweep} : m.Grows m := ⟨rfl, fun _ member => member⟩

theorem Grows.trans {m m' m'' : Sweep} (first : m.Grows m') (rest : m'.Grows m'') : m.Grows m'' :=
  ⟨rest.claimed.trans first.claimed, fun key member => rest.deleted key (first.deleted key member)⟩

end Sweep

def Task.sweeping : Task → Contract Sig Sweep
  | .runBatch .. => ⟨Sweep.calls, fun _ _ _ => True⟩
  | _ => ⟨fun _ op => op.retains = false, fun _ op r => Memory.answer op r⟩

namespace RetentionCleanupService

/-- A part of a cleaner. -/
abbrev Sweeps {α : Type} (program : Program α) (Q : α → Sweep → Prop) (E : Exc → Sweep → Prop) (m : Sweep) : Prop :=
  program.Meets Sweep.ghost ⟨Sweep.calls, fun _ _ _ => True⟩ Q E m

variable {settings : Settings} {m : Sweep} {candidate : RetentionCandidate} {result : RetentionBatchResult}

/-- A call that is no deletion changes nothing. -/
theorem sweeps_await (op : Op) (allowed : m.calls op) (quiet : ∀ r, m.next op r = m) :
    Sweeps (await op) (fun _ m' => m.Grows m') (fun _ m' => m.Grows m') m :=
  ⟨allowed, fun r _ => by
    have same : Sweep.ghost.next m op r = m := quiet r
    rw [same]
    cases r <;> exact .refl⟩

/-- If every deletion succeeds, every key is deleted. -/
theorem deleteEach_sweeps {keys : List ObjectKey} {failed : Option Exc}
    (named : ∀ key ∈ keys, ∃ candidate ∈ m.claimed, key ∈ candidate.objectKeys) :
    Sweeps (deleteEach keys failed)
      (fun _ m' => m.Grows m' ∧ failed = none ∧ ∀ key ∈ keys, key ∈ m'.deleted) (fun _ m' => m.Grows m') m := by
  induction keys generalizing m failed with
  | nil =>
    cases failed with
    | none => exact ⟨.refl, rfl, nofun⟩
    | some e => exact .refl
  | cons key rest ih =>
    refine ⟨named key List.mem_cons_self, fun r _ => ?_⟩
    have later : ∀ key ∈ rest, ∃ candidate ∈ m.claimed, key ∈ candidate.objectKeys :=
      fun other member => named other (List.mem_cons_of_mem _ member)
    cases r with
    | error e =>
      have grows : m.Grows { m with tried := key :: m.tried } := ⟨rfl, fun _ member => member⟩
      have swept := @ih { m with tried := key :: m.tried } (failed <|> some e) later
      refine swept.mono ?_ fun _ _ kept => grows.trans kept
      intro _ m' ⟨_, clean, _⟩
      cases failed <;> cases clean
    | ok =>
      have grows : m.Grows { m with tried := key :: m.tried, deleted := key :: m.deleted } :=
        ⟨rfl, fun _ member => List.mem_cons_of_mem _ member⟩
      have swept := @ih { m with tried := key :: m.tried, deleted := key :: m.deleted } failed later
      refine swept.mono ?_ fun _ _ kept => grows.trans kept
      intro _ m' ⟨kept, clean, deleted⟩
      refine ⟨grows.trans kept, clean, fun other member => ?_⟩
      rcases List.mem_cons.mp member with rfl | member
      · exact kept.deleted _ List.mem_cons_self
      · exact deleted other member

theorem deleteObjects_sweeps (own : candidate ∈ m.claimed) :
    Sweeps (deleteObjects candidate)
      (fun _ m' => m.Grows m' ∧ ∀ key ∈ candidate.objectKeys, key ∈ m'.deleted) (fun _ m' => m.Grows m') m := by
  have each : ∀ m', m.Grows m' → Sweeps (deleteEach candidate.objectKeys.dedup none)
      (fun _ m' => m.Grows m' ∧ ∀ key ∈ candidate.objectKeys, key ∈ m'.deleted) (fun _ m' => m.Grows m') m' := by
    intro m' grows
    refine (deleteEach_sweeps fun key member => ?_).mono ?_ fun _ _ kept => grows.trans kept
    · exact ⟨candidate, grows.claimed ▸ own, List.mem_dedup.mp member⟩
    · intro _ m'' ⟨kept, _, deleted⟩
      exact ⟨grows.trans kept, fun key member => deleted key (List.mem_dedup.mpr member)⟩
  unfold deleteObjects
  dsimp only
  split
  · refine (each m .refl).bind ?_
    exact fun _ _ done => done
  · rename_i uploadId _
    split
    · rename_i key _
      refine (sweeps_await (.abortMultipartUpload key uploadId) trivial fun _ => rfl).bind fun _ m' grows => ?_
      refine (each m' grows).bind ?_
      exact fun _ _ done => done
    · exact .refl

theorem deferCandidate_sweeps {e : Exc} :
    Sweeps (deferCandidate settings candidate e result) (fun _ m' => m.Grows m') (fun _ m' => m.Grows m') m := by
  refine (sweeps_await .utcNow trivial fun _ => rfl).bind fun now m₁ first => ?_
  refine Prog.Meets.bind (Q := fun _ m' => m.Grows m') ?_ fun _ m₂ second => ?_
  · refine Prog.meets_catchError.mpr ((sweeps_await (.defer candidate _) trivial fun _ => rfl).mono
      (fun _ _ kept => first.trans kept) fun _ m₂ kept => ?_)
    exact (sweeps_await (.log ..) trivial fun _ => rfl).mono (fun _ _ last => (first.trans kept).trans last)
      fun _ _ last => (first.trans kept).trans last
  · exact ((sweeps_await (.log ..) trivial fun _ => rfl).mono (fun _ _ last => second.trans last)
      fun _ _ last => second.trans last).bind fun _ _ done => done

theorem cleanCandidates_sweeps {candidates : List RetentionCandidate}
    (own : ∀ candidate ∈ candidates, candidate ∈ m.claimed) :
    Sweeps (cleanCandidates settings candidates result) (fun _ _ => True) (fun _ _ => True) m := by
  induction candidates generalizing m result with
  | nil => trivial
  | cons candidate rest ih =>
    have goesOn : ∀ {m' result}, m.Grows m' →
        Sweeps (cleanCandidates settings rest result) (fun _ _ => True) (fun _ _ => True) m' :=
      fun grows => ih fun other member => grows.claimed ▸ own other (List.mem_cons_of_mem _ member)
    have defers : ∀ {m' e result}, m.Grows m' → Sweeps
        (deferCandidate settings candidate e result >>= fun result => cleanCandidates settings rest result)
        (fun _ _ => True) (fun _ _ => True) m' :=
      fun grows => (deferCandidate_sweeps.mono (fun _ _ kept => kept) fun _ _ _ => trivial).bind
        fun _ _ kept => goesOn (grows.trans kept)
    refine Prog.Meets.bind (Q := fun deletion m' => m.Grows m' ∧
      ((∃ count, deletion = .ok count) → ∀ key ∈ candidate.objectKeys, key ∈ m'.deleted)) ?_ ?_
    · refine Prog.meets_attempt.mpr ((deleteObjects_sweeps (own candidate List.mem_cons_self)).mono
        (fun count m' done => ⟨done.1, fun _ => done.2⟩) fun e m' grows => ⟨grows, ?_⟩)
      rintro ⟨_, failed⟩
      cases failed
    · intro deletion m₁ ⟨grows, deleted⟩
      cases deletion with
      | error e => exact defers grows
      | ok count =>
        have all := deleted ⟨count, rfl⟩
        have completes : m₁.calls (.complete candidate) :=
          ⟨grows.claimed ▸ own candidate List.mem_cons_self, all⟩
        refine Prog.Meets.bind (Q := fun _ m' => m₁.Grows m') (Prog.meets_attempt.mpr
          ((sweeps_await (.complete candidate) completes fun _ => rfl).mono (fun _ _ kept => kept)
            fun _ _ kept => kept)) fun completion m₂ kept => ?_
        have later := grows.trans kept
        rcases completion with e | completed
        · exact defers later
        · cases completed
          · exact ((sweeps_await (.log ..) trivial fun _ => rfl).mono (fun _ _ kept => kept)
              fun _ _ _ => trivial).bind fun _ _ kept => goesOn (later.trans kept)
          · exact ((sweeps_await (.log ..) trivial fun _ => rfl).mono (fun _ _ kept => kept)
              fun _ _ _ => trivial).bind fun _ _ kept => goesOn (later.trans kept)

theorem runBatch_sweeps {limit leaseSeconds : Nat} {now : Option Time} :
    Sweeps (runBatch settings limit leaseSeconds now) (fun _ _ => True) (fun _ _ => True) m := by
  unfold runBatch
  split
  · trivial
  · split
    · trivial
    · refine Prog.Meets.bind (Q := fun _ _ => True) ?_ fun time m₁ _ => ?_
      · cases now with
        | some now => trivial
        | none => exact (sweeps_await .utcNow trivial fun _ => rfl).mono (fun _ _ _ => trivial) fun _ _ _ => trivial
      · refine Prog.Meets.bind (Q := fun candidates m' => m'.claimed = candidates)
          ⟨trivial, fun r _ => by cases r <;> trivial⟩ fun candidates m₂ claimed => ?_
        exact cleanCandidates_sweeps fun candidate member => claimed ▸ member

end RetentionCleanupService
end MonkeyOcr
