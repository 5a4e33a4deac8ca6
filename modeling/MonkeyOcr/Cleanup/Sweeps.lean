import MonkeyOcr.Cleanup.Contract

namespace MonkeyOcr

open Calls

theorem Task.contract_quiet {task : Task} {m : Memory} {op : Op} (allowed : task.contract.allow m op)
    (other : ∀ limit leaseSeconds now, task ≠ .runBatch limit leaseSeconds now) : op.retains = false := by
  cases retains : op.retains with
  | false => rfl
  | true =>
    obtain ⟨limit, leaseSeconds, now, same⟩ := Task.contract_retains allowed retains
    exact absurd same (other limit leaseSeconds now)

theorem program_sweeps (settings : Settings) (task : Task) :
    (program settings task).Meets Sweep.ghost task.sweeping (fun _ _ => True) (fun _ _ => True) {} := by
  have meets := program_meets settings task
  cases task with
  | runBatch limit leaseSeconds now =>
    exact Prog.Meets.bind (RetentionCleanupService.runBatch_sweeps (m := {})) fun _ _ _ => trivial
  | _ =>
    refine meets.frame (fun _ _ op allowed => ?_) fun _ _ _ _ answer => answer
    exact Task.contract_quiet allowed nofun

/-- What the call remembers of its claims and deletions. -/
def sweepOf (call : SystemCall) : Sweep := call.ghost Sweep.ghost fun _ => {}

@[simp] theorem sweepOf_begin (settings : Settings) (task : Task) :
    sweepOf (Call.begin (system settings) task) = {} := rfl

@[simp] theorem sweepOf_killed (call : SystemCall) : sweepOf call.killed = sweepOf call := rfl

@[simp] theorem sweepOf_answered (call : SystemCall) (op : Op) (r : Except Exc op.Val)
    (next : Except Exc op.Val → Program Reply) :
    sweepOf (call.answered (S := Sig) op r next) = (sweepOf call).next op r := rfl

/-- The call claims and deletes as described from here on. -/
abbrev Sweeping (call : SystemCall) : Prop :=
  Tracks Sweep.ghost (fun _ => {}) Task.sweeping (fun _ _ _ => True) (fun _ _ _ => True) call

theorem Moves.sweeping {settings : Settings} {s s' : State} {action : Step}
    (sweeping : ∀ call ∈ s.calls, Sweeping call) (moves : Moves settings s action s') :
    ∀ call ∈ s'.calls, Sweeping call := by
  refine tracks_step (program_sweeps settings) (fun i op choice w r w' executed task _ => ?_) sweeping moves.step
  have answer := exec_answer executed
  cases task <;> first | exact answer | trivial

/-- A call that deletes is a cleaner, and keeps to its claims. -/
theorem Sweeping.calls {call : SystemCall} {op : Op} {next : Except Exc op.Val → Program Reply}
    (sweeping : Sweeping call) (prog : call.prog = .call op next) (retains : op.retains = true) :
    (sweepOf call).calls op := by
  rw [Sweeping, Tracks, prog] at sweeping
  obtain ⟨allowed, -⟩ := sweeping
  change call.task.sweeping.allow (sweepOf call) op at allowed
  generalize call.task = task at allowed
  cases task with
  | runBatch => exact allowed
  | _ =>
    change op.retains = false at allowed
    rw [retains] at allowed
    cases allowed

/-- The row names the object, in some attempt, under the prefix of the job. -/
def JobRow.References (row : JobRow) (id : Id) (key : ObjectKey) : Prop :=
  key.job? = some id ∧ ∃ attempt,
    (∃ page ∈ row.pages attempt, page.sourceObjectKey = key ∨ page.resultObjectKey = some key ∨
      page.visualizationObjectKey = some key) ∨
    ∃ artifact ∈ row.artifacts attempt, artifact.objectKey = key

theorem JobRow.Tidy.mem_referencedKeys {row : JobRow} {id : Id} {key : ObjectKey} (tidy : row.Tidy) :
    key ∈ row.referencedKeys id ↔ row.References id key := by
  have inPages : ∀ {attempt page}, page ∈ row.pages attempt → attempt < row.currentAttempt + 1 := by
    intro attempt page member
    by_contra later
    rw [tidy.pagesLater attempt (by omega)] at member
    cases member
  have inArtifacts : ∀ {attempt artifact}, artifact ∈ row.artifacts attempt → attempt < row.currentAttempt + 1 := by
    intro attempt artifact member
    by_contra later
    rw [tidy.artifactsLater attempt (by omega)] at member
    cases member
  simp only [referencedKeys, List.mem_dedup, List.mem_filter, List.mem_append, List.mem_map, List.mem_filterMap,
    List.mem_flatMap, List.mem_range, decide_eq_true_eq]
  constructor
  · rintro ⟨((⟨page, ⟨attempt, -, member⟩, same⟩ | ⟨page, ⟨attempt, -, member⟩, same⟩) |
      ⟨page, ⟨attempt, -, member⟩, same⟩) | ⟨artifact, ⟨attempt, -, member⟩, same⟩, own⟩
    · exact ⟨own, attempt, .inl ⟨page, member, .inl same⟩⟩
    · exact ⟨own, attempt, .inl ⟨page, member, .inr (.inl same)⟩⟩
    · exact ⟨own, attempt, .inl ⟨page, member, .inr (.inr same)⟩⟩
    · exact ⟨own, attempt, .inr ⟨artifact, member, same⟩⟩
  · rintro ⟨own, attempt, ⟨page, member, same | same | same⟩ | ⟨artifact, member, same⟩⟩
    · exact ⟨.inl (.inl (.inl ⟨page, ⟨attempt, inPages member, member⟩, same⟩)), own⟩
    · exact ⟨.inl (.inl (.inr ⟨page, ⟨attempt, inPages member, member⟩, same⟩)), own⟩
    · exact ⟨.inl (.inr ⟨page, ⟨attempt, inPages member, member⟩, same⟩), own⟩
    · exact ⟨.inr ⟨artifact, ⟨attempt, inArtifacts member, member⟩, same⟩, own⟩

end MonkeyOcr
