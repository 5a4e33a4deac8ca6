import MonkeyOcr.Access.Isolation
import MonkeyOcr.Objects.Contract

namespace MonkeyOcr

open Calls

/-- What is put is under the prefix of some job. -/
def Op.putsUnderJob : Op → Prop
  | .putBytes key _ _ => key.job?.isSome = true
  | _ => True

/-- The contract of each kind of call with the object store. -/
def Task.storing : Task → Contract Sig Hashes
  | .process _ message => Hashes.delivery message.jobId
  | .runWorker .. => ⟨fun _ op => op.putsUnderJob, fun _ op r => Hashes.answers op r⟩
  | _ => ⟨fun _ _ => True, fun _ op r => Hashes.answers op r⟩

/-- What the call remembers of the objects of its job. -/
def hashesOf (call : SystemCall) : Hashes := call.ghost Hashes.ghost fun _ => {}

@[simp] theorem hashesOf_begin (settings : Settings) (task : Task) :
    hashesOf (Call.begin (system settings) task) = {} := rfl

@[simp] theorem hashesOf_killed (call : SystemCall) : hashesOf call.killed = hashesOf call := rfl

@[simp] theorem hashesOf_answered (call : SystemCall) (op : Op) (r : Except Exc op.Val)
    (next : Except Exc op.Val → Program Reply) :
    hashesOf (call.answered (S := Sig) op r next) = (hashesOf call).next op r := rfl

/-- The call keeps its contract with the object store from here on. -/
abbrev Storing (call : SystemCall) : Prop :=
  Tracks Hashes.ghost (fun _ => {}) Task.storing (fun _ _ _ => True) (fun _ _ _ => True) call

section

variable {settings : Settings} {s s' : State} {action : Step} {call : SystemCall} {op : Op} {m : Hashes} {i : Nat}
  {choice : Choice} {r : Except Exc op.Val} {w w' : World} {next : Except Exc op.Val → Program Reply}

theorem Hashes.delivers_putsUnderJob {id : Id} (allowed : Hashes.delivers id m op) : op.putsUnderJob := by
  cases op with
  | putBytes key data type =>
    exact Option.isSome_iff_exists.mpr ⟨id, allowed⟩
  | _ => trivial

namespace WorkerMain

/-- A part of the worker process: what it puts is under the prefix of some job. -/
abbrev Puts {α : Type} (p : Program α) (m : Hashes) : Prop :=
  p.Meets Hashes.ghost ⟨fun _ op => op.putsUnderJob, fun _ op r => Hashes.answers op r⟩ (fun _ _ => True)
    (fun _ _ => True) m

theorem puts_await (op : Op) (allowed : op.putsUnderJob) : Puts (await op) m :=
  ⟨allowed, fun r _ => by cases r <;> trivial⟩

theorem processRecord_puts {turns : Nat} {record : Record} : Puts (processRecord settings turns record) m := by
  unfold processRecord
  split
  · exact (puts_await (.log ..) trivial).bind fun _ _ _ => puts_await (.sendToDlq ..) trivial
  · rename_i message _
    have process : Puts (OCRWorker.process settings turns message) m :=
      Prog.Meets.frame (s := {}) OCRWorker.process_delivers
        (fun _ _ _ allowed => Hashes.delivers_putsUnderJob allowed) fun _ _ _ _ reliable => reliable
    exact process.bind fun _ _ _ => trivial

theorem runWorker_puts {turns polls : Nat} : Puts (runWorker settings turns polls) m := by
  induction polls generalizing m with
  | zero => trivial
  | succ polls ih =>
    refine (puts_await .stopRequested trivial).bind fun stop m₁ _ => ?_
    split
    · trivial
    · refine (puts_await .getMany trivial).bind fun record m₂ _ => ?_
      cases record with
      | none => exact ih
      | some record =>
        refine processRecord_puts.bind fun _ m₃ _ => ?_
        exact (puts_await (.commit ..) trivial).bind fun _ _ _ => ih

end WorkerMain

theorem program_stores (settings : Settings) (task : Task) :
    (program settings task).Meets Hashes.ghost task.storing (fun _ _ => True) (fun _ _ => True) {} := by
  cases task with
  | process turns message =>
    have process : OCRWorker.Part message.jobId (OCRWorker.process settings turns message) (fun _ _ => True) {} :=
      OCRWorker.process_delivers
    exact Prog.Meets.bind process fun _ _ _ => trivial
  | runWorker => exact Prog.Meets.bind WorkerMain.runWorker_puts fun _ _ _ => trivial
  | _ => exact Prog.meets_free fun _ _ => trivial

/-- What the object store answers can be relied on. -/
theorem World.exec_answers (executed : World.exec settings i op choice w = some (r, w')) : Hashes.answers op r := by
  cases op with
  | getJob site id =>
    rcases r with e | _ | job
    · trivial
    · trivial
    · obtain ⟨-, read⟩ := World.exec_getJob executed
      obtain ⟨row, -, -, rfl⟩ := World.getJob_some read.symm
      rfl
  | putBytes key data type =>
    cases r with
    | error e => trivial
    | ok stored =>
      obtain ⟨same, -⟩ := Prod.mk.inj (Option.some.inj (World.exec_ok executed))
      cases same
      exact ⟨rfl, rfl, rfl⟩
  | stat key =>
    rcases r with e | _ | info
    · trivial
    · trivial
    · obtain ⟨same, -⟩ := Prod.mk.inj (Option.some.inj (World.exec_ok executed))
      obtain ⟨object, -, rfl⟩ := Option.map_eq_some_iff.mp (Except.ok.inj same)
      rfl
  | _ => trivial

theorem Moves.storing (storing : ∀ call ∈ s.calls, Storing call) (moves : Moves settings s action s') :
    ∀ call ∈ s'.calls, Storing call := by
  refine tracks_step (program_stores settings) (fun i op choice w r w' executed task _ => ?_) storing moves.step
  have reliable : Hashes.answers op r := World.exec_answers executed
  cases task <;> exact reliable

/-- What a call puts is under the prefix of some job. -/
theorem Storing.puts {key : ObjectKey} {data : Content} {type : String}
    {next : Except Exc (Op.putBytes key data type).Val → Program Reply} (storing : Storing call)
    (prog : call.prog = .call (.putBytes key data type) next)
    (allowed : call.task.contract.allow (memoryOf call) (.putBytes key data type)) : key.job?.isSome = true := by
  rw [Storing, Tracks, prog] at storing
  obtain ⟨own, -⟩ := storing
  change call.task.storing.allow (hashesOf call) (.putBytes key data type) at own
  generalize call.task = task at own allowed
  cases task with
  | process turns message =>
    have calls : Hashes.delivers message.jobId (hashesOf call) (.putBytes key data type) := own
    exact Hashes.delivers_putsUnderJob calls
  | runWorker => exact own
  | _ => exact allowed.elim

end
end MonkeyOcr
