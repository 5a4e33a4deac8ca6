import MonkeyOcr.Lifecycle.Invariant

namespace MonkeyOcr

open Calls

/-- The message that a call works on: the one it was made with, or that of the
record it polled last. -/
def workOf (call : SystemCall) : Option JobWorkMessage :=
  match call.task with
  | .process _ message => some message
  | .runWorker _ _ => (memoryOf call).message
  | _ => none

/-- A delivery remembers the message it was made with. -/
def HoldsMessages (s : State) : Prop :=
  ∀ call ∈ s.calls, ∀ turns message, call.task = .process turns message →
    (memoryOf call).message = some message

section

variable {settings : Settings} {s s' : State} {action : Step} {call : SystemCall}
  {message : JobWorkMessage} {op : Op}

/-- A call with a message makes the calls of `process` or those around it. -/
theorem workOf_allowed (works : workOf call = some message)
    (allowed : call.task.contract.allow (memoryOf call) op) :
    (∃ message, (memoryOf call).message = some message ∧ (memoryOf call).workerCalls message op) ∨
      (memoryOf call).consumerCalls op := by
  unfold workOf at works
  split at works
  · rename_i task
    rw [task] at allowed
    exact .inl allowed
  · rename_i task
    rw [task] at allowed
    exact allowed
  · cases works

theorem HoldsMessages.memory (holds : HoldsMessages s) (member : call ∈ s.calls)
    (works : workOf call = some message) : (memoryOf call).message = some message := by
  unfold workOf at works
  split at works
  · rename_i turns given task
    cases works
    exact holds call member turns message task
  · exact works
  · cases works

/-- A call that turns to another message forgets what it has seen. -/
theorem Memory.next_message (m : Memory) (op : Op) (r : Except Exc op.Val) :
    (m.next op r).message = m.message ∨ (m.next op r).seen = [] ∧ (m.next op r).missing = [] := by
  cases op with
  | getJob => rcases r with e | _ | job <;> exact .inl rfl
  | getMany =>
    rcases r with e | _ | record
    · exact .inl rfl
    · exact .inl rfl
    · exact .inr ⟨rfl, rfl⟩
  | _ => cases r <;> exact .inl rfl

theorem workOf_answered {r : Except Exc op.Val} {next : Except Exc op.Val → Program Reply}
    (same : ((memoryOf call).next op r).message = (memoryOf call).message)
    (works : workOf (call.answered (S := Sig) op r next) = some message) : workOf call = some message := by
  rw [workOf, memoryOf_answered, same] at works
  exact works

theorem HoldsMessages.step (holds : HoldsMessages s) (moves : Moves settings s action s') :
    HoldsMessages s' := by
  cases moves with
  | start task =>
    intro call' member turns message given
    rcases List.mem_append.mp member with old | new
    · exact holds call' old turns message given
    · cases List.mem_singleton.mp new
      cases task <;> cases given
      rfl
  | kill i =>
    intro call' member
    rcases Machine.mem_modify_killed member with old | ⟨before, memberBefore, rfl⟩
    · exact holds call' old
    · exact holds before memberBefore
  | env => exact holds
  | @resume i choice call op r next w at_i prog executed allowed =>
    intro call' member turns message given
    rcases Machine.mem_set_answered member with old | rfl
    · exact holds call' old turns message given
    · have task : call.task = .process turns message := given
      rw [task] at allowed
      obtain ⟨_, -, calls⟩ := allowed
      have grows := Memory.workerCalls_grows calls r
      exact grows.message.trans (holds call (List.mem_of_getElem? at_i) turns message task)

end

/-- The calls of retention. -/
def Op.retains : Op → Bool
  | .claimExpired .. | .complete _ | .defer .. | .deleteObject _ => true
  | _ => false

theorem Task.contract_retains {task : Task} {m : Memory} {op : Op} (allowed : task.contract.allow m op)
    (retains : op.retains = true) : ∃ limit leaseSeconds now, task = .runBatch limit leaseSeconds now := by
  have worker : ¬ ∃ message, m.message = some message ∧ m.workerCalls message op := by
    intro ⟨_, _, calls⟩
    cases op <;> cases retains <;> exact calls
  cases task with
  | runBatch limit leaseSeconds now => exact ⟨limit, leaseSeconds, now, rfl⟩
  | process => exact absurd allowed worker
  | runWorker =>
    rcases allowed with own | other
    · exact absurd own worker
    · cases op <;> cases retains <;> exact other.elim
  | _ => cases op <;> cases retains <;> exact allowed.elim

end MonkeyOcr
