import Mathlib
import MonkeyOcr.Calls.Machine

namespace Calls

variable {S : Signature} {W Task Choice Env ε Reply O : Type}

namespace Machine

/-- The machine with an observer, who takes note of every operation and its answer. -/
def observed (M : Machine S W Task Choice Env ε Reply) (note : (op : S.Op) → S.Res op → O → O) :
    Machine S (W × O) Task Choice Env ε Reply where
  program := M.program
  exec i op choice s := (M.exec i op choice s.1).map fun (r, w) => (r, (w, note op r s.2))
  env event s := (M.env event s.1).map fun w => (w, s.2)

end Machine

/-- The system without its observer. -/
def Sys.unobserved (s : Sys S (W × O) Task ε Reply) : Sys S W Task ε Reply := ⟨s.world.1, s.calls⟩

section

variable {M : Machine S W Task Choice Env ε Reply} {note : (op : S.Op) → S.Res op → O → O}
  {s s' first : Sys S (W × O) Task ε Reply} {action : Action Task Choice Env}
  {ok : Sys S (W × O) Task ε Reply → Action Task Choice Env → Prop}

/-- The observer does not interfere, and has noted the operation of the step. -/
theorem Machine.step_observed (step : (M.observed note).step s action = some s') :
    M.step s.unobserved action = some s'.unobserved ∧
      (s'.world.2 = s.world.2 ∧ (∀ i choice, action ≠ .resume i choice) ∨
        ∃ i choice call op next r, action = .resume i choice ∧ s.calls[i]? = some call ∧ call.prog = .call op next ∧
          M.exec i op choice s.world.1 = some (r, s'.world.1) ∧ s'.world.2 = note op r s.world.2) := by
  cases action with
  | start task =>
    cases Option.some.inj step
    exact ⟨rfl, .inl ⟨rfl, by simp⟩⟩
  | kill i =>
    cases Option.some.inj step
    exact ⟨rfl, .inl ⟨rfl, by simp⟩⟩
  | env event =>
    obtain ⟨w, moved, rfl⟩ := Machine.step_env step
    obtain ⟨v, own, rfl⟩ := Option.map_eq_some_iff.mp moved
    refine ⟨?_, .inl ⟨rfl, by simp⟩⟩
    simp only [Machine.step, Sys.unobserved, own]
  | resume i choice =>
    obtain ⟨call, op, next, r, w, found, prog, executed, rfl⟩ := Machine.step_resume step
    obtain ⟨answer, own, same⟩ := Option.map_eq_some_iff.mp executed
    obtain ⟨r', v⟩ := answer
    cases same
    refine ⟨?_, .inr ⟨i, choice, call, op, next, r, rfl, found, prog, own, rfl⟩⟩
    simp only [Machine.step, Sys.unobserved, found, prog, own]

/-- A run with an observer is one without. -/
theorem Machine.Run.unobserved (run : (M.observed note).Run ok first s) :
    M.Run (fun _ _ => True) first.unobserved s.unobserved := by
  induction run with
  | start => exact .start
  | next _ _ step ih => exact .next ih trivial (Machine.step_observed step).1

end

end Calls
