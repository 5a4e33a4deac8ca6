import MonkeyOcr.Calls.Machine

namespace Calls

variable {S : Signature} {W Task Choice Env ε α β Reply : Type}

namespace Prog

/-- A program that nothing interleaves with: what it ends with, and the world it leaves. -/
def alone (exec : (op : S.Op) → W → Option (S.Res op × W)) : Prog S ε α → W → Option (Except ε α × W)
  | .ret result, w => some (result, w)
  | .halt, _ => none
  | .call op next, w => (exec op w).bind fun answered => (next answered.1).alone exec answered.2

variable {exec : (op : S.Op) → W → Option (S.Res op × W)} {w w' : W}

@[simp] theorem alone_pure {a : α} : (pure a : Prog S ε α).alone exec w = some (.ok a, w) := rfl

@[simp] theorem alone_raise {e : ε} : (raise e : Prog S ε α).alone exec w = some (.error e, w) := rfl

@[simp] theorem alone_ofExcept {result : Except ε α} :
    (ofExcept result : Prog S ε α).alone exec w = some (result, w) := rfl

theorem alone_bind {p : Prog S ε α} {f : α → Prog S ε β} {a : α} (first : p.alone exec w = some (.ok a, w')) :
    (p >>= f).alone exec w = (f a).alone exec w' := by
  change (p.bind f).alone exec w = _
  induction p generalizing w with
  | ret result =>
    cases first
    rfl
  | halt => cases first
  | call op next ih =>
    obtain ⟨answered, executed, later⟩ := Option.bind_eq_some_iff.mp first
    simp only [Prog.bind, alone, executed, Option.bind_some]
    exact ih answered.1 later

theorem alone_bind_error {p : Prog S ε α} {f : α → Prog S ε β} {e : ε}
    (first : p.alone exec w = some (.error e, w')) : (p >>= f).alone exec w = some (.error e, w') := by
  change (p.bind f).alone exec w = _
  induction p generalizing w with
  | ret result =>
    cases first
    rfl
  | halt => cases first
  | call op next ih =>
    obtain ⟨answered, executed, later⟩ := Option.bind_eq_some_iff.mp first
    simp only [Prog.bind, alone, executed, Option.bind_some]
    exact ih answered.1 later

theorem alone_mapError {ε' : Type} {p : Prog S ε α} {f : ε → ε'} {result : Except ε α}
    (inner : p.alone exec w = some (result, w')) :
    (p.mapError f).alone exec w = some (result.mapError f, w') := by
  induction p generalizing w with
  | ret own =>
    cases inner
    cases result <;> rfl
  | halt => cases inner
  | call op next ih =>
    obtain ⟨answered, executed, later⟩ := Option.bind_eq_some_iff.mp inner
    simp only [mapError, catchError, alone, executed, Option.bind_some]
    exact ih answered.1 later

end Prog

namespace Machine

variable {M : Machine S W Task Choice Env ε Reply}

/-- The last call runs to its end. -/
theorem runs_alone {calls : List (Call S Task ε Reply)} {call : Call S Task ε Reply} {w w' : W}
    {choice : Choice} {result : Except ε Reply}
    (ends : call.prog.alone (fun op w => M.exec calls.length op choice w) w = some (result, w')) :
    ∃ n past, M.runs ⟨w, calls ++ [call]⟩ (List.replicate n (.resume calls.length choice)) =
      some ⟨w', calls ++ [⟨call.task, past, .ret result⟩]⟩ := by
  obtain ⟨task, past, prog⟩ := call
  induction prog generalizing past w with
  | ret own =>
    cases ends
    exact ⟨0, past, rfl⟩
  | halt => cases ends
  | call op next ih =>
    obtain ⟨answered, executed, later⟩ := Option.bind_eq_some_iff.mp ends
    obtain ⟨n, past', rest⟩ := ih answered.1 (⟨op, answered.1⟩ :: past) later
    refine ⟨n + 1, past', ?_⟩
    have moved : M.step ⟨w, calls ++ [⟨task, past, .call op next⟩]⟩ (.resume calls.length choice) =
        some ⟨answered.2, calls ++ [⟨task, ⟨op, answered.1⟩ :: past, next answered.1⟩]⟩ := by
      simp [step, executed, Call.answered]
    rw [List.replicate_succ]
    simp only [runs, moved, Option.bind_some]
    exact rest

/-- A new call, alone. -/
theorem runs_call {s : Sys S W Task ε Reply} {w' : W} {task : Task} {choice : Choice} {result : Except ε Reply}
    (ends : (M.program task).alone (fun op w => M.exec s.calls.length op choice w) s.world = some (result, w')) :
    ∃ n past, M.runs s (.start task :: List.replicate n (.resume s.calls.length choice)) =
      some ⟨w', s.calls ++ [⟨task, past, .ret result⟩]⟩ := by
  have begun : M.step s (.start task) = some ⟨s.world, s.calls ++ [Call.begin M task]⟩ := rfl
  have prog : (Call.begin M task).prog = M.program task := rfl
  rw [← prog] at ends
  obtain ⟨n, past, rest⟩ := runs_alone ends
  refine ⟨n, past, ?_⟩
  simp only [runs, begun, Option.bind_some]
  exact rest

end Machine
end Calls
