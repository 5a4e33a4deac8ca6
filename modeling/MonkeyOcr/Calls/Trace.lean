import MonkeyOcr.Calls.Machine

namespace Calls

variable {S : Signature} {W Task Choice Env ε α Reply : Type}

/-- All that a program has done, newest first. -/
abbrev Trace (S : Signature) := List ((op : S.Op) × S.Res op)

namespace Trace

/-- A program that remembers everything. -/
def ghost : Ghost S (Trace S) := ⟨fun past op r => ⟨op, r⟩ :: past⟩

variable {c : Contract S (Trace S)} {Q : α → Trace S → Prop} {E : ε → Trace S → Prop} {p : Prog S ε α}
  {past : Trace S}

@[simp] theorem next_ghost (op : S.Op) (r : S.Res op) : (ghost : Ghost S (Trace S)).next past op r = ⟨op, r⟩ :: past :=
  rfl

/-- What was done stays done. -/
theorem extends_past (meets : p.Meets ghost c Q E past) :
    p.Meets ghost c (fun a past' => Q a past' ∧ past ⊆ past') (fun e past' => E e past' ∧ past ⊆ past') past := by
  refine meets.stable (P := fun past' => past ⊆ past') ?_ fun _ member => member
  intro past' op r _ kept
  exact fun entry member => List.mem_cons_of_mem _ (kept member)

end Trace

/-- Every call of the trace was allowed when it was made. -/
def Trace.Obeys (c : Contract S (Trace S)) : Trace S → Prop
  | [] => True
  | ⟨op, _⟩ :: past => c.allow past op ∧ Trace.Obeys c past

/-- The trace of a call is its past. -/
@[simp] theorem Call.ghost_trace (call : Call S Task ε Reply) : call.ghost Trace.ghost (fun _ => []) = call.past := by
  obtain ⟨task, past, prog⟩ := call
  induction past with
  | nil => rfl
  | cons entry rest ih =>
    have later : rest.foldr (fun done s => Trace.ghost.next s done.1 done.2) [] = rest := ih
    simp only [ghost, List.foldr_cons, later]
    rfl

/-- Calls of programs that rely on what the world always answers have obeyed their contract. -/
theorem obeys_run {M : Machine S W Task Choice Env ε Reply} {c : Task → Contract S (Trace S)}
    {Q : Task → Reply → Trace S → Prop} {E : Task → ε → Trace S → Prop} {ok : Sys S W Task ε Reply → Action Task Choice Env → Prop}
    {first s : Sys S W Task ε Reply}
    (program : ∀ task, (M.program task).Meets Trace.ghost (c task) (Q task) (E task) [])
    (answers : ∀ i op choice w r w', M.exec i op choice w = some (r, w') → ∀ task past, (c task).answer past op r)
    (none : first.calls = []) (run : M.Run ok first s) :
    ∀ call ∈ s.calls, call.prog.Meets Trace.ghost (c call.task) (Q call.task) (E call.task) call.past ∧
      Trace.Obeys (c call.task) call.past := by
  have sound : Sound M ok Trace.ghost (fun _ => []) c Q E
      fun s => ∀ call ∈ s.calls, Trace.Obeys (c call.task) call.past := by
    refine ⟨program, ?_, ?_, ?_, ?_⟩
    · intro s task obeys _ call member
      rcases List.mem_append.mp member with old | new
      · exact obeys call old
      · cases List.mem_singleton.mp new
        trivial
    · intro s i choice call op next r w obeys _ _ found _ executed allowed
      rw [Call.ghost_trace] at allowed
      refine ⟨fun other member => ?_, answers i op choice s.world r w executed _ _⟩
      rcases Machine.mem_set_answered member with old | rfl
      · exact obeys other old
      · exact ⟨allowed, obeys call (List.mem_of_getElem? found)⟩
    · intro s i obeys _ call member
      rcases Machine.mem_modify_killed member with old | ⟨old, there, rfl⟩
      · exact obeys call old
      · exact obeys old there
    · intro s event w obeys _ _
      exact obeys
  have empty : ∀ P : Call S Task ε Reply → Prop, ∀ call ∈ first.calls, P call := by
    intro P call member
    rw [none] at member
    cases member
  obtain ⟨obeys, tracks⟩ := sound.run (empty _) (empty _) run
  intro call member
  have own := tracks call member
  rw [Tracks, Call.ghost_trace] at own
  exact ⟨own, obeys call member⟩

end Calls
