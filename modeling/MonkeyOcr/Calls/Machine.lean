import MonkeyOcr.Calls.Contract
import Mathlib.Data.List.Basic

namespace Calls

variable {S : Signature} {W Task Choice Env ε Reply : Type}

/-- One call of a program: what it was asked, the operations it has
performed (newest first) and what it has left to do. -/
structure Call (S : Signature) (Task ε Reply : Type) where
  task : Task
  past : List ((op : S.Op) × S.Res op)
  prog : Prog S ε Reply

/-- A shared world and the calls that work on it, in order of their start. -/
structure Sys (S : Signature) (W Task ε Reply : Type) where
  world : W
  calls : List (Call S Task ε Reply)

/-- A system of interleaved calls. `exec` performs one operation of the call
with the given number as one atomic step; what the operation leaves open is
resolved by a `Choice`, and `none` says that the choice does not fit.
`env` are the steps no call makes. -/
structure Machine (S : Signature) (W Task Choice Env ε Reply : Type) where
  program : Task → Prog S ε Reply
  exec : Nat → (op : S.Op) → Choice → W → Option (S.Res op × W)
  env : Env → W → Option W

inductive Action (Task Choice Env : Type) where
  | start (task : Task)
  | resume (i : Nat) (choice : Choice)
  | kill (i : Nat)
  | env (event : Env)

namespace Call

def begin (M : Machine S W Task Choice Env ε Reply) (task : Task) : Call S Task ε Reply :=
  ⟨task, [], M.program task⟩

def answered (call : Call S Task ε Reply) (op : S.Op) (r : S.Res op)
    (next : S.Res op → Prog S ε Reply) : Call S Task ε Reply :=
  ⟨call.task, ⟨op, r⟩ :: call.past, next r⟩

def killed (call : Call S Task ε Reply) : Call S Task ε Reply := { call with prog := .halt }

end Call

namespace Machine

variable (M : Machine S W Task Choice Env ε Reply)

def step (s : Sys S W Task ε Reply) : Action Task Choice Env → Option (Sys S W Task ε Reply)
  | .start task => some { s with calls := s.calls ++ [Call.begin M task] }
  | .resume i choice =>
    match s.calls[i]? with
    | none => none
    | some call =>
      match call.prog with
      | .ret _ => none
      | .halt => none
      | .call op next =>
        match M.exec i op choice s.world with
        | none => none
        | some (r, w) => some ⟨w, s.calls.set i (call.answered op r next)⟩
  | .kill i => some { s with calls := s.calls.modify i Call.killed }
  | .env event =>
    match M.env event s.world with
    | none => none
    | some w => some { s with world := w }

/-- The states a system reaches by steps that all meet `ok`. -/
inductive Run (ok : Sys S W Task ε Reply → Action Task Choice Env → Prop)
    (first : Sys S W Task ε Reply) : Sys S W Task ε Reply → Prop
  | start : Run ok first first
  | next {s s' action} : Run ok first s → ok s action → M.step s action = some s' → Run ok first s'

def runs (s : Sys S W Task ε Reply) : List (Action Task Choice Env) → Option (Sys S W Task ε Reply)
  | [] => some s
  | action :: rest => (M.step s action).bind fun s => runs s rest

/-- `runs`, as far as the steps meet `ok`. -/
def runsIf (ok : Sys S W Task ε Reply → Action Task Choice Env → Prop)
    [∀ s action, Decidable (ok s action)] (s : Sys S W Task ε Reply) :
    List (Action Task Choice Env) → Option (Sys S W Task ε Reply)
  | [] => some s
  | action :: rest => if ok s action then (M.step s action).bind fun s => runsIf ok s rest else none

variable {M} {ok : Sys S W Task ε Reply → Action Task Choice Env → Prop}
  {s s' first : Sys S W Task ε Reply}

theorem Run.trans {last : Sys S W Task ε Reply} (before : M.Run ok first s) (rest : M.Run ok s last) :
    M.Run ok first last := by
  induction rest with
  | start => exact before
  | next _ permitted step ih => exact .next ih permitted step

/-- Fewer steps are permitted under a stronger condition. -/
theorem Run.mono {ok' : Sys S W Task ε Reply → Action Task Choice Env → Prop}
    (run : M.Run ok first s) (implies : ∀ s action, ok s action → ok' s action) :
    M.Run ok' first s := by
  induction run with
  | start => exact .start
  | next _ permitted step ih => exact .next ih (implies _ _ permitted) step

theorem Run.of_runs {actions : List (Action Task Choice Env)} (h : M.runs s actions = some s')
    (permitted : ∀ s, ∀ action ∈ actions, ok s action) : M.Run ok s s' := by
  induction actions generalizing s with
  | nil => cases h; exact .start
  | cons action rest ih =>
    obtain ⟨middle, step, tail⟩ := Option.bind_eq_some_iff.mp h
    have here := permitted s action List.mem_cons_self
    have later := ih tail fun s a member => permitted s a (List.mem_cons_of_mem _ member)
    exact (Run.next .start here step).trans later

theorem Run.of_runsIf [∀ s action, Decidable (ok s action)] {actions : List (Action Task Choice Env)}
    (h : M.runsIf ok s actions = some s') : M.Run ok s s' := by
  induction actions generalizing s with
  | nil => cases h; exact .start
  | cons action rest ih =>
    unfold runsIf at h
    split at h
    · rename_i permitted
      obtain ⟨middle, step, tail⟩ := Option.bind_eq_some_iff.mp h
      exact (Run.next .start permitted step).trans (ih tail)
    · cases h

/-- All a resumed call does in one step. -/
theorem step_resume {i : Nat} {choice : Choice} (h : M.step s (.resume i choice) = some s') :
    ∃ call op next r w, s.calls[i]? = some call ∧ call.prog = .call op next ∧
      M.exec i op choice s.world = some (r, w) ∧
      s' = ⟨w, s.calls.set i (call.answered op r next)⟩ := by
  simp only [step] at h
  split at h
  · cases h
  · rename_i call found
    split at h
    · cases h
    · cases h
    · rename_i op next prog
      split at h
      · cases h
      · rename_i r w executed
        exact ⟨call, op, next, r, w, found, prog, executed, (Option.some.inj h).symm⟩

theorem step_env {event : Env} (h : M.step s (.env event) = some s') :
    ∃ w, M.env event s.world = some w ∧ s' = { s with world := w } := by
  simp only [step] at h
  split at h
  · cases h
  · rename_i w moved
    exact ⟨w, moved, (Option.some.inj h).symm⟩

/-- A call of the system after one step is an old one, the one that moved,
a new one or a killed one. -/
theorem mem_set_answered {calls : List (Call S Task ε Reply)} {i : Nat}
    {moved call : Call S Task ε Reply} (member : call ∈ calls.set i moved) :
    call ∈ calls ∨ call = moved := by
  rcases List.mem_or_eq_of_mem_set member with old | new
  · exact .inl old
  · exact .inr new

theorem mem_modify_killed {calls : List (Call S Task ε Reply)} {i : Nat}
    {call : Call S Task ε Reply} (member : call ∈ calls.modify i Call.killed) :
    call ∈ calls ∨ ∃ old ∈ calls, call = old.killed := by
  obtain ⟨j, bound, value⟩ := List.mem_iff_getElem.mp member
  have old : j < calls.length := by simpa using bound
  rw [List.getElem_modify] at value
  split at value
  · exact .inr ⟨calls[j], List.getElem_mem old, value.symm⟩
  · exact .inl (value ▸ List.getElem_mem old)

end Machine

section Soundness

variable {σ : Type} (M : Machine S W Task Choice Env ε Reply)
  (ok : Sys S W Task ε Reply → Action Task Choice Env → Prop)
  (g : Ghost S σ) (init : Task → σ) (c : Task → Contract S σ)
  (Q : Task → Reply → σ → Prop) (E : Task → ε → σ → Prop)

/-- The ghost state of a call, read off its past. -/
def Call.ghost (call : Call S Task ε Reply) : σ :=
  call.past.foldr (fun done s => g.next s done.1 done.2) (init call.task)

/-- What is left of the call keeps its contract. -/
def Tracks (call : Call S Task ε Reply) : Prop :=
  call.prog.Meets g (c call.task) (Q call.task) (E call.task) (call.ghost g init)

/-- What has to be shown of single steps so that an invariant holds in every
run of calls that keep their contract: an allowed operation preserves it and
gives an answer one may rely on. -/
structure Sound (I : Sys S W Task ε Reply → Prop) : Prop where
  program : ∀ task, (M.program task).Meets g (c task) (Q task) (E task) (init task)
  start : ∀ s task, I s → ok s (.start task) → I { s with calls := s.calls ++ [Call.begin M task] }
  resume : ∀ s i choice call op next r w, I s → ok s (.resume i choice) →
    (∀ call ∈ s.calls, Tracks g init c Q E call) →
    s.calls[i]? = some call → call.prog = .call op next → M.exec i op choice s.world = some (r, w) →
    (c call.task).allow (call.ghost g init) op →
      I ⟨w, s.calls.set i (call.answered op r next)⟩ ∧ (c call.task).answer (call.ghost g init) op r
  kill : ∀ s i, I s → ok s (.kill i) → I { s with calls := s.calls.modify i Call.killed }
  env : ∀ s event w, I s → ok s (.env event) → M.env event s.world = some w →
    I { s with world := w }

variable {M ok g init c Q E} {I : Sys S W Task ε Reply → Prop}

@[simp] theorem Call.ghost_begin (task : Task) : (Call.begin M task).ghost g init = init task := rfl

@[simp] theorem Call.ghost_killed (call : Call S Task ε Reply) :
    call.killed.ghost g init = call.ghost g init := rfl

@[simp] theorem Call.ghost_answered (call : Call S Task ε Reply) (op : S.Op) (r : S.Res op)
    (next : S.Res op → Prog S ε Reply) :
    (call.answered op r next).ghost g init = g.next (call.ghost g init) op r := rfl

theorem Sound.step {s s' : Sys S W Task ε Reply} {action : Action Task Choice Env}
    (sound : Sound M ok g init c Q E I) (inv : I s)
    (tracks : ∀ call ∈ s.calls, Tracks g init c Q E call)
    (permitted : ok s action) (step : M.step s action = some s') :
    I s' ∧ ∀ call ∈ s'.calls, Tracks g init c Q E call := by
  cases action with
  | start task =>
    cases Option.some.inj step
    refine ⟨sound.start s task inv permitted, fun call member => ?_⟩
    rcases List.mem_append.mp member with old | new
    · exact tracks call old
    · cases List.mem_singleton.mp new
      exact sound.program task
  | resume i choice =>
    obtain ⟨call, op, next, r, w, found, prog, executed, rfl⟩ := Machine.step_resume step
    have own : Tracks g init c Q E call := tracks call (List.mem_of_getElem? found)
    rw [Tracks, prog, Prog.meets_call] at own
    obtain ⟨kept, answer⟩ :=
      sound.resume s i choice call op next r w inv permitted tracks found prog executed own.1
    refine ⟨kept, fun other member => ?_⟩
    rcases Machine.mem_set_answered member with old | rfl
    · exact tracks other old
    · exact own.2 r answer
  | kill i =>
    cases Option.some.inj step
    refine ⟨sound.kill s i inv permitted, fun call member => ?_⟩
    rcases Machine.mem_modify_killed member with old | ⟨old, _, rfl⟩
    · exact tracks call old
    · trivial
  | env event =>
    obtain ⟨w, moved, rfl⟩ := Machine.step_env step
    exact ⟨sound.env s event w inv permitted moved, tracks⟩

/-- The invariant rule for runs: it holds in every state reached, and every
call in it still keeps its contract. -/
theorem Sound.run {first s : Sys S W Task ε Reply} (sound : Sound M ok g init c Q E I)
    (inv : I first) (tracks : ∀ call ∈ first.calls, Tracks g init c Q E call)
    (run : M.Run ok first s) :
    I s ∧ ∀ call ∈ s.calls, Tracks g init c Q E call := by
  induction run with
  | start => exact ⟨inv, tracks⟩
  | next _ permitted step ih => exact sound.step ih.1 ih.2 permitted step

/-- A contract that relies on what the world always answers is kept in every
step, whatever else holds. -/
theorem tracks_step {s s' : Sys S W Task ε Reply} {action : Action Task Choice Env}
    (program : ∀ task, (M.program task).Meets g (c task) (Q task) (E task) (init task))
    (answers : ∀ i op choice w r w', M.exec i op choice w = some (r, w') →
      ∀ task state, (c task).answer state op r)
    (tracks : ∀ call ∈ s.calls, Tracks g init c Q E call) (step : M.step s action = some s') :
    ∀ call ∈ s'.calls, Tracks g init c Q E call := by
  have sound : Sound M (fun _ _ => True) g init c Q E fun _ => True :=
    { program := program
      start := fun _ _ _ _ => trivial
      resume := fun _ i choice _ op _ r w _ _ _ _ _ executed _ =>
        ⟨trivial, answers i op choice _ r w executed _ _⟩
      kill := fun _ _ _ _ => trivial
      env := fun _ _ _ _ _ _ => trivial }
  exact (sound.step trivial tracks trivial step).2

end Soundness
end Calls
