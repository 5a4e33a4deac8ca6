import Mathlib
import MonkeyOcr.Calls.Machine

namespace Calls

/-- A sum over the calls after one of them has changed. -/
theorem sum_map_set {α : Type} (f : α → Nat) {calls : List α} {i : Nat} {old : α} (at_i : calls[i]? = some old)
    (new : α) : ((calls.set i new).map f).sum + f old = (calls.map f).sum + f new := by
  induction calls generalizing i with
  | nil => cases at_i
  | cons head rest ih =>
    cases i with
    | zero =>
      cases at_i
      simp only [List.set_cons_zero, List.map_cons, List.sum_cons]
      omega
    | succ i =>
      have tail := ih (i := i) at_i
      simp only [List.set_cons_succ, List.map_cons, List.sum_cons]
      omega

theorem map_modify_same {α β : Type} {f : α → β} {change : α → α} (same : ∀ a, f (change a) = f a) (calls : List α)
    (i : Nat) : (calls.modify i change).map f = calls.map f := by
  apply List.ext_getElem?
  intro j
  rw [List.getElem?_map, List.getElem?_modify, List.getElem?_map]
  by_cases here : i = j
  · cases calls[j]? with
    | none => rfl
    | some a =>
      change some (f (if i = j then change a else a)) = some (f a)
      rw [if_pos here, same]
  · cases calls[j]? with
    | none => rfl
    | some a =>
      change some (f (if i = j then change a else a)) = some (f a)
      rw [if_neg here]

/-- A log of the world in which calls leave entries, each with the number of the call,
newest first: an operation adds what it leaves, and nothing else does. -/
structure Ledger {S : Signature} {W Task Choice Env ε Reply : Type} (M : Machine S W Task Choice Env ε Reply)
    (α : Type) where
  entry : (op : S.Op) × S.Res op → Option α
  log : W → List (Nat × α)
  exec : ∀ {i op choice w r w'}, M.exec i op choice w = some (r, w') →
    log w' = ((entry ⟨op, r⟩).map fun a => (i, a)).toList ++ log w
  env : ∀ {event w w'}, M.env event w = some w' → log w' = log w

namespace Ledger

variable {S : Signature} {W Task Choice Env ε Reply α : Type} {M : Machine S W Task Choice Env ε Reply}
  (ledger : Ledger M α) {s s' first : Sys S W Task ε Reply} {action : Action Task Choice Env}
  {ok : Sys S W Task ε Reply → Action Task Choice Env → Prop}

/-- The entries of one call. -/
def entriesOf (i : Nat) (w : W) : List α := (ledger.log w).filterMap fun entry => if entry.1 = i then some entry.2 else none

/-- What a call has left, by its own past. -/
def left (call : Call S Task ε Reply) : List α := call.past.filterMap ledger.entry

/-- The log holds what the calls have left, and the calls of the log are there. -/
structure Kept (s : Sys S W Task ε Reply) : Prop where
  entries : ∀ i, ledger.entriesOf i s.world = s.calls[i]?.elim [] ledger.left
  count : ∀ p : α → Bool, (ledger.log s.world).countP (fun entry => p entry.2) =
    (s.calls.map fun call => (ledger.left call).countP p).sum

variable {ledger}

theorem left_killed (call : Call S Task ε Reply) : ledger.left call.killed = ledger.left call := rfl

theorem left_answered (call : Call S Task ε Reply) (op : S.Op) (r : S.Res op) (next : S.Res op → Prog S ε Reply) :
    ledger.left (call.answered op r next) = (ledger.entry ⟨op, r⟩).toList ++ ledger.left call := by
  cases here : ledger.entry ⟨op, r⟩ <;> simp [left, Call.answered, here]

theorem Kept.step (kept : ledger.Kept s) (step : M.step s action = some s') : ledger.Kept s' := by
  cases action with
  | start task =>
    cases Option.some.inj step
    refine ⟨fun i => ?_, fun p => ?_⟩
    · rw [kept.entries i]
      by_cases here : i < s.calls.length
      · rw [List.getElem?_append_left here]
      · rw [List.getElem?_eq_none (by omega)]
        by_cases last : i = s.calls.length
        · subst last
          simp [left, Call.begin]
        · rw [List.getElem?_eq_none (by simp; omega)]
    · rw [kept.count p]
      simp [left, Call.begin]
  | resume i choice =>
    obtain ⟨call, op, next, r, w, found, prog, executed, rfl⟩ := Machine.step_resume step
    have added := ledger.exec executed
    refine ⟨fun j => ?_, fun p => ?_⟩
    · have before := kept.entries j
      unfold entriesOf at before ⊢
      rw [added, List.filterMap_append, before]
      by_cases here : i = j
      · subst here
        have bound := (List.getElem?_eq_some_iff.mp found).1
        rw [found, List.getElem?_set_self bound]
        simp only [Option.elim_some, left_answered]
        cases ledger.entry ⟨op, r⟩ <;> simp
      · rw [List.getElem?_set_ne here]
        cases ledger.entry ⟨op, r⟩ <;> simp [here]
    · have sum := sum_map_set (fun call => (ledger.left call).countP p) found (call.answered op r next)
      have before := kept.count p
      rw [left_answered, List.countP_append] at sum
      rw [added, List.countP_append, before]
      cases added : ledger.entry ⟨op, r⟩ with
      | none =>
        simp only [added, Option.map_none, Option.toList_none, List.countP_nil] at sum ⊢
        omega
      | some a =>
        simp only [added, Option.map_some, Option.toList_some, List.countP_cons, List.countP_nil] at sum ⊢
        omega
  | kill i =>
    cases Option.some.inj step
    refine ⟨fun j => ?_, fun p => ?_⟩
    · rw [kept.entries j]
      simp only [List.getElem?_modify]
      cases s.calls[j]? with
      | none => rfl
      | some call => by_cases here : i = j <;> simp [here, left_killed]
    · rw [kept.count p, map_modify_same fun call => by rw [left_killed]]
  | env event =>
    obtain ⟨w, moved, rfl⟩ := Machine.step_env step
    have same := ledger.env moved
    refine ⟨fun i => ?_, fun p => ?_⟩
    · have before := kept.entries i
      unfold entriesOf at before ⊢
      rw [same, before]
    · rw [same, kept.count p]

/-- The log is kept in every run that begins without one and without calls. -/
theorem Kept.run (empty : ledger.log first.world = []) (calls : first.calls = []) (run : M.Run ok first s) :
    ledger.Kept s := by
  induction run with
  | start => exact ⟨fun i => by simp [entriesOf, empty, calls], fun p => by simp [empty, calls]⟩
  | next _ _ step ih => exact ih.step step

/-- A log in which no call has two entries. -/
theorem nodup {log : List (Nat × α)}
    (once : ∀ i, (log.filterMap fun entry => if entry.1 = i then some entry.2 else none).length ≤ 1) :
    (log.map Prod.fst).Nodup := by
  rw [List.nodup_iff_count_le_one]
  intro i
  have count : ∀ log : List (Nat × α), (log.map Prod.fst).count i =
      (log.filterMap fun entry => if entry.1 = i then some entry.2 else none).length := by
    intro log
    induction log with
    | nil => rfl
    | cons entry rest ih =>
      by_cases here : entry.1 = i <;> simp [here, ih]
  rw [count]
  exact once i

/-- An entry of the log is one that its call has left. -/
theorem Kept.of_mem (kept : ledger.Kept s) {i : Nat} {a : α} (member : (i, a) ∈ ledger.log s.world) :
    ∃ call, s.calls[i]? = some call ∧ a ∈ ledger.left call := by
  have listed : a ∈ ledger.entriesOf i s.world := by
    rw [entriesOf, List.mem_filterMap]
    exact ⟨(i, a), member, by simp⟩
  rw [kept.entries i] at listed
  cases found : s.calls[i]? with
  | none => simp [found] at listed
  | some call =>
    rw [found] at listed
    exact ⟨call, rfl, listed⟩

end Ledger

end Calls
