import Mathlib
import MonkeyOcr.Calls.Ledger
import MonkeyOcr.Cleanup.Claims
import MonkeyOcr.Lifecycle.Checkpoints

namespace MonkeyOcr

open Calls

/-- The call was a `complete` of the job that returned `True`. -/
def deletes (id : Id) : ((op : Op) × Except Exc op.Val) → Bool
  | ⟨.complete candidate, .ok true⟩ => candidate.aggregateKind = .job ∧ candidate.aggregateId = id
  | _ => false

/-- How many `complete` of the job in one call have returned `True`. -/
def deletionsOf (id : Id) (call : SystemCall) : Nat := call.past.countP (deletes id)

/-- How many `complete` of the job have returned `True`. -/
def completions (s : State) (id : Id) : Nat := (s.calls.map (deletionsOf id)).sum

/-- A job whose deletion was reported is gone for good. -/
structure DeletedOnce (s : State) (id : Id) : Prop where
  once : completions s id ≤ 1
  gone : 0 < completions s id → ¬ Unborn s id ∧ s.world.jobs id = none

/-- What was once claimed stays claimed, and is not changed, until it is gone. -/
structure Frozen (s : State) (id : Id) (row : JobRow) : Prop where
  born : ¬ Unborn s id
  rows : ∀ row', s.world.jobs id = some row' →
    row'.claim.isSome = true ∧ row' = { row with claim := row'.claim, events := row'.events }

section

variable {settings : Settings} {first s s' : State} {action : Step} {call : SystemCall} {op : Op} {w : World}
  {id : Id} {row : JobRow} {key : ObjectKey}

theorem deletes_eq_true {r : Except Exc op.Val} (reported : deletes id ⟨op, r⟩ = true) :
    ∃ candidate, op = .complete candidate ∧ candidate.aggregateKind = .job ∧ candidate.aggregateId = id := by
  unfold deletes at reported
  split at reported
  · rename_i candidate same
    cases same
    exact ⟨candidate, rfl, of_decide_eq_true reported⟩
  · cases reported

/-- A deletion that is reported has found the claim on the row and removed the row. -/
theorem World.exec_deletes {i : Nat} {choice : Choice} {w w' : World} {r : Except Exc op.Val}
    (executed : World.exec settings i op choice w = some (r, w')) (reported : deletes id ⟨op, r⟩ = true) :
    (w.jobs id).isSome = true ∧ w'.jobs id = none := by
  obtain ⟨candidate, rfl, kind, own⟩ := deletes_eq_true reported
  rcases r with e | found
  · cases reported
  · have done := World.exec_ok executed
    change some (Except.ok (w.complete candidate).1, (w.complete candidate).2) = _ at done
    have both := Prod.mk.inj (Option.some.inj done)
    cases found with
    | false => cases reported
    | true =>
      have deleted : (w.complete candidate).1 = true := Except.ok.inj both.1
      rw [← both.2]
      unfold World.complete at deleted ⊢
      rw [kind] at deleted ⊢
      dsimp only at deleted ⊢
      split at deleted
      · rename_i held
        obtain ⟨row, stored, -⟩ := (Option.any_eq_true _ _).mp held
        rw [own] at stored
        rw [if_pos held, own]
        refine ⟨by rw [stored]; rfl, ?_⟩
        change (w.setJob id none).jobs id = none
        rw [World.setJob_jobs, if_pos rfl]
      · cases deleted

theorem completions_answered {i : Nat} {r : Except Exc op.Val} {next : Except Exc op.Val → Program Reply}
    (at_i : s.calls[i]? = some call) :
    completions (resumed s i call op r next w) id = completions s id + if deletes id ⟨op, r⟩ then 1 else 0 := by
  have sum := sum_map_set (deletionsOf id) at_i (call.answered (S := Sig) op r next)
  have own : deletionsOf id (call.answered (S := Sig) op r next) =
      deletionsOf id call + if deletes id ⟨op, r⟩ then 1 else 0 := List.countP_cons
  rw [own] at sum
  change ((s.calls.set i (call.answered (S := Sig) op r next)).map (deletionsOf id)).sum = _
  unfold completions
  omega

theorem DeletedOnce.step (coherent : Coherent s) (once : DeletedOnce s id) (moves : Moves settings s action s') :
    DeletedOnce s' id := by
  have stays : 0 < completions s id → ¬ Unborn s' id ∧ s'.world.jobs id = none := by
    intro reported
    obtain ⟨born, gone⟩ := once.gone reported
    refine ⟨moves.born born, ?_⟩
    cases after : s'.world.jobs id with
    | none => rfl
    | some row' =>
      obtain ⟨row, found, -⟩ := moves.kept coherent born after
      rw [gone] at found
      cases found
  have quiet : completions s' id = completions s id → DeletedOnce s' id := by
    intro same
    exact ⟨same ▸ once.once, fun reported => stays (same ▸ reported)⟩
  cases moves with
  | start task =>
    refine quiet ?_
    unfold completions
    rw [List.map_append, List.sum_append]
    rfl
  | kill i =>
    refine quiet ?_
    unfold completions
    have same : ∀ call : SystemCall, deletionsOf id call.killed = deletionsOf id call := fun _ => rfl
    rw [map_modify_same same]
  | env event => exact quiet rfl
  | @resume i choice call op r next w at_i prog executed allowed =>
    have count : completions (resumed s i call op r next w) id =
        completions s id + if deletes id ⟨op, r⟩ then 1 else 0 := completions_answered at_i
    by_cases reported : deletes id ⟨op, r⟩ = true
    · obtain ⟨there, gone⟩ := World.exec_deletes executed reported
      obtain ⟨row, stored⟩ := Option.isSome_iff_exists.mp there
      have none : completions s id = 0 := by
        by_contra some
        rw [(once.gone (Nat.pos_of_ne_zero some)).2] at stored
        cases stored
      rw [if_pos reported, none] at count
      have born := (Moves.resume at_i prog executed allowed).born (coherent.consistent.stored_born stored)
      exact ⟨count.le, fun _ => ⟨born, gone⟩⟩
    · rw [if_neg reported] at count
      exact quiet count

theorem Initial.deletedOnce (initial : Initial s) : DeletedOnce s id := by
  have none : completions s id = 0 := by rw [completions, initial.calls]; rfl
  exact ⟨by omega, fun some => by omega⟩

/-- A claim is never taken off a row. -/
theorem Frozen.step (coherent : Coherent s) (frozen : Frozen s id row) (moves : Moves settings s action s') :
    Frozen s' id row := by
  refine ⟨moves.born frozen.born, fun later stored => ?_⟩
  obtain ⟨before, found, rfl | ⟨_, _, _, change⟩⟩ := moves.kept coherent frozen.born stored
  · exact frozen.rows _ found
  · obtain ⟨claimed, same⟩ := frozen.rows before found
    obtain ⟨claimed', same'⟩ := change.frozen claimed
    refine ⟨claimed', ?_⟩
    rw [same', same]

/-- No read and no list returns a claimed job. -/
theorem Frozen.hidden (frozen : Frozen s id row) :
    s.world.getJob id = none ∧ ∀ ownerId offset limit, id ∉ s.world.listIds ownerId offset limit := by
  constructor
  · unfold World.getJob
    cases stored : s.world.jobs id with
    | none => rfl
    | some later =>
      obtain ⟨claimed, -⟩ := frozen.rows later stored
      simp [claimed]
  · intro ownerId offset limit listed
    have member := List.mem_of_mem_drop (List.mem_of_mem_take listed)
    obtain ⟨-, holds⟩ := List.mem_filter.mp ((List.mem_insertionSort _).mp member)
    obtain ⟨later, stored, free⟩ := (Option.any_eq_true _ _).mp holds
    obtain ⟨claimed, -⟩ := frozen.rows later stored
    obtain ⟨-, unclaimed⟩ := of_decide_eq_true free
    rw [Option.isNone_iff_eq_none.mp unclaimed] at claimed
    cases claimed

theorem Sweep.next_deleted {m : Sweep} {r : Except Exc op.Val} (deleted : key ∈ (m.next op r).deleted) :
    (⟨.deleteObject key, .ok ()⟩ : (op : Op) × Except Exc op.Val) = ⟨op, r⟩ ∨ key ∈ m.deleted := by
  cases op with
  | deleteObject other =>
    cases r with
    | error e => exact .inr deleted
    | ok =>
      rcases List.mem_cons.mp deleted with rfl | old
      · exact .inl rfl
      · exact .inr old
  | claimExpired => cases r <;> exact .inr deleted
  | _ => exact .inr deleted

/-- What a cleaner remembers as deleted, a deletion of its own has removed. -/
theorem deleted_past (deleted : key ∈ (sweepOf call).deleted) :
    ⟨.deleteObject key, .ok ()⟩ ∈ call.past := by
  have each : ∀ past : List ((op : Op) × Except Exc op.Val),
      key ∈ (past.foldr (fun done m => Sweep.next m done.1 done.2) {}).deleted →
        ⟨.deleteObject key, .ok ()⟩ ∈ past := by
    intro past member
    induction past with
    | nil => cases member
    | cons done rest ih =>
      rcases Sweep.next_deleted member with same | old
      · rw [same]
        exact List.mem_cons_self
      · exact List.mem_cons_of_mem _ (ih old)
  exact each call.past deleted

/-- The removal of a row is the `complete` of a cleaner with the token on the
row that has deleted all that the row names. -/
def RemovedBy (s : State) (id : Id) (row : JobRow) (action : Step) : Prop :=
  ∃ i choice call candidate next, action = .resume i choice ∧ s.calls[i]? = some call ∧
    call.prog = .call (S := Sig) (.complete candidate) next ∧
    candidate.aggregateKind = .job ∧ candidate.aggregateId = id ∧
    World.holds row.claim candidate.claimToken = true ∧
    ∀ key, row.References id key → ⟨.deleteObject key, .ok ()⟩ ∈ call.past

theorem Moves.removed (coherent : Coherent s) (fit : SweepsFit s) (moves : Moves settings s action s')
    (stored : s.world.jobs id = some row) (gone : s'.world.jobs id = none) : RemovedBy s id row action := by
  cases moves with
  | start => rw [stored] at gone; cases gone
  | kill => rw [stored] at gone; cases gone
  | env event =>
    rw [World.rebalance_kafka, stored] at gone
    cases gone
  | @resume i choice call op r next w at_i prog executed allowed =>
    have change := coherent.consistent.rows at_i (Task.contract_writes allowed) executed id
    rw [stored, show w.jobs id = none from gone] at change
    cases change with
    | @deleted row claim candidate same kind own held token =>
      subst same
      have here := List.mem_of_getElem? at_i
      obtain ⟨claimed, deleted⟩ := (fit.sweeping call here).calls prog rfl
      obtain ⟨-, -, rows⟩ := (fit.claimed call here candidate claimed).job kind
      obtain ⟨-, named⟩ := rows row (by rw [own]; exact stored)
      refine ⟨i, choice, call, candidate, next, rfl, at_i, prog, kind, own, ?_, fun key references => ?_⟩
      · rw [World.holds, held]
        exact decide_eq_true token
      · exact deleted_past (deleted key (named key (own.symm ▸ references)))

/-- A claim of retention is final: the job is hidden and unchanged until it is
deleted, by a cleaner that has deleted its objects, and that once. -/
theorem deletion_ordered (initial : Initial first) (reached : Reaches settings first s) (id : Id) :
    (∀ row, s.world.jobs id = some row → row.claim.isSome = true → ∀ later, Reaches settings s later →
      later.world.getJob id = none ∧
      (∀ ownerId offset limit, id ∉ later.world.listIds ownerId offset limit) ∧
      ∀ row', later.world.jobs id = some row' →
        row'.claim.isSome = true ∧ row' = { row with claim := row'.claim, events := row'.events }) ∧
    (∀ row action s', s.world.jobs id = some row → (system settings).step s action = some s' →
      s'.world.jobs id = none → RemovedBy s id row action) ∧
    completions s id ≤ 1 := by
  obtain ⟨coherent, fit, once⟩ := initial.coherent.induction reached
    (J := fun s => SweepsFit s ∧ DeletedOnce s id) ⟨initial.sweepsFit, initial.deletedOnce⟩
    fun _ _ _ coherent ⟨fit, once⟩ _ moves => ⟨fit.step coherent moves, once.step coherent moves⟩
  refine ⟨fun row stored claimed later reaches => ?_, fun row action s' stored stepped gone => ?_, once.once⟩
  · have base : Frozen s id row := by
      refine ⟨coherent.consistent.stored_born stored, fun row' found => ?_⟩
      cases Option.some.inj (stored.symm.trans found)
      exact ⟨claimed, rfl⟩
    obtain ⟨-, frozen⟩ := coherent.induction reaches (J := fun s => Frozen s id row) base
      fun _ _ _ coherent frozen _ moves => frozen.step coherent moves
    obtain ⟨unread, unlisted⟩ := frozen.hidden
    exact ⟨unread, unlisted, frozen.rows⟩
  · obtain ⟨-, moves⟩ := coherent.step stepped
    exact moves.removed coherent fit stored gone

/-- A worker saves a page and dies, the job is cancelled, another delivery
finishes it; a year later a cleaner claims it and deletes the page's result. -/
def sweepSteps : List Step :=
  createSteps 0 ++ deliverSteps 1 ++ recognizeSteps 1 blankResult ++ .kill 1 :: cancelSteps 2 ++
    .start (.process 5 firstMessage) :: answered 3 [.go, .go, .go, .now, .now, .go] ++
    .start (.runBatch 10 60 (some (days 400))) :: answered 4 [{ answer := .picked [1] [] }, .go]

/-- The cleaner is about to complete the job. -/
theorem deletion_ordered_cleaned : ∃ s row s',
    (system {}).runs oneDocument sweepSteps = some s ∧ s.world.jobs 1 = some row ∧ row.claim.isSome = true ∧
    (system {}).step s (.resume 4 .go) = some s' ∧ s'.world.jobs 1 = none ∧ s.world.getJob 1 = none ∧
    RemovedBy s 1 row (.resume 4 .go) ∧ completions s' 1 ≤ 1 := by
  have played : ((system {}).runs oneDocument sweepSteps).bind (fun s => (s.world.jobs 1).bind fun row =>
      ((system {}).step s (.resume 4 .go)).map fun s' => (row.claim.isSome, (s'.world.jobs 1).isNone)) =
      some (true, true) := by decide +kernel
  obtain ⟨s, runs, rest⟩ := Option.bind_eq_some_iff.mp played
  obtain ⟨row, stored, rest⟩ := Option.bind_eq_some_iff.mp rest
  obtain ⟨s', stepped, same⟩ := Option.map_eq_some_iff.mp rest
  obtain ⟨claimed, gone⟩ := Prod.mk.inj same
  have missing := Option.isNone_iff_eq_none.mp gone
  have reached : Reaches {} oneDocument s := .of_runs runs fun _ _ _ => trivial
  obtain ⟨hidden, removed, -⟩ := deletion_ordered oneDocument_initial reached 1
  obtain ⟨-, -, once⟩ := deletion_ordered oneDocument_initial (reached.next trivial stepped) 1
  exact ⟨s, row, s', runs, stored, claimed, stepped, missing, (hidden row stored claimed s .start).1,
    removed row _ s' stored stepped missing, once⟩

end
end MonkeyOcr
