import MonkeyOcr.Lifecycle.Invariant

namespace MonkeyOcr

open Calls

namespace JobRow

variable {row row' : JobRow} {job : Job} {event : JobEvent}

@[simp] theorem append_birth : (row.append event).2.birth = row.birth := by
  rw [append_row]
  rfl

@[simp] theorem birth_toJob (id : Id) : (row.toJob id).birth = row.birth := rfl

@[simp] theorem insert_birth {days : Nat} : (insert job days).birth = job.birth := rfl

/-- A save writes the options again and leaves the rest. -/
theorem Saves.birth (saves : row.Saves job row') (options : job.options = row.options) :
    row'.birth = row.birth := by
  simp only [JobRow.birth, saves.apiKeyId, saves.uploadId, saves.options, saves.idempotencyKey, saves.createdAt,
    options]

end JobRow

/-- The versions seen are of the jobs that are stored. -/
def Memory.Births (m : Memory) (w : World) : Prop :=
  ∀ entry ∈ m.seen, ∀ row, w.jobs entry.2.id = some row → row.birth = entry.2.birth

def Births (s : State) : Prop := ∀ call ∈ s.calls, (memoryOf call).Births s.world

section

variable {settings : Settings} {s s' : State} {action : Step} {m : Memory} {w w' : World} {op : Op} {id : Id}
  {row row' : JobRow} {consumer : Nat} {choice : Choice} {r : Except Exc op.Val}

theorem RowChange.birth (births : m.Births w) (stored : w.jobs id = some row)
    (change : RowChange m w op id (some row) (some row')) : row'.birth = row.birth := by
  cases change with
  | same => rfl
  | @saved _ saved origin v job event call own member adopts edits current saves =>
    have seen : row.birth = v.birth := births _ member row (edits.id ▸ own ▸ stored)
    have same : job.birth = row.birth := edits.birth.trans seen.symm
    rw [JobRow.append_birth]
    exact saves.birth (congrArg Birth.options same)
  | reported => exact JobRow.append_birth
  | claimed => rfl
  | deferred => rfl

/-- A version that a call did not see before is of the job that is stored. -/
theorem Memory.next_births (births : m.Births w) (writes : m.writes op)
    (known : ∀ entry ∈ m.seen, w.Knows entry.2) (lost : ∀ id ∈ m.lost, w.Gone id)
    (executed : World.exec settings consumer op choice w = some (r, w')) :
    ∀ entry ∈ (m.next op r).seen,
      entry ∈ m.seen ∨ ∀ row, w'.jobs entry.2.id = some row → row.birth = entry.2.birth := by
  have derived : ∀ {job : Job} {type : EventType} {row row' : JobRow}, m.Derived type job →
      w.jobs job.id = some row → row.Saves job row' → row'.birth = job.birth := by
    intro job type row row' derived found saves
    obtain ⟨origin, v, member, adopts, edits, current⟩ := World.saved_edit known lost derived found saves
    have seen : row.birth = v.birth := births _ member row (edits.id ▸ found)
    have same : job.birth = row.birth := edits.birth.trans seen.symm
    exact (saves.birth (congrArg Birth.options same)).trans same.symm
  intro entry member
  cases op with
  | getJob site id =>
    rcases r with e | _ | job
    · exact .inl member
    · exact .inl member
    · rcases List.mem_cons.mp member with rfl | old
      · obtain ⟨rfl, read⟩ := World.exec_getJob executed
        obtain ⟨row, found, -, rfl⟩ := World.getJob_some read.symm
        refine .inr fun other stored => ?_
        cases Option.some.inj (found.symm.trans stored)
        rfl
      · exact .inl old
  | saveWithEvent job event =>
    rcases r with e | saved
    · exact .inl member
    · rcases List.mem_cons.mp member with rfl | old
      · obtain ⟨row, row', found, saves, revision, rfl⟩ := World.exec_saveWithEvent executed
        refine .inr fun other stored => ?_
        rw [World.setJob_jobs, if_pos rfl] at stored
        cases stored
        have same : row'.birth = job.birth := derived writes.1 found saves
        exact JobRow.append_birth.trans same
      · exact .inl old
  | saveWithOutboxAndEvent job outboxEvent event =>
    rcases r with e | saved
    · exact .inl member
    · rcases List.mem_cons.mp member with rfl | old
      · obtain ⟨row, row', found, saves, revision, rfl⟩ := World.exec_saveWithOutboxAndEvent executed
        refine .inr fun other stored => ?_
        change (w.setJob job.id _).jobs job.id = _ at stored
        rw [World.setJob_jobs, if_pos rfl] at stored
        cases stored
        have same : row'.birth = job.birth := derived writes.1 found saves
        exact JobRow.append_birth.trans same
      · exact .inl old
  | getMany =>
    rcases r with e | _ | record
    · exact .inl member
    · exact .inl member
    · cases member
  | _ => cases r <;> exact .inl member

theorem Initial.births (initial : Initial s) : Births s := by
  intro call member
  rw [initial.calls] at member
  cases member

theorem Births.step (coherent : Coherent s) (births : Births s) (moves : Moves settings s action s') :
    Births s' := by
  have old : ∀ call ∈ s.calls, ∀ entry ∈ (memoryOf call).seen, ∀ row',
      s'.world.jobs entry.2.id = some row' → row'.birth = entry.2.birth := by
    intro call member entry seen row' stored
    have born := coherent.consistent.seen_born member seen
    obtain ⟨row, before, change⟩ := moves.kept coherent born stored
    have same := births call member entry seen row before
    rcases change with rfl | ⟨other, memberOther, op, change⟩
    · exact same
    · exact (change.birth (births other memberOther) before).trans same
  cases moves with
  | start task =>
    intro call member
    rcases List.mem_append.mp member with before | new
    · exact old call before
    · cases List.mem_singleton.mp new
      intro entry seen
      cases task <;> cases seen
  | kill i =>
    intro call member
    rcases Machine.mem_modify_killed member with same | ⟨before, memberBefore, rfl⟩
    · exact old call same
    · exact old before memberBefore
  | env event => exact old
  | @resume i choice call op r next w at_i prog executed allowed =>
    have here := List.mem_of_getElem? at_i
    have inv := coherent.consistent
    intro other member
    rcases Machine.mem_set_answered member with before | rfl
    · exact old other before
    · intro entry seen
      rcases Memory.next_births (births call here) (Task.contract_writes allowed) (inv.known call here)
        (inv.lost call here) executed entry seen with before | new
      · exact old call here entry before
      · exact new

/-- A job is what it was created as. -/
theorem Moves.birth (coherent : Coherent s) (births : Births s) (moves : Moves settings s action s')
    (born : ¬ Unborn s id) (stored : s'.world.jobs id = some row') :
    ∃ row, s.world.jobs id = some row ∧ row'.birth = row.birth := by
  obtain ⟨row, before, change⟩ := moves.kept coherent born stored
  refine ⟨row, before, ?_⟩
  rcases change with rfl | ⟨call, member, op, change⟩
  · rfl
  · exact change.birth (births call member) before

end
end MonkeyOcr
