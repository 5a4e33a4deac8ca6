import MonkeyOcr.Lifecycle.UploadChange

namespace MonkeyOcr

open Calls

namespace JobRow

variable {row row' : JobRow} {v job : Job} {event : JobEvent} {origin : Option Site} {type : EventType}

theorem Follows.append (follows : row.Follows v) : (row.append event).2.Follows v :=
  follows.congr append_revision append_version

/-- A save follows every version the row before it followed. -/
theorem Follows.saved (follows : row.Follows v) (tidy : row.Tidy) (saves : row.Saves job row')
    (edit : Edit origin row.version type job.version) : row'.Follows v where
  revision := follows.revision.trans (saves.next ▸ Nat.le_succ _)
  current same := by
    have low := follows.revision
    have high := saves.next
    omega
  evolves := by
    rw [saves.version tidy edit]
    exact follows.evolves.edit edit

end JobRow

namespace World

variable {settings : Settings} {consumer : Nat} {w w' : World} {op : Op} {choice : Choice}
  {r : Except Exc op.Val} {m : Memory}

theorem getJob_some {id : Id} {job : Job} (read : w.getJob id = some job) :
    ∃ row, w.jobs id = some row ∧ row.claim = none ∧ job = row.toJob id := by
  unfold getJob at read
  split at read
  · rename_i row found
    split at read
    · cases read
    · rename_i free
      exact ⟨row, found, by simpa using free, (Option.some.inj read).symm⟩
  · cases read

theorem getJob_none {id : Id} (read : w.getJob id = none) : w.Gone id := by
  intro row found
  simp only [getJob, found] at read
  split at read
  · assumption
  · cases read

/-- What a read of a job answers, if it answers. -/
theorem exec_getJob {site : Site} {id : Id} {found : Option Job}
    (executed : exec settings consumer (.getJob site id) choice w = some (.ok found, w')) :
    w' = w ∧ found = w.getJob id := by
  rcases exec_cases executed with ⟨_, failed, -⟩ | ⟨r₀, performed, rfl | ⟨_, failed, -⟩⟩
  · cases failed
  · obtain ⟨read, same⟩ := Prod.mk.inj (Option.some.inj performed)
    exact ⟨same.symm, (Except.ok.inj read).symm⟩
  · cases failed

theorem exec_saveWithEvent {job : Job} {event : JobEvent} {saved : Nat × JobEvent}
    (executed : exec settings consumer (.saveWithEvent job event) choice w = some (.ok saved, w')) :
    ∃ row row', w.jobs job.id = some row ∧ row.Saves job row' ∧ saved.1 = row'.revision ∧
      w' = w.setJob job.id (some (row'.append event).2) := by
  rcases exec_cases executed with ⟨_, failed, -⟩ | ⟨r₀, performed, rfl | ⟨_, failed, -⟩⟩
  · cases failed
  · rcases transact_cases (Option.some.inj performed) with ⟨_, done, same⟩ | ⟨e, failed, -⟩
    · cases same
      obtain ⟨row, row', found, stored, revision, rfl⟩ := saveWithEvent_ok done
      exact ⟨row, row', found, JobRow.save_ok stored, revision, rfl⟩
    · cases failed
  · cases failed

theorem exec_saveWithOutboxAndEvent {job : Job} {outboxEvent : OutboxEvent} {event : JobEvent}
    {saved : Nat × JobEvent}
    (executed : exec settings consumer (.saveWithOutboxAndEvent job outboxEvent event) choice w =
      some (.ok saved, w')) :
    ∃ row row', w.jobs job.id = some row ∧ row.Saves job row' ∧ saved.1 = row'.revision ∧
      w' = (w.setJob job.id (some (row'.append event).2)).insertOutbox outboxEvent := by
  rcases exec_cases executed with ⟨_, failed, -⟩ | ⟨r₀, performed, rfl | ⟨_, failed, -⟩⟩
  · cases failed
  · rcases transact_cases (Option.some.inj performed) with ⟨_, done, same⟩ | ⟨e, failed, -⟩
    · cases same
      obtain ⟨row, row', found, stored, revision, rfl⟩ := saveWithOutboxAndEvent_ok done
      exact ⟨row, row', found, JobRow.save_ok stored, revision, rfl⟩
    · cases failed
  · cases failed

/-- The answer to an allowed save names the version it left. -/
theorem saved_stores {job : Job} {type : EventType} {event : JobEvent} {row row' : JobRow}
    (tidy : ∀ id row, w.jobs id = some row → row.Tidy)
    (known : ∀ entry ∈ m.seen, w.Knows entry.2) (lost : ∀ id ∈ m.lost, w.Gone id)
    (derived : m.Derived type job) (found : w.jobs job.id = some row) (saves : row.Saves job row')
    (after : w'.jobs job.id = some (row'.append event).2) :
    w'.Stores { job with revision := row'.revision } := by
  obtain ⟨origin, v, -, -, edits, current⟩ := saved_edit known lost derived found saves
  refine ⟨(row'.append event).2, after, JobRow.append_revision, ?_⟩
  rw [JobRow.append_version]
  exact saves.version (tidy _ _ found) (current ▸ edits.edit)

end World

namespace Memory

variable {settings : Settings} {consumer : Nat} {m : Memory} {w w' : World} {op : Op}
  {choice : Choice} {r : Except Exc op.Val}

/-- A version that a call did not see before is a stored one. -/
theorem next_seen (writes : m.writes op) (tidy : ∀ id row, w.jobs id = some row → row.Tidy)
    (known : ∀ entry ∈ m.seen, w.Knows entry.2) (lost : ∀ id ∈ m.lost, w.Gone id)
    (executed : World.exec settings consumer op choice w = some (r, w')) :
    ∀ entry ∈ (m.next op r).seen,
      entry ∈ m.seen ∨ w'.Stores entry.2 ∧ (w.jobs entry.2.id).isSome = true := by
  intro entry member
  cases op with
  | getJob site id =>
    rcases r with e | _ | job
    · exact .inl member
    · exact .inl member
    · rcases List.mem_cons.mp member with rfl | old
      · obtain ⟨rfl, read⟩ := World.exec_getJob executed
        obtain ⟨row, found, -, rfl⟩ := World.getJob_some read.symm
        exact .inr ⟨⟨row, found, rfl, (JobRow.version_toJob id).symm⟩,
          Option.isSome_iff_exists.mpr ⟨row, found⟩⟩
      · exact .inl old
  | saveWithEvent job event =>
    rcases r with e | saved
    · exact .inl member
    · rcases List.mem_cons.mp member with rfl | old
      · obtain ⟨row, row', found, saves, revision, rfl⟩ := World.exec_saveWithEvent executed
        refine .inr ⟨?_, Option.isSome_iff_exists.mpr ⟨row, found⟩⟩
        rw [revision]
        exact World.saved_stores tidy known lost writes.1 found saves
          ((World.setJob_jobs _ _ _).trans (if_pos rfl))
      · exact .inl old
  | saveWithOutboxAndEvent job outboxEvent event =>
    rcases r with e | saved
    · exact .inl member
    · rcases List.mem_cons.mp member with rfl | old
      · obtain ⟨row, row', found, saves, revision, rfl⟩ := World.exec_saveWithOutboxAndEvent executed
        refine .inr ⟨?_, Option.isSome_iff_exists.mpr ⟨row, found⟩⟩
        rw [revision]
        exact World.saved_stores tidy known lost writes.1 found saves
          ((World.setJob_jobs _ _ _).trans (if_pos rfl))
      · exact .inl old
  | getMany =>
    rcases r with e | _ | record
    · exact .inl member
    · exact .inl member
    · cases member
  | _ => cases r <;> exact .inl member

/-- A call sees a version at a place of a read by that read only. -/
theorem next_read {site : Site} {job : Job}
    (executed : World.exec settings consumer op choice w = some (r, w'))
    (member : (some site, job) ∈ (m.next op r).seen) :
    (some site, job) ∈ m.seen ∨ ∃ id, op = .getJob site id ∧ w.getJob id = some job := by
  cases op with
  | getJob place id =>
    rcases r with e | _ | found
    · exact .inl member
    · exact .inl member
    · rcases List.mem_cons.mp member with same | old
      · cases same
        exact .inr ⟨id, rfl, (World.exec_getJob executed).2.symm⟩
      · exact .inl old
  | saveWithEvent =>
    cases r with
    | error e => exact .inl member
    | ok saved => exact .inl ((List.mem_cons.mp member).resolve_left (by simp))
  | saveWithOutboxAndEvent =>
    cases r with
    | error e => exact .inl member
    | ok saved => exact .inl ((List.mem_cons.mp member).resolve_left (by simp))
  | getMany =>
    rcases r with e | _ | record
    · exact .inl member
    · exact .inl member
    · cases member
  | _ => cases r <;> exact .inl member

/-- An identifier that a call did not hold before was just given out. -/
theorem next_ids (executed : World.exec settings consumer op choice w = some (r, w')) :
    ∀ id ∈ (m.next op r).ids, id ∈ m.ids ∨ id = w.nextId ∧ w'.nextId = w.nextId + 1 := by
  intro id member
  cases op with
  | uuid7 =>
    rcases r with e | drawn
    · exact .inl member
    · rcases List.mem_cons.mp member with rfl | old
      · rcases World.exec_cases executed with ⟨_, failed, -⟩ | ⟨r₀, performed, rfl | ⟨_, failed, -⟩⟩
        · cases failed
        · obtain ⟨same, rfl⟩ := Prod.mk.inj (Option.some.inj performed)
          exact .inr ⟨(Except.ok.inj same).symm, rfl⟩
        · cases failed
      · exact .inl old
  | getJob site id => rcases r with e | _ | job <;> exact .inl member
  | getMany => rcases r with e | _ | record <;> exact .inl member
  | saveWithOutboxAndEvent =>
    cases r <;> exact .inl (List.mem_filter.mp member).1
  | addWithOutboxAndEvent => exact .inl (List.mem_filter.mp member).1
  | addUpload => exact .inl (List.mem_filter.mp member).1
  | _ => cases r <;> exact .inl member

/-- A job that a call lost is one it has read and no read finds. -/
theorem next_lost (executed : World.exec settings consumer op choice w = some (r, w'))
    (found : ∀ id ∈ m.lost, m.Sees id) :
    ∀ id ∈ (m.next op r).lost, (m.next op r).Sees id ∧ (id ∈ m.lost ∨ w'.Gone id) := by
  intro id member
  cases op with
  | getJob site read =>
    rcases r with e | _ | job
    · exact ⟨found id member, .inl member⟩
    · obtain ⟨rfl, none⟩ := World.exec_getJob executed
      simp only [next] at member
      split at member
      · rename_i seen
        rcases List.mem_cons.mp member with rfl | old
        · obtain ⟨entry, memberSeen, same⟩ := List.any_eq_true.mp seen
          exact ⟨⟨entry.1, entry.2, memberSeen, by simpa using same⟩, .inr (World.getJob_none none.symm)⟩
        · exact ⟨found id old, .inl old⟩
      · exact ⟨found id member, .inl member⟩
    · exact ⟨Grows.sees (.cons _) (found id member), .inl member⟩
  | saveWithEvent =>
    cases r with
    | error e => exact ⟨found id member, .inl member⟩
    | ok saved => exact ⟨Grows.sees (.cons _) (found id member), .inl member⟩
  | saveWithOutboxAndEvent =>
    cases r with
    | error e => exact ⟨found id member, .inl member⟩
    | ok saved =>
      obtain ⟨origin, job, memberSeen, same⟩ := found id member
      exact ⟨⟨origin, job, List.mem_cons_of_mem _ memberSeen, same⟩, .inl member⟩
  | getMany =>
    rcases r with e | _ | record
    · exact ⟨found id member, .inl member⟩
    · exact ⟨found id member, .inl member⟩
    · cases member
  | _ => cases r <;> exact ⟨found id member, .inl member⟩

/-- What a call puts into the outbox carries an identifier of its own. -/
theorem exec_outbox (writes : m.writes op)
    (executed : World.exec settings consumer op choice w = some (r, w')) :
    ∀ row ∈ w'.outbox, (∃ old ∈ w.outbox, old.event = row.event) ∨
      row.event.id ∈ m.ids ∧ row.event.id ∉ (m.next op r).ids := by
  intro row member
  rcases World.exec_cases executed with ⟨_, -, -, rfl⟩ | ⟨r₀, performed, -⟩
  · exact .inl ⟨row, member, rfl⟩
  by_cases quiet : Part.outbox ∉ op.writes
  · rw [(World.perform_same quiet performed : w'.outbox = w.outbox)] at member
    exact .inl ⟨row, member, rfl⟩
  cases op with
  | saveWithOutboxAndEvent job outboxEvent event =>
    rcases World.transact_cases (Option.some.inj performed) with ⟨_, done, -⟩ | ⟨e, -, rfl⟩
    · obtain ⟨_, _, _, _, _, rfl⟩ := World.saveWithOutboxAndEvent_ok done
      rcases List.mem_append.mp member with old | new
      · exact .inl ⟨row, old, rfl⟩
      · cases List.mem_singleton.mp new
        refine .inr ⟨writes.2.2.2.1, ?_⟩
        cases r <;> simp [next]
    · exact .inl ⟨row, member, rfl⟩
  | addWithOutboxAndEvent job outboxEvent event =>
    rcases World.transact_cases (Option.some.inj performed) with ⟨_, done, -⟩ | ⟨e, -, rfl⟩
    · obtain ⟨-, -, rfl⟩ := World.addWithOutboxAndEvent_ok done
      rcases List.mem_append.mp member with old | new
      · exact .inl ⟨row, old, rfl⟩
      · cases List.mem_singleton.mp new
        exact .inr ⟨writes.2.2.1.1, by simp [next]⟩
    · exact .inl ⟨row, member, rfl⟩
  | markPublished id =>
    cases performed
    obtain ⟨old, memberOld, rfl⟩ := List.mem_map.mp member
    refine .inl ⟨old, memberOld, ?_⟩
    split <;> rfl
  | complete candidate =>
    have effect : w' = (w.complete candidate).2 := (Prod.mk.inj (Option.some.inj performed)).2.symm
    rw [effect] at member
    unfold World.complete at member
    split at member
    · split at member
      · exact .inl ⟨row, (List.mem_filter.mp member).1, rfl⟩
      · exact .inl ⟨row, member, rfl⟩
    · split at member <;> exact .inl ⟨row, member, rfl⟩
  | _ => exact absurd (by simp [Op.writes]) quiet

end Memory

abbrev SystemCall := Call Sig Task Exc Reply

/-- What the call remembers of the job table. -/
def memoryOf (call : SystemCall) : Memory := call.ghost Memory.ghost Task.memory

@[simp] theorem memoryOf_begin (settings : Settings) (task : Task) :
    memoryOf (Call.begin (system settings) task) = task.memory := rfl

@[simp] theorem memoryOf_killed (call : SystemCall) : memoryOf call.killed = memoryOf call := rfl

@[simp] theorem memoryOf_answered (call : SystemCall) (op : Op) (r : Except Exc op.Val)
    (next : Except Exc op.Val → Program Reply) :
    memoryOf (call.answered (S := Sig) op r next) = (memoryOf call).next op r := rfl

/-- The read of a job that a call makes next. -/
def reading? (call : SystemCall) : Option (Site × Id) :=
  match call.prog with
  | .call (.getJob site id) _ => some (site, id)
  | _ => none

/-- The call keeps its contract from here on. -/
abbrev Tracked (call : SystemCall) : Prop :=
  Tracks Memory.ghost Task.memory Task.contract Task.Returned (fun _ _ _ => True) call

/-- The identifier names nothing yet: it was not given out, or not used. -/
def Unborn (s : State) (id : Id) : Prop :=
  s.world.nextId ≤ id ∨ ∃ call ∈ s.calls, id ∈ (memoryOf call).ids

/-- The memories of all calls fit the job table. -/
structure Consistent (s : State) : Prop where
  tidy : ∀ id row, s.world.jobs id = some row → row.Tidy
  known : ∀ call ∈ s.calls, ∀ entry ∈ (memoryOf call).seen, s.world.Knows entry.2
  lost : ∀ call ∈ s.calls, ∀ id ∈ (memoryOf call).lost, s.world.Gone id
  found : ∀ call ∈ s.calls, ∀ id ∈ (memoryOf call).lost, (memoryOf call).Sees id
  drawn : ∀ call ∈ s.calls, ∀ id ∈ (memoryOf call).ids, id < s.world.nextId
  unique : ∀ (i j : Nat) (call other : SystemCall), s.calls[i]? = some call → s.calls[j]? = some other → i ≠ j →
    ∀ id ∈ (memoryOf call).ids, id ∉ (memoryOf other).ids
  absent : ∀ id, Unborn s id → s.world.jobs id = none
  unsent : ∀ id, Unborn s id → ∀ row ∈ s.world.outbox, row.event.id ≠ id
  unseen : ∀ id, Unborn s id → ∀ call ∈ s.calls, ∀ entry ∈ (memoryOf call).seen, entry.2.id ≠ id
  unused : ∀ id, Unborn s id → s.world.uploads id = none

theorem Initial.consistent {s : State} (initial : Initial s) : Consistent s := by
  have none : ∀ call ∈ s.calls, False := by simp [initial.calls]
  refine ⟨fun id row stored => ?_, fun call member => (none call member).elim,
    fun call member => (none call member).elim, fun call member => (none call member).elim,
    fun call member => (none call member).elim, fun i j call other at_i => ?_,
    fun id _ => initial.world.jobs id, fun id _ row member => ?_, fun id _ call member =>
    (none call member).elim, fun id unborn => ?_⟩
  · rw [initial.world.jobs] at stored
    cases stored
  · exact (none call (List.mem_of_getElem? at_i)).elim
  · rw [initial.world.outbox] at member
    cases member
  · cases stored : s.world.uploads id with
    | none => rfl
    | some row =>
      have below := (initial.world.uploads id row stored).1
      rcases unborn with later | ⟨call, member, -⟩
      · exact absurd below (Nat.not_lt.mpr later)
      · exact (none call member).elim

section Resume

variable {settings : Settings} {s : State} {i : Nat} {call : SystemCall} {op : Op} {choice : Choice}
  {r : Except Exc op.Val} {w : World} {next : Except Exc op.Val → Program Reply} {id : Id}

/-- The state after the call `i` got the answer `r`. -/
abbrev resumed (s : State) (i : Nat) (call : SystemCall) (op : Op) (r : Except Exc op.Val)
    (next : Except Exc op.Val → Program Reply) (w : World) : State :=
  ⟨w, s.calls.set i (call.answered (S := Sig) op r next)⟩

theorem Consistent.rows (inv : Consistent s) (at_i : s.calls[i]? = some call)
    (writes : (memoryOf call).writes op)
    (executed : World.exec settings i op choice s.world = some (r, w)) (id : Id) :
    RowChange (memoryOf call) s.world op id (s.world.jobs id) (w.jobs id) :=
  World.exec_rows writes (inv.known call (List.mem_of_getElem? at_i))
    (inv.lost call (List.mem_of_getElem? at_i)) executed id

/-- What names something keeps naming it. -/
theorem Unborn.resumed (at_i : s.calls[i]? = some call)
    (executed : World.exec settings i op choice s.world = some (r, w))
    (unborn : Unborn (resumed s i call op r next w) id) : Unborn s id := by
  rcases unborn with later | ⟨other, member, holds⟩
  · exact .inl ((World.exec_nextId executed).trans later)
  · rcases Machine.mem_set_answered member with old | rfl
    · exact .inr ⟨other, old, holds⟩
    · rcases Memory.next_ids executed id holds with old | ⟨rfl, -⟩
      · exact .inr ⟨call, List.mem_of_getElem? at_i, old⟩
      · exact .inl le_rfl

/-- An identifier that the call has used up names something. -/
theorem Consistent.born (inv : Consistent s) (at_i : s.calls[i]? = some call)
    (executed : World.exec settings i op choice s.world = some (r, w))
    (held : id ∈ (memoryOf call).ids) (used : id ∉ ((memoryOf call).next op r).ids) :
    ¬ Unborn (resumed s i call op r next w) id := by
  have low := inv.drawn call (List.mem_of_getElem? at_i) id held
  rintro (later | ⟨other, member, holds⟩)
  · exact absurd (low.trans_le (World.exec_nextId executed)) (Nat.not_lt.mpr later)
  · obtain ⟨j, at_j⟩ := List.mem_iff_getElem?.mp member
    rw [List.getElem?_set] at at_j
    split at at_j
    · split at at_j
      · cases at_j
        exact used holds
      · cases at_j
    · rename_i different
      exact inv.unique i j call other at_i at_j different id held holds

theorem Consistent.inserts (inv : Consistent s) (at_i : s.calls[i]? = some call)
    (executed : World.exec settings i op choice s.world = some (r, w))
    (change : RowChange (memoryOf call) s.world op id (s.world.jobs id) (w.jobs id))
    (unborn : Unborn (resumed s i call op r next w) id) : w.jobs id = none := by
  have absent := inv.absent id (unborn.resumed at_i executed)
  rw [absent] at change
  generalize w.jobs id = after at change
  cases change with
  | same => rfl
  | inserted same own drawn =>
    subst same
    refine absurd unborn (inv.born at_i executed drawn ?_)
    simp [Memory.next, own]

/-- An upload is added under an identifier that is used up by that. -/
theorem Consistent.adds (inv : Consistent s) (at_i : s.calls[i]? = some call) (writes : (memoryOf call).writes op)
    (executed : World.exec settings i op choice s.world = some (r, w))
    (unborn : Unborn (resumed s i call op r next w) id) : w.uploads id = none := by
  have absent := inv.unused id (unborn.resumed at_i executed)
  have change := World.exec_uploads writes executed id
  rw [absent] at change
  generalize w.uploads id = after at change
  cases change with
  | same => rfl
  | added same own drawn =>
    subst same
    refine absurd unborn (inv.born at_i executed drawn ?_)
    simp [Memory.next, own]

/-- The row of a job that some call has seen was there before. -/
theorem Consistent.before (inv : Consistent s) (at_i : s.calls[i]? = some call)
    (writes : (memoryOf call).writes op)
    (executed : World.exec settings i op choice s.world = some (r, w))
    {other : SystemCall} (member : other ∈ s.calls) {entry : Option Site × Job}
    (seen : entry ∈ (memoryOf other).seen) {row' : JobRow} (stored : w.jobs entry.2.id = some row') :
    ∃ row, s.world.jobs entry.2.id = some row ∧
      RowChange (memoryOf call) s.world op entry.2.id (some row) (some row') := by
  have change := inv.rows at_i writes executed entry.2.id
  rw [stored] at change
  cases before : s.world.jobs entry.2.id with
  | some row => exact ⟨row, rfl, before ▸ change⟩
  | none =>
    rw [before] at change
    cases change with
    | inserted _ _ drawn =>
      exact absurd rfl (inv.unseen _ (.inr ⟨call, List.mem_of_getElem? at_i, drawn⟩) other member entry seen)

theorem Consistent.knows (inv : Consistent s) (at_i : s.calls[i]? = some call)
    (writes : (memoryOf call).writes op)
    (executed : World.exec settings i op choice s.world = some (r, w))
    {other : SystemCall} (member : other ∈ s.calls) :
    ∀ entry ∈ (memoryOf other).seen, w.Knows entry.2 := by
  intro entry seen row' stored
  obtain ⟨row, before, change⟩ := inv.before at_i writes executed member seen stored
  have follows := inv.known other member entry seen row before
  cases change with
  | same => exact follows
  | saved same own memberSeen adopts edits current saves =>
    exact (follows.saved (inv.tidy _ _ before) saves (current ▸ edits.edit)).append
  | reported => exact follows.append
  | claimed => exact follows.congr rfl rfl
  | deferred => exact follows.congr rfl rfl

theorem Consistent.gone (inv : Consistent s) (at_i : s.calls[i]? = some call)
    (writes : (memoryOf call).writes op)
    (executed : World.exec settings i op choice s.world = some (r, w))
    {other : SystemCall} (member : other ∈ s.calls) :
    ∀ id ∈ (memoryOf other).lost, w.Gone id := by
  intro id lost row' stored
  have gone := inv.lost other member id lost
  obtain ⟨origin, job, seen, same⟩ := inv.found other member id lost
  have change := inv.rows at_i writes executed id
  unfold World.Gone at gone
  generalize s.world.jobs id = row at change gone
  rw [stored] at change
  cases change with
  | same => exact gone row' rfl
  | inserted _ own drawn =>
    exact absurd same (inv.unseen _ (.inr ⟨call, List.mem_of_getElem? at_i, drawn⟩) other member _ seen)
  | saved _ _ _ _ _ _ saves =>
    have claimed := gone _ rfl
    rw [saves.unclaimed] at claimed
    cases claimed
  | reported => rw [JobRow.append_claim]; exact gone _ rfl
  | claimed => rfl
  | deferred => rfl

theorem Consistent.tidied (inv : Consistent s)
    (change : RowChange (memoryOf call) s.world op id (s.world.jobs id) (w.jobs id)) :
    ∀ row, w.jobs id = some row → row.Tidy := by
  intro row' stored
  have tidy := inv.tidy id
  generalize s.world.jobs id = row at change tidy
  rw [stored] at change
  cases change with
  | same => exact tidy row' rfl
  | inserted => exact JobRow.insert_tidy.append
  | saved _ _ _ _ edits current saves =>
    exact (saves.tidy (tidy _ rfl) (current ▸ edits.edit)).append
  | reported => exact (tidy _ rfl).append
  | claimed => exact (tidy _ rfl).congr rfl rfl rfl rfl
  | deferred => exact (tidy _ rfl).congr rfl rfl rfl rfl

/-- The step lemma: one operation of one call. -/
theorem Consistent.resume (inv : Consistent s) (at_i : s.calls[i]? = some call)
    (writes : (memoryOf call).writes op)
    (executed : World.exec settings i op choice s.world = some (r, w)) :
    Consistent (resumed s i call op r next w) := by
  have here := List.mem_of_getElem? at_i
  have moved : ∀ other ∈ (resumed s i call op r next w).calls,
      other ∈ s.calls ∨ memoryOf other = (memoryOf call).next op r := by
    intro other member
    rcases Machine.mem_set_answered member with old | rfl
    · exact .inl old
    · exact .inr rfl
  have lost := Memory.next_lost executed (inv.found call here)
  have seen := Memory.next_seen writes inv.tidy (inv.known call here) (inv.lost call here) executed
  refine ⟨fun id => inv.tidied (inv.rows at_i writes executed id), fun other member => ?_,
    fun other member => ?_, fun other member => ?_, fun other member => ?_, ?_, ?_, ?_, ?_,
    fun id unborn => inv.adds at_i writes executed unborn⟩
  · rcases moved other member with old | same
    · exact inv.knows at_i writes executed old
    · rw [same]
      intro entry memberSeen
      rcases seen entry memberSeen with old | ⟨stores, -⟩
      · exact inv.knows at_i writes executed here entry old
      · exact stores.knows
  · rcases moved other member with old | same
    · exact inv.gone at_i writes executed old
    · rw [same]
      intro id memberLost
      rcases (lost id memberLost).2 with old | gone
      · exact inv.gone at_i writes executed here id old
      · exact gone
  · rcases moved other member with old | same
    · exact inv.found other old
    · rw [same]
      exact fun id memberLost => (lost id memberLost).1
  · have grows := World.exec_nextId executed
    rcases moved other member with old | same
    · exact fun id holds => (inv.drawn other old id holds).trans_le grows
    · rw [same]
      intro id holds
      rcases Memory.next_ids executed id holds with old | ⟨rfl, more⟩
      · exact (inv.drawn call here id old).trans_le grows
      · exact (Nat.lt_succ_self _).trans_le more.ge
  · intro j k a b at_j at_k different id holdsA holdsB
    have split : ∀ {l c}, (s.calls.set i (call.answered (S := Sig) op r next))[l]? = some c →
        id ∈ (memoryOf c).ids → s.calls[l]? = some c ∨
          l = i ∧ (id ∈ (memoryOf call).ids ∨ s.world.nextId ≤ id) := by
      intro l c at_l holds
      rw [List.getElem?_set] at at_l
      split at at_l
      · rename_i same
        split at at_l
        · cases at_l
          refine .inr ⟨same.symm, (Memory.next_ids executed id holds).imp_right fun fresh => fresh.1.ge⟩
        · cases at_l
      · exact .inl at_l
    have low : ∀ {l c}, s.calls[l]? = some c → id ∈ (memoryOf c).ids → ¬ s.world.nextId ≤ id :=
      fun at_l holds => Nat.not_le.mpr (inv.drawn _ (List.mem_of_getElem? at_l) id holds)
    rcases split at_j holdsA with oldA | ⟨rfl, heldA | freshA⟩
    · rcases split at_k holdsB with oldB | ⟨rfl, heldB | freshB⟩
      · exact inv.unique j k a b oldA oldB different id holdsA holdsB
      · exact inv.unique j k a call oldA at_i different id holdsA heldB
      · exact low oldA holdsA freshB
    · rcases split at_k holdsB with oldB | ⟨same, -⟩
      · exact inv.unique j k call b at_i oldB different id heldA holdsB
      · exact different same.symm
    · rcases split at_k holdsB with oldB | ⟨same, -⟩
      · exact low oldB holdsB freshA
      · exact different same.symm
  · exact fun id unborn => inv.inserts at_i executed (inv.rows at_i writes executed id) unborn
  · intro id unborn row member same
    rcases Memory.exec_outbox writes executed row member with ⟨old, memberOld, event⟩ | ⟨held, used⟩
    · exact inv.unsent id (unborn.resumed at_i executed) old memberOld (event ▸ same)
    · exact inv.born at_i executed held used (same ▸ unborn)
  · intro id unborn other member entry memberSeen same
    have before := unborn.resumed at_i executed
    rcases moved other member with old | eq
    · exact inv.unseen id before other old entry memberSeen same
    · rw [eq] at memberSeen
      rcases seen entry memberSeen with old | ⟨-, stored⟩
      · exact inv.unseen id before call here entry old same
      · rw [same, inv.absent id before] at stored
        cases stored

end Resume

/-! ### Runs -/

section Runs

variable {settings : Settings} {ok : State → Step → Prop} {first s s' : State} {action : Step}

theorem exec_answer {consumer : Nat} {op : Op} {choice : Choice} {w w' : World} {r : Except Exc op.Val}
    (executed : World.exec settings consumer op choice w = some (r, w')) : Memory.answer op r := by
  cases op with
  | getJob site id =>
    rcases r with e | _ | job
    · trivial
    · trivial
    · obtain ⟨-, read⟩ := World.exec_getJob executed
      obtain ⟨row, -, -, rfl⟩ := World.getJob_some read.symm
      rfl
  | prepare upload job =>
    rcases r with e | pages
    · trivial
    · rcases World.exec_cases executed with ⟨_, failed, -⟩ | ⟨r₀, performed, rfl | ⟨_, failed, -⟩⟩
      · cases failed
      · generalize choice.answer = answer at performed
        cases answer with
        | prepared written result =>
          simp only [World.perform] at performed
          split at performed
          · rename_i fits
            cases performed
            simp only [World.preparedBy, decide_eq_true_eq] at fits
            exact fits.1
          · cases performed
        | _ => cases performed
      · cases failed
  | _ => trivial

theorem Unborn.begin {task : Task} {id : Id}
    (unborn : Unborn { s with calls := s.calls ++ [Call.begin (system settings) task] } id) :
    Unborn s id := by
  rcases unborn with later | ⟨call, member, holds⟩
  · exact .inl later
  · rcases List.mem_append.mp member with before | new
    · exact .inr ⟨call, before, holds⟩
    · cases List.mem_singleton.mp new
      cases task <;> cases holds

theorem Unborn.kill {i : Nat} {id : Id}
    (unborn : Unborn { s with calls := s.calls.modify i Call.killed } id) : Unborn s id := by
  rcases unborn with later | ⟨call, member, holds⟩
  · exact .inl later
  · rcases Machine.mem_modify_killed member with same | ⟨before, memberBefore, rfl⟩
    · exact .inr ⟨call, same, holds⟩
    · exact .inr ⟨before, memberBefore, holds⟩

theorem Consistent.begin (inv : Consistent s) (task : Task) :
    Consistent { s with calls := s.calls ++ [Call.begin (system settings) task] } := by
  have blank : task.memory.seen = [] ∧ task.memory.lost = [] ∧ task.memory.ids = [] := by
    cases task <;> exact ⟨rfl, rfl, rfl⟩
  have old : ∀ call ∈ s.calls ++ [Call.begin (system settings) task],
      call ∈ s.calls ∨ (memoryOf call).seen = [] ∧ (memoryOf call).lost = [] ∧ (memoryOf call).ids = [] := by
    intro call member
    rcases List.mem_append.mp member with before | new
    · exact .inl before
    · cases List.mem_singleton.mp new
      exact .inr blank
  refine ⟨inv.tidy, fun call member => ?_, fun call member => ?_, fun call member => ?_,
    fun call member => ?_, fun i j call other at_i at_j different id holds => ?_,
    fun id h => inv.absent id h.begin, fun id h => inv.unsent id h.begin,
    fun id h call member => ?_, fun id h => inv.unused id h.begin⟩
  · rcases old call member with before | ⟨none, -, -⟩
    · exact inv.known call before
    · simp [none]
  · rcases old call member with before | ⟨-, none, -⟩
    · exact inv.lost call before
    · simp [none]
  · rcases old call member with before | ⟨-, none, -⟩
    · exact inv.found call before
    · simp [none]
  · rcases old call member with before | ⟨-, -, none⟩
    · exact inv.drawn call before
    · simp [none]
  · have held : ∀ {l : Nat} {c : SystemCall}, (s.calls ++ [Call.begin (system settings) task])[l]? = some c →
        id ∈ (memoryOf c).ids → s.calls[l]? = some c := by
      intro l c at_l holds
      rcases Nat.lt_or_ge l s.calls.length with inside | outside
      · rwa [List.getElem?_append_left inside] at at_l
      · rw [List.getElem?_append_right outside] at at_l
        cases List.mem_singleton.mp (List.mem_of_getElem? at_l)
        rw [memoryOf_begin, blank.2.2] at holds
        cases holds
    intro also
    exact inv.unique i j call other (held at_i holds) (held at_j also) different id holds also
  · rcases old call member with before | ⟨none, -, -⟩
    · exact inv.unseen id h.begin call before
    · simp [none]

theorem Consistent.kill (inv : Consistent s) (i : Nat) :
    Consistent { s with calls := s.calls.modify i Call.killed } := by
  have old : ∀ call ∈ s.calls.modify i Call.killed, ∃ before ∈ s.calls, memoryOf call = memoryOf before := by
    intro call member
    rcases Machine.mem_modify_killed member with same | ⟨before, memberBefore, rfl⟩
    · exact ⟨call, same, rfl⟩
    · exact ⟨before, memberBefore, rfl⟩
  refine ⟨inv.tidy, fun call member => ?_, fun call member => ?_, fun call member => ?_,
    fun call member => ?_, fun j k call other at_j at_k different id holds => ?_,
    fun id h => inv.absent id h.kill, fun id h => inv.unsent id h.kill,
    fun id h call member => ?_, fun id h => inv.unused id h.kill⟩
  · obtain ⟨before, memberBefore, same⟩ := old call member
    exact same ▸ inv.known before memberBefore
  · obtain ⟨before, memberBefore, same⟩ := old call member
    exact same ▸ inv.lost before memberBefore
  · obtain ⟨before, memberBefore, same⟩ := old call member
    exact same ▸ inv.found before memberBefore
  · obtain ⟨before, memberBefore, same⟩ := old call member
    exact same ▸ inv.drawn before memberBefore
  · have held : ∀ {l : Nat} {c : SystemCall}, (s.calls.modify i Call.killed)[l]? = some c →
        ∃ before, s.calls[l]? = some before ∧ memoryOf c = memoryOf before := by
      intro l c at_l
      rw [List.getElem?_modify] at at_l
      obtain ⟨before, at_before, rfl⟩ := Option.map_eq_some_iff.mp at_l
      refine ⟨before, at_before, ?_⟩
      split <;> rfl
    obtain ⟨a, at_a, sameA⟩ := held at_j
    obtain ⟨b, at_b, sameB⟩ := held at_k
    rw [sameA] at holds
    rw [sameB]
    exact inv.unique j k a b at_a at_b different id holds
  · obtain ⟨before, memberBefore, same⟩ := old call member
    exact same ▸ inv.unseen id h.kill before memberBefore

theorem World.rebalance_kafka (w : World) (event : Rebalance) :
    w.rebalance event = { w with kafka := (w.rebalance event).kafka } := by cases event <;> rfl

theorem Consistent.env (inv : Consistent s) (event : Rebalance) :
    Consistent { s with world := s.world.rebalance event } := by
  rw [World.rebalance_kafka]
  exact ⟨inv.tidy, inv.known, inv.lost, inv.found, inv.drawn, inv.unique, inv.absent, inv.unsent, inv.unseen,
    inv.unused⟩

theorem consistent_sound (settings : Settings) (ok : State → Step → Prop) :
    Sound (system settings) ok Memory.ghost Task.memory Task.contract Task.Returned (fun _ _ _ => True)
      Consistent where
  program := program_meets settings
  start _ task inv _ := inv.begin task
  resume s i choice call op next r w inv _ _ at_i _ executed allowed := by
    refine ⟨inv.resume at_i (Task.contract_writes allowed) executed, ?_⟩
    have answer := exec_answer executed
    cases call.task <;> exact answer
  kill _ i inv _ := inv.kill i
  env s event w inv _ moved := by
    cases moved
    exact inv.env event

/-- All that one step of the system does. -/
inductive Moves (settings : Settings) (s : State) : Step → State → Prop
  | start (task : Task) :
      Moves settings s (.start task) { s with calls := s.calls ++ [Call.begin (system settings) task] }
  | resume {i choice call op r next w} (at_i : s.calls[i]? = some call) (prog : call.prog = .call op next)
      (executed : World.exec settings i op choice s.world = some (r, w))
      (allowed : call.task.contract.allow (memoryOf call) op) :
      Moves settings s (.resume i choice) (resumed s i call op r next w)
  | kill (i : Nat) : Moves settings s (.kill i) { s with calls := s.calls.modify i Call.killed }
  | env (event : Rebalance) : Moves settings s (.env event) { s with world := s.world.rebalance event }

theorem Moves.step (moves : Moves settings s action s') : (system settings).step s action = some s' := by
  cases moves with
  | start => rfl
  | kill => rfl
  | env => rfl
  | @resume i choice call op r next w at_i prog executed =>
    have performed : (system settings).exec i op choice s.world = some (r, w) := executed
    simp only [Machine.step, at_i, prog, performed]

/-- A state in which every call fits the job table and keeps its contract. -/
structure Coherent (s : State) : Prop where
  consistent : Consistent s
  tracked : ∀ call ∈ s.calls, Tracked call

theorem Initial.coherent (initial : Initial first) : Coherent first :=
  ⟨initial.consistent, by simp [initial.calls]⟩

theorem Coherent.step (coherent : Coherent s) (step : (system settings).step s action = some s') :
    Coherent s' ∧ Moves settings s action s' := by
  obtain ⟨consistent, tracked⟩ :=
    (consistent_sound settings fun _ _ => True).step coherent.consistent coherent.tracked trivial step
  refine ⟨⟨consistent, tracked⟩, ?_⟩
  cases action with
  | start task => cases Option.some.inj step; exact .start task
  | resume i choice =>
    obtain ⟨call, op, next, r, w, at_i, prog, executed, rfl⟩ := Machine.step_resume step
    have own := coherent.tracked call (List.mem_of_getElem? at_i)
    rw [Tracked, Tracks, prog, Prog.meets_call] at own
    exact .resume at_i prog executed own.1
  | kill i => cases Option.some.inj step; exact .kill i
  | env event =>
    obtain ⟨w, moved, rfl⟩ := Machine.step_env step
    cases moved
    exact .env event

/-- The induction on runs: what single steps preserve holds in every state
reached. -/
theorem Coherent.induction {J : State → Prop} (coherent : Coherent first)
    (run : (system settings).Run ok first s) (base : J first)
    (step : ∀ s action s', Coherent s → J s → ok s action → Moves settings s action s' → J s') :
    Coherent s ∧ J s := by
  induction run with
  | start => exact ⟨coherent, base⟩
  | next _ permitted moved ih =>
    obtain ⟨later, moves⟩ := ih.1.step moved
    exact ⟨later, step _ _ _ ih.1 ih.2 permitted moves⟩

theorem Coherent.run (coherent : Coherent first) (run : (system settings).Run ok first s) : Coherent s :=
  (coherent.induction (J := fun _ => True) run trivial fun _ _ _ _ _ _ _ => trivial).1

/-- What a step does to the row of a job, a call of the state before does. -/
theorem Moves.row (coherent : Coherent s) (moves : Moves settings s action s') (id : Id) :
    s'.world.jobs id = s.world.jobs id ∨ ∃ (i : Nat) (choice : Choice) (call : SystemCall) (op : Op),
      action = .resume i choice ∧ s.calls[i]? = some call ∧
      call.task.contract.allow (memoryOf call) op ∧
      RowChange (memoryOf call) s.world op id (s.world.jobs id) (s'.world.jobs id) := by
  cases moves with
  | start => exact .inl rfl
  | kill => exact .inl rfl
  | env event => exact .inl (by rw [World.rebalance_kafka])
  | resume at_i prog executed allowed =>
    have writes := Task.contract_writes allowed
    exact .inr ⟨_, _, _, _, rfl, at_i, allowed, coherent.consistent.rows at_i writes executed id⟩

/-- What a call has seen after a step, some call saw before, or it is the
version stored now. -/
theorem Moves.seen (coherent : Coherent s) (moves : Moves settings s action s') {call' : SystemCall}
    (member : call' ∈ s'.calls) {entry : Option Site × Job} (seen : entry ∈ (memoryOf call').seen) :
    (∃ call ∈ s.calls, entry ∈ (memoryOf call).seen) ∨ s'.world.Stores entry.2 := by
  cases moves with
  | start task =>
    rcases List.mem_append.mp member with old | new
    · exact .inl ⟨call', old, seen⟩
    · cases List.mem_singleton.mp new
      cases task <;> cases seen
  | kill =>
    rcases Machine.mem_modify_killed member with same | ⟨before, memberBefore, rfl⟩
    · exact .inl ⟨call', same, seen⟩
    · exact .inl ⟨before, memberBefore, seen⟩
  | env => exact .inl ⟨call', member, seen⟩
  | @resume i choice call op r next w at_i prog executed allowed =>
    rcases Machine.mem_set_answered member with old | rfl
    · exact .inl ⟨call', old, seen⟩
    · have here := List.mem_of_getElem? at_i
      have inv := coherent.consistent
      rcases Memory.next_seen (Task.contract_writes allowed) inv.tidy (inv.known call here)
        (inv.lost call here) executed entry seen with old | ⟨stores, -⟩
      · exact .inl ⟨call, here, old⟩
      · exact .inr stores

/-- What a call has read after a step, some call had read before, or the step
is the read. -/
theorem Moves.read (moves : Moves settings s action s') {call' : SystemCall} (member : call' ∈ s'.calls)
    {site : Site} {job : Job} (seen : (some site, job) ∈ (memoryOf call').seen) :
    (∃ call ∈ s.calls, (some site, job) ∈ (memoryOf call).seen) ∨
      ∃ (i : Nat) (choice : Choice) (call : SystemCall) (id : Id), action = .resume i choice ∧
        s.calls[i]? = some call ∧ reading? call = some (site, id) ∧ s.world.getJob id = some job := by
  cases moves with
  | start task =>
    rcases List.mem_append.mp member with old | new
    · exact .inl ⟨call', old, seen⟩
    · cases List.mem_singleton.mp new
      cases task <;> cases seen
  | kill =>
    rcases Machine.mem_modify_killed member with same | ⟨before, memberBefore, rfl⟩
    · exact .inl ⟨call', same, seen⟩
    · exact .inl ⟨before, memberBefore, seen⟩
  | env => exact .inl ⟨call', member, seen⟩
  | @resume i choice call op r next w at_i prog executed allowed =>
    rcases Machine.mem_set_answered member with old | rfl
    · exact .inl ⟨call', old, seen⟩
    · rcases Memory.next_read executed seen with old | ⟨id, rfl, read⟩
      · exact .inl ⟨call, List.mem_of_getElem? at_i, old⟩
      · exact .inr ⟨i, choice, call, id, rfl, at_i, by rw [reading?, prog], read⟩

/-- What names something keeps naming it. -/
theorem Moves.born (moves : Moves settings s action s') {id : Id} (born : ¬ Unborn s id) :
    ¬ Unborn s' id := by
  refine fun unborn => born ?_
  cases moves with
  | start task => exact unborn.begin
  | kill i => exact unborn.kill
  | env event =>
    rw [World.rebalance_kafka] at unborn
    exact unborn
  | resume at_i prog executed allowed => exact unborn.resumed at_i executed

/-- A row that is there after a step was there before, if its identifier was
in use, and at most one call has changed it. -/
theorem Moves.kept (coherent : Coherent s) (moves : Moves settings s action s') {id : Id}
    (born : ¬ Unborn s id) {row' : JobRow} (stored : s'.world.jobs id = some row') :
    ∃ row, s.world.jobs id = some row ∧ (row' = row ∨ ∃ call ∈ s.calls, ∃ op,
      RowChange (memoryOf call) s.world op id (some row) (some row')) := by
  rcases moves.row coherent id with same | ⟨i, choice, call, op, -, at_i, -, change⟩
  · exact ⟨row', same ▸ stored, .inl rfl⟩
  · have here := List.mem_of_getElem? at_i
    rw [stored] at change
    cases before : s.world.jobs id with
    | some row => exact ⟨row, rfl, .inr ⟨call, here, op, before ▸ change⟩⟩
    | none =>
      rw [before] at change
      cases change with
      | inserted _ _ drawn => exact absurd (.inr ⟨call, here, drawn⟩) born

theorem Consistent.seen_born (inv : Consistent s) {call : SystemCall} (member : call ∈ s.calls)
    {entry : Option Site × Job} (seen : entry ∈ (memoryOf call).seen) : ¬ Unborn s entry.2.id :=
  fun unborn => inv.unseen _ unborn call member entry seen rfl

theorem Consistent.used_born (inv : Consistent s) {id : Id} {row : UploadRow}
    (stored : s.world.uploads id = some row) : ¬ Unborn s id := by
  intro unborn
  rw [inv.unused id unborn] at stored
  cases stored

theorem Consistent.stored_born (inv : Consistent s) {id : Id} {row : JobRow}
    (stored : s.world.jobs id = some row) : ¬ Unborn s id := by
  intro unborn
  rw [inv.absent id unborn] at stored
  cases stored

end Runs
end MonkeyOcr
