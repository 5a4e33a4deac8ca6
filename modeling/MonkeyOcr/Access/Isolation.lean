import MonkeyOcr.Access.Owners

namespace MonkeyOcr

open Calls

/-- The call awaits an answer. -/
def running (call : SystemCall) : Bool :=
  match call.prog with
  | .call _ _ => true
  | _ => false

section

variable {settings : Settings} {first s s' : State} {action : Step} {call : SystemCall} {op : Op} {id ownerId : Id}
  {job : Job} {upload : Upload} {row : JobRow} {i : Nat} {choice : Choice} {r : Except Exc op.Val} {w : World}
  {next : Except Exc op.Val → Program Reply}

theorem running_of (prog : call.prog = .call op next) : running call = true := by
  rw [running, prog]

/-- A job that is stored now is what it was stored as. -/
theorem JobIs.stored {row : JobRow} (consistent : Consistent s)
    (jobs : ∀ id row, s.world.jobs id = some row → UploadOf s row.uploadId row.apiKeyId)
    (stored : s.world.jobs job.id = some row) (same : row.birth = job.birth) : JobIs s job := by
  refine ⟨consistent.stored_born stored, fun other found => ?_, ?_⟩
  · cases Option.some.inj (stored.symm.trans found)
    exact same
  · have own := jobs job.id row stored
    have uploadId : row.uploadId = job.uploadId := congrArg Birth.uploadId same
    have apiKeyId : row.apiKeyId = job.ownerId := congrArg Birth.ownerId same
    rw [uploadId, apiKeyId] at own
    exact own

/-- What the world answers is how it is. -/
theorem Owners.answer (owners : Owners s) (coherent' : Coherent s') (births' : Births s') 
    (jobs' : ∀ id row, s'.world.jobs id = some row → UploadOf s' row.uploadId row.apiKeyId)
    (executed : World.exec settings i op choice s.world = some (r, s'.world))
    (answered : call.answered (S := Sig) op r next ∈ s'.calls) : Holds s' op r := by
  have listed : ∀ {id ownerId : Id}, s'.world = s.world → (∃ row, s.world.jobs id = some row ∧ row.apiKeyId = ownerId) →
      JobOf s' id ownerId := by
    intro id ownerId same ⟨row, stored, own⟩
    rw [← same] at stored
    refine ⟨coherent'.consistent.stored_born stored, fun other found => ?_⟩
    cases Option.some.inj (stored.symm.trans found)
    exact own
  cases op with
  | getUpload id =>
    rcases r with e | _ | upload
    · trivial
    · trivial
    · obtain ⟨same, read⟩ := World.exec_getUpload executed
      obtain ⟨row, found, -, rfl⟩ := World.getUpload_row read.symm
      obtain ⟨own, source⟩ := owners.uploads id row found
      have stored : s'.world.uploads row.upload.id = some row := by rw [same, own, found]
      refine ⟨own, source, coherent'.consistent.used_born stored, fun other there => ?_⟩
      cases Option.some.inj (stored.symm.trans there)
      rfl
  | getJob site id =>
    rcases r with e | _ | job
    · trivial
    · trivial
    · obtain ⟨same, read⟩ := World.exec_getJob executed
      obtain ⟨row, found, -, rfl⟩ := World.getJob_some read.symm
      rw [← same] at found
      exact ⟨rfl, JobIs.stored coherent'.consistent jobs' found rfl⟩
  | addWithOutboxAndEvent job outboxEvent event =>
    cases r with
    | error e => trivial
    | ok saved =>
      have performed := World.exec_ok executed
      rcases World.transact_cases (Option.some.inj performed) with ⟨_, done, -⟩ | ⟨e, failed, -⟩
      · obtain ⟨-, -, effect⟩ := World.addWithOutboxAndEvent_ok done
        have stored : s'.world.jobs job.id =
            some ((JobRow.insert job settings.jobRetentionDays).append event).2 := by
          rw [effect]
          exact (World.setJob_jobs _ _ _).trans (if_pos rfl)
        exact JobIs.stored coherent'.consistent jobs' stored (JobRow.append_birth.trans JobRow.insert_birth)
      · cases failed
  | saveWithEvent job event =>
    cases r with
    | error e => trivial
    | ok saved =>
      obtain ⟨row, row', found, saves, -, effect⟩ := World.exec_saveWithEvent executed
      have stored : s'.world.jobs job.id = some (row'.append event).2 := by
        rw [effect]
        exact (World.setJob_jobs _ _ _).trans (if_pos rfl)
      exact JobIs.stored coherent'.consistent jobs' stored (births' _ answered _ List.mem_cons_self _ stored)
  | saveWithOutboxAndEvent job outboxEvent event =>
    cases r with
    | error e => trivial
    | ok saved =>
      obtain ⟨row, row', found, saves, -, effect⟩ := World.exec_saveWithOutboxAndEvent executed
      have stored : s'.world.jobs job.id = some (row'.append event).2 := by
        rw [effect]
        exact (World.setJob_jobs _ _ _).trans (if_pos rfl)
      exact JobIs.stored coherent'.consistent jobs' stored (births' _ answered _ List.mem_cons_self _ stored)
  | listIds ownerId offset limit =>
    cases r with
    | error e => trivial
    | ok ids =>
      obtain ⟨read, same⟩ := Prod.mk.inj (Option.some.inj (World.exec_ok executed))
      cases read
      exact fun id member => listed same.symm (World.mem_listIds member)
  | findIdByIdempotencyKey ownerId key =>
    rcases r with e | _ | id
    · trivial
    · trivial
    · obtain ⟨read, same⟩ := Prod.mk.inj (Option.some.inj (World.exec_ok executed))
      exact listed same.symm (World.findIdByIdempotencyKey_owner (Except.ok.inj read))
  | _ => trivial

/-- What a request relies on, it gets. -/
theorem Owners.relies (owners : Owners s) (member : call ∈ s.calls)
    (executed : World.exec settings i op choice s.world = some (r, w)) :
    Past.answers ownerId call.past op r := by
  have held := owners.past call member
  cases op with
  | getUpload id =>
    rcases r with e | _ | upload
    · trivial
    · trivial
    · obtain ⟨-, read⟩ := World.exec_getUpload executed
      obtain ⟨row, found, -, rfl⟩ := World.getUpload_row read.symm
      refine ⟨(owners.uploads id row found).1, fun job has uses => ?_⟩
      have own := (has.jobIs held).upload
      exact own.row row (uses ▸ found)
  | getJob site id =>
    rcases r with e | _ | job
    · trivial
    · trivial
    · obtain ⟨-, read⟩ := World.exec_getJob executed
      obtain ⟨row, found, -, rfl⟩ := World.getJob_some read.symm
      exact ⟨rfl, fun listed => (listed.jobOf held).row row found⟩
  | _ => trivial

/-- A call that was answered keeps to its owner. -/
theorem Owners.keeps (owners : Owners s) (member : call ∈ s.calls) (prog : call.prog = .call op next)
    (executed : World.exec settings i op choice s.world = some (r, w)) :
    Accessing (call.answered (S := Sig) op r next) := by
  have own := owners.accessing call member
  rw [Accessing, Tracks, prog] at own
  obtain ⟨-, later⟩ := own
  refine later r ?_
  rw [Call.ghost_past]
  unfold Task.access
  split
  · exact owners.relies member executed
  · trivial

/-- The step lemma for the jobs: one that is inserted is of the owner of its upload. -/
theorem Owners.insert (coherent : Coherent s) (owners : Owners s) (moves : Moves settings s action s')
    (stored : s'.world.jobs id = some row) : UploadOf s' row.uploadId row.apiKeyId := by
  by_cases born : Unborn s id
  · have absent := coherent.consistent.absent id born
    cases moves with
    | start =>
      rw [absent] at stored
      cases stored
    | kill =>
      rw [absent] at stored
      cases stored
    | env =>
      rw [World.rebalance_kafka, absent] at stored
      cases stored
    | @resume i choice call op r next w at_i prog executed allowed =>
      have here := List.mem_of_getElem? at_i
      have change := coherent.consistent.rows at_i (Task.contract_writes allowed) executed id
      rw [show w.jobs id = some row from stored, absent] at change
      cases change with
      | @inserted job outboxEvent event days same own drawn new reports type there =>
        subst same
        obtain ⟨ownerId, owner⟩ := Task.contract_owner allowed rfl
        obtain ⟨jobOwner, ⟨upload, owns, -, uses⟩, -⟩ := (owners.accessing call here).requests prog owner
        have uploadOf := (owns.uploadIs (owners.past call here)).of
        rw [uses, owns.owner, ← jobOwner] at uploadOf
        rw [JobRow.append_uploadId, JobRow.append_row]
        exact uploadOf.moves (.resume at_i prog executed allowed)
  · obtain ⟨before, found, same⟩ := moves.birth coherent owners.births born stored
    have uploadId : row.uploadId = before.uploadId := congrArg Birth.uploadId same
    have apiKeyId : row.apiKeyId = before.apiKeyId := congrArg Birth.ownerId same
    rw [uploadId, apiKeyId]
    exact (owners.jobs id before found).moves moves

theorem Initial.owners (initial : Initial s) : Owners s where
  uploads id row stored :=
    ⟨(initial.world.uploads id row stored).2.1, (initial.world.uploads id row stored).2.2.1⟩
  jobs id row stored := by
    rw [initial.world.jobs] at stored
    cases stored
  past call member := by
    rw [initial.calls] at member
    cases member
  births := initial.births
  accessing call member := by
    rw [initial.calls] at member
    cases member
  told call member := by
    rw [initial.calls] at member
    cases member

/-- The calls of a state after a step: those before it, the one that was
answered, a new one, and killed ones. -/
theorem Moves.calls (moves : Moves settings s action s') {P : SystemCall → Prop} (old : ∀ call ∈ s.calls, P call)
    (begun : ∀ task, P (Call.begin (system settings) task)) (killed : ∀ call, P call → P call.killed)
    (answered : ∀ (i : Nat) (choice : Choice) (call : SystemCall) (op : Op) (r : Except Exc op.Val)
      (next : Except Exc op.Val → Program Reply), call ∈ s.calls → call.prog = .call op next →
      World.exec settings i op choice s.world = some (r, s'.world) →
      call.answered (S := Sig) op r next ∈ s'.calls → P (call.answered (S := Sig) op r next)) :
    ∀ call ∈ s'.calls, P call := by
  intro call member
  cases moves with
  | start task =>
    rcases List.mem_append.mp member with before | new
    · exact old call before
    · cases List.mem_singleton.mp new
      exact begun task
  | kill i =>
    rcases Machine.mem_modify_killed member with before | ⟨before, memberBefore, rfl⟩
    · exact old call before
    · exact killed before (old before memberBefore)
  | env event => exact old call member
  | @resume i choice moved op r next w at_i prog executed allowed =>
    rcases Machine.mem_set_answered member with before | rfl
    · exact old call before
    · exact answered i choice moved op r next (List.mem_of_getElem? at_i) prog executed member

theorem Owners.step (coherent : Coherent s) (owners : Owners s) (moves : Moves settings s action s') : Owners s' := by
  have births' := owners.births.step coherent moves
  have jobs' : ∀ id row, s'.world.jobs id = some row → UploadOf s' row.uploadId row.apiKeyId :=
    fun id row stored => owners.insert coherent moves stored
  refine ⟨fun id row' stored => ?_, jobs', ?_, births', ?_, ?_⟩
  · rcases moves.upload stored with ⟨-, own, source⟩ | ⟨row, found, ⟨state, detected, completed, same⟩, -⟩
    · exact ⟨own, source⟩
    · rw [same]
      exact owners.uploads id row found
  · have kept : ∀ call ∈ s.calls, ∀ entry ∈ call.past, Holds s' entry.1 entry.2 :=
      fun call member entry done => (owners.past call member entry done).moves coherent owners.births moves
    refine moves.calls kept (fun task entry done => by cases done) (fun call held => held) ?_
    intro i choice call op r next member prog executed there entry done
    rcases List.mem_cons.mp done with rfl | before
    · exact owners.answer (coherent.step moves.step).1 births' jobs' executed there
    · exact kept call member entry before
  · refine moves.calls owners.accessing (fun task => program_access settings task) (fun call _ => trivial) ?_
    intro i choice call op r next member prog executed there
    exact owners.keeps member prog executed
  · refine moves.calls owners.told (fun task _ _ event sent done => by cases done) (fun call held => held) ?_
    intro i choice call op r next member prog executed there ownerId owner event sent done
    have grows : ∀ {event : JobEvent}, Past.Tells call.past ownerId event →
        Past.Tells (call.answered (S := Sig) op r next).past ownerId event := by
      intro event ⟨job, sequence, events, owns, listed, within⟩
      have kept : call.past ⊆ (call.answered (S := Sig) op r next).past := fun entry old => List.mem_cons_of_mem _ old
      exact ⟨job, sequence, events, owns.mono kept, kept listed, within⟩
    rcases List.mem_cons.mp done with here | before
    · cases here
      exact grows ((owners.accessing call member).requests prog owner)
    · exact grows (owners.told call member ownerId owner event sent before)

theorem owners_reached (initial : Initial first) (run : Reaches settings first s) : Coherent s ∧ Owners s :=
  initial.coherent.induction run initial.owners fun _ _ _ coherent owners _ moves => owners.step coherent moves

end
end MonkeyOcr
