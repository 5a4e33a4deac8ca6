import MonkeyOcr.Access.Isolation

namespace MonkeyOcr

open Calls

/-- The row of the outbox is about a job of the owner. -/
def World.ofOwner (w : World) (ownerId : Id) (row : OutboxRow) : Bool :=
  (w.jobs row.event.aggregateId).any fun job => job.apiKeyId = ownerId

/-- The owner has the same uploads, jobs (with their pages, artifacts and
events) and outbox rows in both worlds. -/
structure SameFor (ownerId : Id) (w w' : World) : Prop where
  uploads : ∀ id row, row.upload.ownerId = ownerId → (w'.uploads id = some row ↔ w.uploads id = some row)
  jobs : ∀ id row, row.apiKeyId = ownerId → (w'.jobs id = some row ↔ w.jobs id = some row)
  outbox : w'.outbox.filter (w'.ofOwner ownerId) = w.outbox.filter (w.ofOwner ownerId)

/-- One row of a table was written, which is and was the owner's. -/
def WritesOwn {α : Type} (owner : α → Id) (ownerId : Id) (table table' : Id → Option α) : Prop :=
  table' = table ∨ ∃ id after, table' = Function.update table id (some after) ∧ owner after = ownerId ∧
    ∀ row, table id = some row → owner row = ownerId

/-- All that a request does to the tables. -/
structure Effect (ownerId : Id) (w w' : World) : Prop where
  uploads : WritesOwn (fun row => row.upload.ownerId) ownerId w.uploads w'.uploads
  jobs : WritesOwn JobRow.apiKeyId ownerId w.jobs w'.jobs
  outbox : w'.outbox = w.outbox ∨ ∃ (event : OutboxEvent) (job : JobRow), w'.outbox = w.outbox ++ [{ event := event }] ∧
    w'.jobs event.aggregateId = some job ∧ job.apiKeyId = ownerId

section

variable {settings : Settings} {first s s' : State} {action : Step} {call : SystemCall} {op : Op}
  {id ownerId other : Id} {job : Job} {upload : Upload} {i : Nat} {choice : Choice} {r : Except Exc op.Val}
  {w w' : World} {past : Past}

theorem WritesOwn.same {α : Type} {owner : α → Id} {table table' : Id → Option α} {row : α}
    (writes : WritesOwn owner ownerId table table') (different : ownerId ≠ other) (own : owner row = other) :
    table' id = some row ↔ table id = some row := by
  rcases writes with rfl | ⟨at_id, after, rfl, later, before⟩
  · rfl
  · by_cases here : id = at_id
    · subst here
      rw [Function.update_self]
      constructor
      · intro same
        cases same
        exact absurd (later.symm.trans own) different
      · intro stored
        exact absurd ((before row stored).symm.trans own) different
    · rw [Function.update_of_ne here]

theorem Effect.sameFor (effect : Effect ownerId w w') (different : ownerId ≠ other) : SameFor other w w' := by
  have jobs : ∀ id row, row.apiKeyId = other → (w'.jobs id = some row ↔ w.jobs id = some row) :=
    fun id row own => effect.jobs.same different own
  have about : ∀ row, w'.ofOwner other row = w.ofOwner other row := by
    intro row
    rw [Bool.eq_iff_iff, World.ofOwner, World.ofOwner, Option.any_eq_true, Option.any_eq_true]
    simp only [decide_eq_true_eq]
    constructor
    · intro ⟨job, stored, own⟩
      exact ⟨job, (jobs _ job own).mp stored, own⟩
    · intro ⟨job, stored, own⟩
      exact ⟨job, (jobs _ job own).mpr stored, own⟩
  refine ⟨fun id row own => effect.uploads.same different own, jobs, ?_⟩
  rw [List.filter_congr fun row _ => about row]
  rcases effect.outbox with same | ⟨event, job, added, stored, own⟩
  · rw [same]
  · have foreign : w.ofOwner other { event } = false := by
      rw [← about, World.ofOwner, stored]
      exact decide_eq_false fun same => different (own.symm.trans same)
    rw [added, List.filter_append, List.filter_singleton, foreign]
    exact List.append_nil _

theorem SameFor.refl : SameFor ownerId w w := ⟨fun _ _ _ => Iff.rfl, fun _ _ _ => Iff.rfl, rfl⟩

theorem SameFor.trans {w'' : World} (before : SameFor ownerId w w') (later : SameFor ownerId w' w'') :
    SameFor ownerId w w'' where
  uploads id row own := (later.uploads id row own).trans (before.uploads id row own)
  jobs id row own := (later.jobs id row own).trans (before.jobs id row own)
  outbox := later.outbox.trans before.outbox

theorem Effect.none (uploads : w'.uploads = w.uploads) (jobs : w'.jobs = w.jobs) (outbox : w'.outbox = w.outbox) :
    Effect ownerId w w' := ⟨.inl uploads, .inl jobs, .inl outbox⟩

theorem Effect.quiet (executed : World.exec settings i op choice w = some (r, w')) (uploads : Part.uploads ∉ op.writes)
    (jobs : Part.jobs ∉ op.writes) (outbox : Part.outbox ∉ op.writes) : Effect ownerId w w' :=
  .none (World.exec_same uploads executed) (World.exec_same jobs executed) (World.exec_same outbox executed)

/-- A save of a job of the owner. -/
theorem Past.Edits.saves (held : ∀ entry ∈ past, Holds s entry.1 entry.2) (edits : past.Edits ownerId job)
    {row row' : JobRow} {days : Nat} (event : JobEvent) (found : s.world.jobs job.id = some row)
    (stored : row.save job days = .ok row') :
    row.apiKeyId = ownerId ∧ (row'.append event).2.apiKeyId = ownerId := by
  obtain ⟨v, owns, same, -⟩ := edits
  have own : row.apiKeyId = v.ownerId := (owns.has.jobIs held).of.row row (same ▸ found)
  refine ⟨own.trans owns.owner, ?_⟩
  rw [JobRow.append_row]
  exact (JobRow.save_ok stored).apiKeyId.trans (own.trans owns.owner)

theorem Owners.effect (owners : Owners s) (member : call ∈ s.calls)
    (allowed : Past.requests call.task.completes ownerId call.past op)
    (executed : World.exec settings i op choice s.world = some (r, w)) : Effect ownerId s.world w := by
  have held := owners.past call member
  have nothing : w = s.world → Effect ownerId s.world w := by
    intro same
    subst same
    exact .none rfl rfl rfl
  cases op with
  | addUpload upload =>
    rcases World.exec_cases executed with ⟨_, -, -, same⟩ | ⟨r₀, performed, -⟩
    · exact nothing same
    · rcases World.transact_cases (Option.some.inj performed) with ⟨_, done, -⟩ | ⟨e, -, same⟩
      · obtain ⟨absent, rfl⟩ := World.addUpload_ok done
        refine ⟨.inr ⟨upload.id, _, rfl, allowed, fun row stored => ?_⟩, .inl rfl, .inl rfl⟩
        rw [absent] at stored
        cases stored
      · exact nothing same
  | saveUpload upload' =>
    obtain ⟨-, upload, checks, concluded⟩ := allowed
    have same : upload'.id = upload.id := by
      rcases concluded with ⟨rfl, -⟩ | ⟨detected, now, done, -⟩
      · rfl
      · unfold Upload.complete at done
        split at done
        · cases done
        · cases done
          rfl
    have own := (checks.toOwnsUpload.uploadIs held).of
    rcases World.exec_cases executed with ⟨_, -, -, same⟩ | ⟨r₀, performed, -⟩
    · exact nothing same
    · rcases World.transact_cases (Option.some.inj performed) with ⟨_, done, -⟩ | ⟨e, -, same⟩
      · obtain ⟨row, found, -, rfl⟩ := World.saveUpload_ok done
        rw [same] at found
        have owner : row.upload.ownerId = ownerId := (own.row row found).trans checks.owner
        refine ⟨.inr ⟨upload'.id, _, rfl, owner, fun other stored => ?_⟩, .inl rfl, .inl rfl⟩
        rw [same] at stored
        exact (own.row other stored).trans checks.owner
      · exact nothing same
  | addWithOutboxAndEvent job outboxEvent event =>
    obtain ⟨jobOwner, -, about, -⟩ := allowed
    rcases World.exec_cases executed with ⟨_, -, -, same⟩ | ⟨r₀, performed, -⟩
    · exact nothing same
    · rcases World.transact_cases (Option.some.inj performed) with ⟨_, done, -⟩ | ⟨e, -, same⟩
      · obtain ⟨absent, -, rfl⟩ := World.addWithOutboxAndEvent_ok done
        have owner : ((JobRow.insert job settings.jobRetentionDays).append event).2.apiKeyId = ownerId := by
          rw [JobRow.append_row]
          exact jobOwner
        refine ⟨.inl rfl, .inr ⟨job.id, _, rfl, owner, fun row stored => ?_⟩, .inr ⟨outboxEvent, _, rfl, ?_, owner⟩⟩
        · rw [absent] at stored
          cases stored
        · rw [about]
          exact Function.update_self ..
      · exact nothing same
  | saveWithEvent job event =>
    obtain ⟨edits, -⟩ := allowed
    rcases World.exec_cases executed with ⟨_, -, -, same⟩ | ⟨r₀, performed, -⟩
    · exact nothing same
    · rcases World.transact_cases (Option.some.inj performed) with ⟨_, done, -⟩ | ⟨e, -, same⟩
      · obtain ⟨row, row', found, stored, -, rfl⟩ := World.saveWithEvent_ok done
        obtain ⟨before, after⟩ := edits.saves held event found stored
        refine ⟨.inl rfl, .inr ⟨job.id, _, rfl, after, fun other there => ?_⟩, .inl rfl⟩
        cases Option.some.inj (found.symm.trans there)
        exact before
      · exact nothing same
  | saveWithOutboxAndEvent job outboxEvent event =>
    obtain ⟨edits, about, -⟩ := allowed
    rcases World.exec_cases executed with ⟨_, -, -, same⟩ | ⟨r₀, performed, -⟩
    · exact nothing same
    · rcases World.transact_cases (Option.some.inj performed) with ⟨_, done, -⟩ | ⟨e, -, same⟩
      · obtain ⟨row, row', found, stored, -, rfl⟩ := World.saveWithOutboxAndEvent_ok done
        obtain ⟨before, after⟩ := edits.saves held event found stored
        refine ⟨.inl rfl, .inr ⟨job.id, _, rfl, after, fun other there => ?_⟩, .inr ⟨outboxEvent, _, rfl, ?_, after⟩⟩
        · cases Option.some.inj (found.symm.trans there)
          exact before
        · rw [about]
          exact Function.update_self ..
      · exact nothing same
  | _ => first
    | exact False.elim allowed
    | exact .quiet executed (by simp [Op.writes]) (by simp [Op.writes]) (by simp [Op.writes])

/-- Only calls on behalf of the owner take a step. -/
def OnBehalf (ownerId : Id) (s : State) : Step → Prop
  | .resume i _ => ∀ call ∈ s.calls[i]?, call.task.owner? = some ownerId
  | _ => True

instance (ownerId : Id) (s : State) : ∀ action, Decidable (OnBehalf ownerId s action)
  | .resume i _ => inferInstanceAs (Decidable (∀ call ∈ s.calls[i]?, call.task.owner? = some ownerId))
  | .start _ | .kill _ | .env _ => isTrue trivial

/-- The step lemma: a call on behalf of one owner leaves all others alone. -/
theorem Owners.sameFor (owners : Owners s) (moves : Moves settings s action s') (permitted : OnBehalf ownerId s action)
    (different : ownerId ≠ other) : SameFor other s.world s'.world := by
  cases moves with
  | start => exact .refl
  | kill => exact .refl
  | env event =>
    rw [World.rebalance_kafka]
    exact Effect.sameFor (.none rfl rfl rfl) different
  | @resume i choice call op r next w at_i prog executed allowed =>
    have member := List.mem_of_getElem? at_i
    have own := (owners.accessing call member).requests prog (permitted call at_i)
    exact (owners.effect member own executed).sameFor different

/-- What a call has told its client so far, in its reply or in the events it has
sent, is the owner's. -/
structure TellsOwn (ownerId : Id) (call : SystemCall) : Prop where
  reply : ∀ reply, call.prog.returned? = some reply → Past.Confines call.past ownerId reply
  events : ∀ event sent, ⟨.yieldEvent event, sent⟩ ∈ call.past → Past.Tells call.past ownerId event

theorem Owners.tells (owners : Owners s) (member : call ∈ s.calls) (owner : call.task.owner? = some ownerId) :
    TellsOwn ownerId call := by
  refine ⟨fun reply returned => ?_, owners.told call member ownerId owner⟩
  have own := owners.accessing call member
  rw [Accessing, Tracks, Prog.eq_of_returned? returned] at own
  have confined : call.task.Confined reply (call.ghost Past.ghost fun _ => []) := own
  rw [Call.ghost_past] at confined
  exact confined ownerId owner

/-- Calls on behalf of one owner, in any interleaving and from any state that is
reached, leave all uploads, jobs and outbox rows of another owner as they are;
what they tell is of uploads, jobs and events of their own owner; and the upload
of every job is of the owner of the job. -/
theorem owners_isolated (initial : Initial first) (reached : Reaches settings first s)
    (run : (system settings).Run (OnBehalf ownerId) s s') :
    (∀ other, ownerId ≠ other → SameFor other s.world s'.world) ∧
    (∀ call ∈ s'.calls, call.task.owner? = some ownerId → TellsOwn ownerId call) ∧
    ∀ id row, s'.world.jobs id = some row → ∀ upload, s'.world.uploads row.uploadId = some upload →
      upload.upload.ownerId = row.apiKeyId := by
  obtain ⟨coherent, owners⟩ := owners_reached initial reached
  obtain ⟨-, owners', same⟩ := coherent.induction run
    (J := fun s' => Owners s' ∧ ∀ other, ownerId ≠ other → SameFor other s.world s'.world)
    ⟨owners, fun _ _ => .refl⟩
    fun _ _ _ coherent ⟨owners, same⟩ permitted moves =>
      ⟨owners.step coherent moves, fun other different =>
        (same other different).trans (owners.sameFor moves permitted different)⟩
  exact ⟨same, fun call member owner => owners'.tells member owner,
    fun id row stored upload found => (owners'.jobs id row stored).row upload found⟩

/-- Another user announces an upload, and asks for the job of the user 7 and cancels it. -/
def strangerSteps : List Step :=
  .start (.createUpload ⟨"own.pdf", 3, "application/pdf", ""⟩ 8) ::
      answered 1 [.go, .now, { answer := .target { url := "put" } }, .go] ++
    .start (.getJob 1 8) :: answered 2 [.go] ++ .start (.cancelJob 1 8 "request") :: answered 3 [.go]

/-- The upload of the one is stored, and the job of the other is refused. -/
theorem owners_isolated_stranger : ∃ s s', Reaches {} oneDocument s ∧
    (s.world.jobs 1).map (·.apiKeyId) = some 7 ∧ (system {}).runsIf (OnBehalf 8) s strangerSteps = some s' ∧
    (s'.world.uploads 3).map (·.upload.ownerId) = some 8 ∧
    (s'.calls.map fun call => match call.prog with | .ret (.error e) => some e | _ => none) =
      [none, none, some (.business .userUnauthorized "user_unauthorized"),
        some (.business .userUnauthorized "user_unauthorized")] ∧
    (∀ other, 8 ≠ other → SameFor other s.world s'.world) ∧
    (∀ call ∈ s'.calls, call.task.owner? = some 8 → TellsOwn 8 call) ∧
    ∀ id row, s'.world.jobs id = some row → ∀ upload, s'.world.uploads row.uploadId = some upload →
      upload.upload.ownerId = row.apiKeyId := by
  have played : (((system {}).runs oneDocument (createSteps 0)).any fun s =>
      decide ((s.world.jobs 1).map (·.apiKeyId) = some 7) &&
        ((system {}).runsIf (OnBehalf 8) s strangerSteps).any fun s' => decide
          ((s'.world.uploads 3).map (·.upload.ownerId) = some 8 ∧
            (s'.calls.map fun call => match call.prog with | .ret (.error e) => some e | _ => none) =
              [none, none, some (.business .userUnauthorized "user_unauthorized"),
                some (.business .userUnauthorized "user_unauthorized")])) = true := by decide +kernel
  obtain ⟨s, created, facts⟩ := (Option.any_eq_true _ _).mp played
  obtain ⟨owned, later⟩ := Bool.and_eq_true_iff.mp facts
  obtain ⟨s', runs, told⟩ := (Option.any_eq_true _ _).mp later
  have reached : Reaches {} oneDocument s := .of_runs created (by simp)
  obtain ⟨upload, replies⟩ := of_decide_eq_true told
  exact ⟨s, s', reached, of_decide_eq_true owned, runs, upload, replies,
    owners_isolated oneDocument_initial reached (.of_runsIf runs)⟩

end
end MonkeyOcr
