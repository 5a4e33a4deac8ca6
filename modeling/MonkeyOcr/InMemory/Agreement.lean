import Mathlib
import MonkeyOcr.Calls.Observer
import MonkeyOcr.InMemory.Insertions
import MonkeyOcr.InMemory.Mirrors
import MonkeyOcr.Lifecycle.Work

namespace MonkeyOcr

open Calls

/-- What the database and the dictionaries return for a call is the same, as far as both keep it.
The database lists a hundred events at a time. -/
def Op.Agree : (op : Op) → op.Val → op.Val → Prop
  | .getJob _ _, found, other => Option.Rel Job.Alike found other
  | .saveWithEvent _ _, saved, other => saved.1 = other.1 ∧ saved.2.Alike other.2
  | .saveWithOutboxAndEvent _ _ _, saved, other => saved.1 = other.1 ∧ saved.2.Alike other.2
  | .addWithOutboxAndEvent _ _ _, saved, other => saved.Alike other
  | .appendEvent _, saved, other => saved.Alike other
  | .listAfter _ _, events, other => events = other.take 100
  | .findIdByIdempotencyKey _ _, id, other => id = other
  | .listIds _ _ _, ids, other => ids = other
  | .countJobs _, total, other => total = other
  | _, _, _ => True

/-- How both answer a call. -/
structure Compared where
  op : Op
  database : Except Exc op.Val
  memory : Except Exc op.Val

/-- Both return the same, or raise the same exception. -/
inductive Compared.Alike : Compared → Prop
  | returned {op a b} (agree : Op.Agree op a b) : Alike ⟨op, .ok a, .ok b⟩
  | raised {op e} : Alike ⟨op, .error e, .error e⟩

/-- In-memory repositories that are given every call of the others too, and all answers so far. -/
structure Shadow where
  memory : InMemory := {}
  answers : List Compared := []

def Shadow.note (op : Op) (r : Except Exc op.Val) (shadow : Shadow) : Shadow :=
  match shadow.memory.perform op with
  | some (answer, memory) => ⟨memory, ⟨op, r, answer⟩ :: shadow.answers⟩
  | none => shadow

/-- The calls of the repositories of jobs. -/
def Op.onJobs (op : Op) : Bool := (InMemory.perform {} op).isSome

/-- The call fails, or violates a constraint of the database. -/
def World.fails (settings : Settings) (i : Nat) (choice : Choice) (w : World) (op : Op) : Bool :=
  match w.exec settings i op choice with
  | some (.error e, _) => e.isOther
  | _ => false

/-- A key is not empty, and the jobs of a list were not created at the same time. -/
def World.separates (w : World) : Op → Bool
  | .addWithOutboxAndEvent job _ _ => job.idempotencyKey ≠ some ""
  | .listIds ownerId _ _ => ((w.jobIds fun row => row.apiKeyId = ownerId).map fun id =>
      (w.jobs id).elim 0 JobRow.createdAt).Nodup
  | _ => true

/-- What the call awaits. -/
def awaited? (call : SystemCall) : Option Op :=
  match call.prog with
  | .call op _ => some op
  | _ => none

/-- There is no retention, and the database does its work for every call of the repositories. -/
def Ordinary (settings : Settings) (s : State) : Step → Prop
  | .start (.runBatch ..) => False
  | .resume i choice => ∀ call ∈ s.calls[i]?, ∀ op ∈ awaited? call,
      (op.onJobs = true → s.world.fails settings i choice op = false) ∧ s.world.separates op = true
  | _ => True

instance (settings : Settings) (s : State) : ∀ action, Decidable (Ordinary settings s action)
  | .start (.runBatch ..) => isFalse id
  | .resume i choice => inferInstanceAs (Decidable (∀ call ∈ s.calls[i]?, ∀ op ∈ awaited? call,
      (op.onJobs = true → s.world.fails settings i choice op = false) ∧ s.world.separates op = true))
  | .start (.process ..) | .start (.runWorker ..) | .start (.createJob ..) | .start (.getJob ..)
  | .start (.listJobs ..) | .start (.cancelJob ..) | .start (.retryJob ..) | .start (.dispatchOnce ..)
  | .start (.streamJobEvents ..) | .start (.createUpload ..) | .start (.completeUpload ..)
  | .start (.listArtifacts ..) | .start (.presignedPut ..) | .kill _ | .env _ => isTrue trivial

section

variable {settings : Settings} {i : Nat} {choice : Choice} {w w' : World} {op : Op} {r : Except Exc op.Val}
  {m m' : InMemory} {shadow : Shadow} {s s' first : State} {call : SystemCall}
  {next : Except Exc op.Val → Program Reply} {action : Step} {job : Job} {event : JobEvent} {row : JobRow}

theorem Op.onJobs_mayRaise (on : op.onJobs = true) (e : Exc) : op.mayRaise e = e.isOther := by
  cases op <;> first | rfl | cases on

/-- An ordinary call does its work. -/
theorem World.exec_ordinary (on : op.onJobs = true) (usual : w.fails settings i choice op = false)
    (executed : w.exec settings i op choice = some (r, w')) :
    w.perform settings i op choice.answer = some (r, w') ∧ ∀ e, r = .error e → e.isOther = false := by
  have plain : ∀ e, r = .error e → e.isOther = false := by
    intro e failed
    subst failed
    simpa only [World.fails, executed] using usual
  rcases World.exec_cases executed with ⟨e, failed, raises, -⟩ | ⟨r₀, performed, rfl | ⟨e, failed, raises, -⟩⟩
  · have other := plain e failed
    rw [Op.onJobs_mayRaise on] at raises
    rw [raises] at other
    cases other
  · exact ⟨performed, plain⟩
  · have other := plain e failed
    rw [Op.onJobs_mayRaise on] at raises
    rw [raises] at other
    cases other

/-- A save of a job that is stored, in both stores. -/
theorem Mirrors.saves (mirrors : Mirrors w m) (found : w.jobs job.id = some row) (tidy : row.Tidy)
    (logged : row.Logged) (own : event.jobId = job.id) {days : Nat}
    (edits : ∀ row', row.save job days = .ok row' →
      job.birth = row.birth ∧ ∃ origin, Edit origin row.version event.eventType job.version)
    (usual : ∀ e, w.saveWithEvent job event days = .error e → e.isOther = false) :
    (∃ saved saved' w' m', w.saveWithEvent job event days = .ok (saved, w') ∧
      m.saveWithEvent job event = .ok (saved', m') ∧ saved.1 = saved'.1 ∧ saved.2.Alike saved'.2 ∧ Mirrors w' m') ∨
      ∃ e, w.saveWithEvent job event days = .error e ∧ m.saveWithEvent job event = .error e := by
  cases done : row.save job days with
  | error e =>
    have failed : w.saveWithEvent job event days = .error e := by
      simp only [World.saveWithEvent, World.saveJob, found, done]
      rfl
    exact .inr ⟨e, failed, mirrors.refused found done (usual e failed)⟩
  | ok row' =>
    obtain ⟨birth, origin, edit⟩ := edits row' done
    obtain ⟨saved, m', stored, revision, alike, mirrors'⟩ :=
      mirrors.saved found done tidy edit birth logged.nextSequence own
    have returned : w.saveWithEvent job event days =
        .ok (((row'.append event).2.revision, (row'.append event).1), w.setJob job.id (some (row'.append event).2)) := by
      simp only [World.saveWithEvent, World.saveJob, found, done]
      rfl
    exact .inl ⟨_, saved, _, m', returned, stored, JobRow.append_revision.trans revision, alike, mirrors'⟩

/-- The calls have seen only jobs that are stored. -/
def Present (s : State) : Prop :=
  ∀ call ∈ s.calls, ∀ entry ∈ (memoryOf call).seen, (s.world.jobs entry.2.id).isSome = true

/-- A job that is saved is stored, and was one edit away from what is stored. -/
theorem Coherent.saving {type : EventType} (coherent : Coherent s) (births : Births s) (present : Present s)
    (member : call ∈ s.calls) (derived : (memoryOf call).Derived type job) :
    ∃ row, s.world.jobs job.id = some row ∧ ∀ days row', row.save job days = .ok row' →
      job.birth = row.birth ∧ ∃ origin, Edit origin row.version type job.version := by
  have stored : ∃ row, s.world.jobs job.id = some row := by
    rcases derived with lost | ⟨origin, v, seen, -, edits⟩
    · obtain ⟨origin, v, seen, same⟩ := lost.2.2
      have there := present call member _ seen
      rw [same] at there
      exact Option.isSome_iff_exists.mp there
    · rw [edits.id]
      exact Option.isSome_iff_exists.mp (present call member _ seen)
  obtain ⟨row, found⟩ := stored
  refine ⟨row, found, ?_⟩
  intro days row' done
  have inv := coherent.consistent
  obtain ⟨origin, v, seen, -, edits, current⟩ :=
    World.saved_edit (inv.known call member) (inv.lost call member) derived found (JobRow.save_ok done)
  have born : row.birth = v.birth := births call member _ seen row (edits.id ▸ found)
  exact ⟨edits.birth.trans born.symm, origin, current ▸ edits.edit⟩

namespace Shadow

variable {answer : Except Exc op.Val}

theorem note_performed (performed : shadow.memory.perform op = some (answer, m')) (here : Compared.Alike ⟨op, r, answer⟩)
    (mirrors : Mirrors w m') (alike : ∀ compared ∈ shadow.answers, compared.Alike) :
    Mirrors w (note op r shadow).memory ∧ ∀ compared ∈ (note op r shadow).answers, compared.Alike := by
  simp only [note, performed]
  exact ⟨mirrors, List.forall_mem_cons.mpr ⟨here, alike⟩⟩

theorem note_other (other : shadow.memory.perform op = none) (mirrors : Mirrors w shadow.memory)
    (alike : ∀ compared ∈ shadow.answers, compared.Alike) :
    Mirrors w (note op r shadow).memory ∧ ∀ compared ∈ (note op r shadow).answers, compared.Alike := by
  simp only [note, other]
  exact ⟨mirrors, alike⟩

/-- One call of the system: both stores answer alike, and stay alike. -/
theorem noted (coherent : Coherent s) (births : Births s) (logs : LogsAgree s) (present : Present s)
    (at_i : s.calls[i]? = some call) (allowed : call.task.contract.allow (memoryOf call) op)
    (executed : World.exec settings i op choice s.world = some (r, w)) (blank : op.blank) (keeps : op.retains = false)
    (usual : op.onJobs = true → s.world.fails settings i choice op = false) (separates : s.world.separates op = true)
    (mirrors : Mirrors s.world shadow.memory)
    (alike : ∀ compared ∈ shadow.answers, compared.Alike) :
    Mirrors w (note op r shadow).memory ∧ ∀ compared ∈ (note op r shadow).answers, compared.Alike := by
  have member := List.mem_of_getElem? at_i
  have inv := coherent.consistent
  have writes := Task.contract_writes allowed
  have later := World.exec_nextId executed
  have quiet : shadow.memory.perform op = none → Part.jobs ∉ op.writes →
      Mirrors w (note op r shadow).memory ∧ ∀ compared ∈ (note op r shadow).answers, compared.Alike := by
    intro other still
    exact note_other other (mirrors.congr (World.exec_same still executed) later) alike
  cases op with
  | getJob site id =>
    obtain ⟨performed, -⟩ := World.exec_ordinary rfl (usual rfl) executed
    obtain ⟨rfl, rfl⟩ := Prod.mk.inj (Option.some.inj performed)
    exact note_performed rfl (.returned mirrors.get) mirrors alike
  | saveWithEvent job event =>
    obtain ⟨performed, plain⟩ := World.exec_ordinary rfl (usual rfl) executed
    obtain ⟨row, found, edits⟩ := coherent.saving births present member writes.1
    have effect : s.world.transact (s.world.saveWithEvent job event settings.jobRetentionDays) = (r, w) :=
      Option.some.inj performed
    have results := mirrors.saves found (inv.tidy _ _ found) (logs.rows _ _ found) writes.2.1.jobId
      (edits settings.jobRetentionDays) fun e failed => by
        rw [failed] at effect
        exact plain e (Prod.mk.inj effect).1.symm
    rcases results with ⟨saved, saved', w', m', done, stored, revision, same, mirrors'⟩ | ⟨e, done, stored⟩
    · rw [done] at effect
      obtain ⟨rfl, rfl⟩ := Prod.mk.inj effect
      have noted : shadow.memory.perform (.saveWithEvent job event) = some (.ok saved', m') := by
        rw [InMemory.perform, stored]
        rfl
      exact note_performed noted (.returned ⟨revision, same⟩) mirrors' alike
    · rw [done] at effect
      obtain ⟨rfl, rfl⟩ := Prod.mk.inj effect
      have noted : shadow.memory.perform (.saveWithEvent job event) = some (.error e, shadow.memory) := by
        rw [InMemory.perform, stored]
        rfl
      exact note_performed noted .raised mirrors alike
  | saveWithOutboxAndEvent job outboxEvent event =>
    obtain ⟨performed, plain⟩ := World.exec_ordinary rfl (usual rfl) executed
    obtain ⟨row, found, edits⟩ := coherent.saving births present member writes.1
    have effect : s.world.transact (s.world.saveWithOutboxAndEvent job outboxEvent event settings.jobRetentionDays) =
        (r, w) := Option.some.inj performed
    have results := mirrors.saves found (inv.tidy _ _ found) (logs.rows _ _ found) writes.2.1.jobId
      (edits settings.jobRetentionDays) fun e failed => by
        rw [World.saveWithOutboxAndEvent, failed] at effect
        exact plain e (Prod.mk.inj effect).1.symm
    rcases results with ⟨saved, saved', w', m', done, stored, revision, same, mirrors'⟩ | ⟨e, done, stored⟩
    · rw [World.saveWithOutboxAndEvent, done] at effect
      obtain ⟨rfl, rfl⟩ := Prod.mk.inj effect
      have noted : shadow.memory.perform (.saveWithOutboxAndEvent job outboxEvent event) = some (.ok saved', m') := by
        rw [InMemory.perform, stored]
        rfl
      have kept : Mirrors (w'.insertOutbox outboxEvent) m' := mirrors'.congr rfl le_rfl
      exact note_performed noted (.returned ⟨revision, same⟩) kept alike
    · rw [World.saveWithOutboxAndEvent, done] at effect
      obtain ⟨rfl, rfl⟩ := Prod.mk.inj effect
      have noted : shadow.memory.perform (.saveWithOutboxAndEvent job outboxEvent event) =
          some (.error e, shadow.memory) := by
        rw [InMemory.perform, stored]
        rfl
      exact note_performed noted .raised mirrors alike
  | addWithOutboxAndEvent job outboxEvent event =>
    obtain ⟨performed, plain⟩ := World.exec_ordinary rfl (usual rfl) executed
    obtain ⟨new, drawn, -, reports, -⟩ := writes
    have filled : job.idempotencyKey ≠ some "" := of_decide_eq_true separates
    have effect : s.world.transact (s.world.addWithOutboxAndEvent job outboxEvent event settings.jobRetentionDays) =
        (r, w) := Option.some.inj performed
    have gone : s.world.jobs job.id = none := inv.absent _ (.inr ⟨call, member, drawn⟩)
    have refused : ∀ name, s.world.addWithOutboxAndEvent job outboxEvent event settings.jobRetentionDays ≠
        .error (.other name) := by
      intro name failed
      rw [failed] at effect
      cases plain _ (Prod.mk.inj effect).1.symm
    have referenced : ¬ (s.world.uploads job.uploadId).isNone = true := by
      intro none
      refine refused "ForeignKeyViolationError" ?_
      simp only [World.addWithOutboxAndEvent, gone, none, Option.isSome_none, Bool.false_eq_true, if_false, if_true]
    by_cases taken : (job.idempotencyKey.any fun key =>
        (s.world.findIdByIdempotencyKey job.ownerId key).isSome) = true
    · have done : s.world.addWithOutboxAndEvent job outboxEvent event settings.jobRetentionDays =
          .error .duplicateIdempotencyKey := by
        simp only [World.addWithOutboxAndEvent, gone, Option.isSome_none, Bool.false_eq_true, if_false,
          if_neg referenced, if_pos taken]
      rw [done] at effect
      obtain ⟨rfl, rfl⟩ := Prod.mk.inj effect
      have noted : shadow.memory.perform (.addWithOutboxAndEvent job outboxEvent event) =
          some (.error .duplicateIdempotencyKey, shadow.memory) := by
        rw [InMemory.perform, mirrors.duplicate gone filled taken]
        rfl
      exact note_performed noted .raised mirrors alike
    · obtain ⟨saved, m', stored, same, mirrors'⟩ := mirrors.inserted settings.jobRetentionDays gone new blank
        (inv.drawn call member _ drawn) filled taken reports.jobId
      have done : s.world.addWithOutboxAndEvent job outboxEvent event settings.jobRetentionDays =
          .ok (((JobRow.insert job settings.jobRetentionDays).append event).1,
            (s.world.setJob job.id (some ((JobRow.insert job settings.jobRetentionDays).append event).2)).insertOutbox
              outboxEvent) := by
        simp only [World.addWithOutboxAndEvent, gone, Option.isSome_none, Bool.false_eq_true, if_false,
          if_neg referenced, if_neg taken]
      rw [done] at effect
      obtain ⟨rfl, rfl⟩ := Prod.mk.inj effect
      have noted : shadow.memory.perform (.addWithOutboxAndEvent job outboxEvent event) = some (.ok saved, m') := by
        rw [InMemory.perform, stored]
        rfl
      exact note_performed noted (.returned same) (mirrors'.congr rfl le_rfl) alike
  | appendEvent event =>
    obtain ⟨performed, plain⟩ := World.exec_ordinary rfl (usual rfl) executed
    have effect : s.world.transact (s.world.appendEvent event) = (r, w) := Option.some.inj performed
    cases found : s.world.jobs event.jobId with
    | none =>
      rw [World.appendEvent, found] at effect
      cases plain _ (Prod.mk.inj effect).1.symm
    | some row =>
      obtain ⟨same, mirrors'⟩ := mirrors.appended found (logs.rows _ _ found).nextSequence
      rw [World.appendEvent, found] at effect
      obtain ⟨rfl, rfl⟩ := Prod.mk.inj effect
      exact note_performed rfl (.returned same) mirrors' alike
  | listAfter id sequence =>
    obtain ⟨performed, -⟩ := World.exec_ordinary rfl (usual rfl) executed
    obtain ⟨rfl, rfl⟩ := Prod.mk.inj (Option.some.inj performed)
    exact note_performed rfl (.returned (mirrors.listAfter sequence)) mirrors alike
  | findIdByIdempotencyKey ownerId key =>
    obtain ⟨performed, -⟩ := World.exec_ordinary rfl (usual rfl) executed
    obtain ⟨rfl, rfl⟩ := Prod.mk.inj (Option.some.inj performed)
    exact note_performed rfl (.returned mirrors.byKey) mirrors alike
  | listIds ownerId offset limit =>
    obtain ⟨performed, -⟩ := World.exec_ordinary rfl (usual rfl) executed
    obtain ⟨rfl, rfl⟩ := Prod.mk.inj (Option.some.inj performed)
    exact note_performed rfl (.returned (mirrors.listed offset limit (of_decide_eq_true separates))) mirrors alike
  | countJobs ownerId =>
    obtain ⟨performed, -⟩ := World.exec_ordinary rfl (usual rfl) executed
    obtain ⟨rfl, rfl⟩ := Prod.mk.inj (Option.some.inj performed)
    exact note_performed rfl (.returned mirrors.counted) mirrors alike
  | claimExpired => cases keeps
  | complete => cases keeps
  | defer => cases keeps
  | _ => exact quiet rfl (by simp [Op.writes])

end Shadow

/-- Without retention a job stays. -/
theorem Moves.persists {id : Id} (coherent : Coherent s) (moves : Moves settings s action s')
    (cleaners : ∀ call ∈ s.calls, ∀ limit leaseSeconds now, call.task ≠ .runBatch limit leaseSeconds now)
    (stored : (s.world.jobs id).isSome = true) : (s'.world.jobs id).isSome = true := by
  rcases moves.row coherent id with same | ⟨i, choice, call, op, -, at_i, allowed, change⟩
  · rw [same]
    exact stored
  · obtain ⟨row, found⟩ := Option.isSome_iff_exists.mp stored
    rw [found] at change
    cases after : s'.world.jobs id with
    | some row' => rfl
    | none =>
      rw [after] at change
      cases change with
      | deleted complete =>
        subst complete
        obtain ⟨limit, leaseSeconds, now, same⟩ := Task.contract_retains allowed rfl
        exact absurd same (cleaners call (List.mem_of_getElem? at_i) limit leaseSeconds now)

theorem Present.step (coherent : Coherent s) (present : Present s) (moves : Moves settings s action s')
    (cleaners : ∀ call ∈ s.calls, ∀ limit leaseSeconds now, call.task ≠ .runBatch limit leaseSeconds now) :
    Present s' := by
  intro call' member entry seen
  rcases moves.seen coherent member seen with ⟨call, before, old⟩ | ⟨row, found, -⟩
  · exact moves.persists coherent cleaners (present call before entry old)
  · rw [found]
    rfl

/-- What holds of a run beside which the in-memory repositories are kept. -/
structure Shadowed (s : Sys Sig (World × Shadow) Task Exc Reply) : Prop where
  mirrors : Mirrors s.world.1 s.world.2.memory
  alike : ∀ compared ∈ s.world.2.answers, compared.Alike
  present : Present s.unobserved
  cleaners : ∀ call ∈ s.calls, ∀ limit leaseSeconds now, call.task ≠ .runBatch limit leaseSeconds now

theorem Shadowed.step {s s' : Sys Sig (World × Shadow) Task Exc Reply} (shadowed : Shadowed s)
    (coherent : Coherent s.unobserved) (births : Births s.unobserved) (logs : LogsAgree s.unobserved)
    (blank : ∀ call ∈ s.calls, ∀ op next, call.prog = .call op next → op.blank)
    (ordinary : Ordinary settings s.unobserved action)
    (step : ((system settings).observed Shadow.note).step s action = some s') : Shadowed s' := by
  obtain ⟨own, note⟩ := Machine.step_observed step
  obtain ⟨-, moves⟩ := coherent.step own
  have present := shadowed.present.step coherent moves shadowed.cleaners
  have cleaners : ∀ call ∈ s'.calls, ∀ limit leaseSeconds now, call.task ≠ .runBatch limit leaseSeconds now := by
    have all : ∀ call ∈ s'.unobserved.calls, ∀ limit leaseSeconds now,
        call.task ≠ .runBatch limit leaseSeconds now := by
      generalize s'.unobserved = after at moves
      cases moves with
      | start task =>
        intro call member limit leaseSeconds now
        rcases List.mem_append.mp member with old | new
        · exact shadowed.cleaners call old limit leaseSeconds now
        · cases List.mem_singleton.mp new
          intro cleaner
          have same : task = .runBatch limit leaseSeconds now := cleaner
          subst same
          exact ordinary
      | @resume i choice call op r next w at_i prog =>
        intro other member
        rcases Machine.mem_set_answered member with old | rfl
        · exact shadowed.cleaners other old
        · exact shadowed.cleaners call (List.mem_of_getElem? at_i)
      | kill i =>
        intro call member
        rcases Machine.mem_modify_killed member with old | ⟨before, there, rfl⟩
        · exact shadowed.cleaners call old
        · exact shadowed.cleaners before there
      | env event => exact shadowed.cleaners
    exact all
  rcases note with ⟨same, still⟩ | ⟨i, choice, call, op, next, r, rfl, at_i, prog, executed, noted⟩
  · have quiet : Mirrors s'.world.1 s.world.2.memory := by
      have after : s'.world.1 = s'.unobserved.world := rfl
      rw [after]
      generalize s'.unobserved = later at moves
      cases moves with
      | start => exact shadowed.mirrors
      | kill => exact shadowed.mirrors
      | env event =>
        rw [World.rebalance_kafka]
        exact shadowed.mirrors.congr rfl le_rfl
      | resume => exact absurd rfl (still _ _)
    refine ⟨?_, ?_, present, cleaners⟩
    · rw [same]
      exact quiet
    · rw [same]
      exact shadowed.alike
  · have member := List.mem_of_getElem? at_i
    have tracked := coherent.tracked call member
    rw [Tracked, Tracks, prog, Prog.meets_call] at tracked
    have keeps : op.retains = false := by
      cases retains : op.retains with
      | false => rfl
      | true =>
        obtain ⟨limit, leaseSeconds, now, cleaner⟩ := Task.contract_retains tracked.1 retains
        exact absurd cleaner (shadowed.cleaners call member limit leaseSeconds now)
    have awaits : op ∈ awaited? call := by
      rw [awaited?, prog]
      rfl
    obtain ⟨usual, separates⟩ := ordinary call at_i op awaits
    obtain ⟨mirrors, alike⟩ := Shadow.noted coherent births logs shadowed.present at_i tracked.1 executed
      (blank call member op next prog) keeps usual separates shadowed.mirrors shadowed.alike
    refine ⟨?_, ?_, present, cleaners⟩
    · rw [noted]
      exact mirrors
    · rw [noted]
      exact alike

/-- In every run without retention and without failures of the database, the in-memory repositories
answer every call as the database does, as far as both keep it, and hold the same jobs and logs. -/
theorem memory_agrees {first s : Sys Sig (World × Shadow) Task Exc Reply} (initial : Initial first.unobserved)
    (unused : first.world.2 = {})
    (run : ((system settings).observed Shadow.note).Run (fun s action => Ordinary settings s.unobserved action) first s) :
    (∀ compared ∈ s.world.2.answers, compared.Alike) ∧ Mirrors s.world.1 s.world.2.memory := by
  have shadowed : Shadowed s := by
    induction run with
    | start =>
      refine ⟨?_, ?_, ?_, ?_⟩
      · rw [unused]
        exact .empty initial.world.jobs
      · rw [unused]
        simp
      · intro call member
        rw [initial.calls] at member
        cases member
      · intro call member
        have none : first.calls = [] := initial.calls
        rw [none] at member
        cases member
    | next before ordinary step ih =>
      have run := before.unobserved
      have births := (initial.coherent.induction run initial.births fun _ _ _ coherent births _ moves =>
        births.step coherent moves).2
      exact ih.step (initial.coherent.run run) births (initial.coherent.logs initial.logs run) (initial.blank run)
        ordinary step
  exact ⟨shadowed.alike, shadowed.mirrors⟩

/-- The deployment with one document, beside empty dictionaries. -/
def shadowedDocument : Sys Sig (World × Shadow) Task Exc Reply := ⟨(oneDocument.world, {}), []⟩

/-- A job is asked for twice under one key and listed. It is cancelled by two requests at once, and retried. -/
def twoCancellations : List Step :=
  .start (.createJob ⟨0, []⟩ 7 "request" (some "key")) ::
      answered 0 [.go, .go, .go, .now, .go, .now, .go, .go] ++
    .start (.createJob ⟨0, []⟩ 7 "request" (some "key")) :: answered 1 [.go, .go, .go, .go] ++
    .start (.listJobs 7 1 20) :: answered 2 [.go, .go, .go, .go] ++
    .start (.cancelJob 1 7 "request") :: answered 3 [.go, .now, .now] ++ cancelSteps 4 ++ answered 3 [.go] ++
    retrySteps 5

/-- Thirteen answers are compared; one of them is a conflict. -/
theorem memory_agrees_cancelled : ∃ s,
    ((system {}).observed Shadow.note).runsIf (fun s action => Ordinary {} s.unobserved action) shadowedDocument
      twoCancellations = some s ∧
      s.world.2.answers.length = 13 ∧ (∀ compared ∈ s.world.2.answers, compared.Alike) ∧
      Mirrors s.world.1 s.world.2.memory := by
  have played : (((system {}).observed Shadow.note).runsIf (fun s action => Ordinary {} s.unobserved action)
      shadowedDocument twoCancellations).any (fun s => decide (s.world.2.answers.length = 13)) = true := by
    decide +kernel
  obtain ⟨s, runs, length⟩ := (Option.any_eq_true _ _).mp played
  have initial : Initial shadowedDocument.unobserved := oneDocument_initial
  exact ⟨s, runs, of_decide_eq_true length, memory_agrees initial rfl (.of_runsIf runs)⟩

end

end MonkeyOcr
