import Mathlib
import MonkeyOcr.InMemory.Repositories
import MonkeyOcr.Lifecycle.Births
import MonkeyOcr.Lifecycle.EventLog
import MonkeyOcr.Statements.Chain

namespace MonkeyOcr

open Calls

/-- The same job, as far as both stores keep it: without the texts of pages, the order of
artifacts, the engine, and the times of the start and of the last change. -/
structure Job.Alike (a b : Job) : Prop where
  id : a.id = b.id
  revision : a.revision = b.revision
  version : a.version = b.version
  birth : a.birth = b.birth
  requestId : a.requestId = b.requestId
  internalCode : a.internalCode = b.internalCode
  errorReason : a.errorReason = b.errorReason
  completedAt : a.completedAt = b.completedAt

/-- The same entry of a log. -/
structure JobEvent.Alike (a b : JobEvent) : Prop where
  sequence : a.sequence = b.sequence
  eventType : a.eventType = b.eventType
  attempt : a.attempt = b.attempt

/-- A row that no cleaner has claimed, and the object of the dictionary. -/
structure JobRow.Mirrored (row : JobRow) (job : Job) : Prop where
  unclaimed : row.claim = none
  alike : (row.toJob job.id).Alike job

/-- The dictionaries hold what the tables hold. -/
structure Mirrors (w : World) (m : InMemory) : Prop where
  jobs : ∀ id, Option.Rel JobRow.Mirrored (w.jobs id) (m.get id)
  events : ∀ id, m.events id = w.events id
  ids : (m.items.map Job.id).Nodup
  used : ∀ job ∈ m.items, job.id < w.nextId
  keys : ∀ a ∈ m.items, ∀ b ∈ m.items, a.ownerId = b.ownerId → a.idempotencyKey = b.idempotencyKey →
    a.idempotencyKey.isSome = true → a = b

namespace InMemory

variable {m : InMemory} {job new : Job} {event : JobEvent} {id : Id} {row : JobRow}

theorem get_some (found : m.get id = some job) : job ∈ m.items ∧ job.id = id := by
  have here := List.find?_some found
  exact ⟨List.mem_of_find?_eq_some found, by simpa using here⟩

theorem find?_of_mem {items : List Job} (ids : (items.map Job.id).Nodup) (member : job ∈ items) :
    items.find? (·.id = job.id) = some job := by
  induction items with
  | nil => cases member
  | cons first rest ih =>
    obtain ⟨apart, ids⟩ := List.nodup_cons.mp ids
    rcases List.mem_cons.mp member with rfl | later
    · simp
    · have other : first.id ≠ job.id := by
        intro same
        exact apart (same ▸ List.mem_map_of_mem later)
      rw [List.find?_cons_of_neg (by simpa using other)]
      exact ih ids later

theorem find?_replaced (items : List Job) (new : Job) (id : Id) :
    (items.map fun item => if item.id = new.id then new else item).find? (·.id = id) =
      if id = new.id then (items.find? (·.id = id)).map fun _ => new else items.find? (·.id = id) := by
  induction items with
  | nil => simp
  | cons first rest ih =>
    rw [List.map_cons, List.find?_cons, List.find?_cons, ih]
    by_cases replaced : first.id = new.id
    · by_cases here : id = new.id
      · simp [replaced, here]
      · have apart : ¬ new.id = id := fun same => here same.symm
        simp [replaced, here, apart]
    · by_cases here : first.id = id
      · have apart : ¬ id = new.id := fun same => replaced (here.trans same)
        simp [here, apart]
      · simp [replaced, here]

theorem replaced_ids (items : List Job) (new : Job) :
    (items.map fun item => if item.id = new.id then new else item).map Job.id = items.map Job.id := by
  rw [List.map_map]
  refine List.map_congr_left ?_
  intro item _
  by_cases same : item.id = new.id <;> simp [same]

@[simp] theorem append_items : (m.append event).2.items = m.items := by
  unfold append
  dsimp only
  split <;> rfl

@[simp] theorem append_get : (m.append event).2.get id = m.get id := by
  rw [get, get, append_items]

/-- Both logs take the event, or have it. -/
theorem append_agrees (same : m.events event.jobId = row.events) (next : row.nextSequence = row.events.length + 1) :
    (row.append event).1.Alike (m.append event).1 ∧
      (m.append event).2.events = Function.update m.events event.jobId (row.append event).2.events := by
  unfold append JobRow.append JobRow.terminalEvent?
  rw [same]
  generalize found : (if event.eventType.terminal = true then
    row.events.find? fun item => decide (item.eventType = event.eventType ∧ item.attempt = event.attempt)
    else none) = existing
  cases existing with
  | none => exact ⟨⟨by rw [next], rfl, rfl⟩, by rw [next]⟩
  | some existing =>
    have here : event.eventType.terminal = true ∧ row.events.find? (fun item =>
        decide (item.eventType = event.eventType ∧ item.attempt = event.attempt)) = some existing := by
      split at found
      · rename_i last
        exact ⟨last, found⟩
      · cases found
    have fits := List.find?_some here.2
    simp only [decide_eq_true_eq] at fits
    obtain ⟨type, attempt⟩ := fits
    exact ⟨⟨rfl, type.symm, attempt.symm⟩, by rw [← same, Function.update_eq_self]⟩

end InMemory

namespace Mirrors

variable {w w' : World} {m : InMemory} {job stored : Job} {event : JobEvent} {id ownerId : Id} {row row' : JobRow}
  {days : Nat} {origin : Option Site} {type : EventType} {e : Exc} {key : String}

theorem congr (mirrors : Mirrors w m) (jobs : w'.jobs = w.jobs) (ids : w.nextId ≤ w'.nextId) : Mirrors w' m where
  jobs id := jobs ▸ mirrors.jobs id
  events id := by
    rw [mirrors.events, World.events, World.events, jobs]
  ids := mirrors.ids
  used job member := (mirrors.used job member).trans_le ids
  keys := mirrors.keys

theorem empty (none : ∀ id, w.jobs id = none) : Mirrors w {} where
  jobs id := by
    rw [none]
    exact .none
  events id := by simp [World.events, none]
  ids := by simp
  used := by simp
  keys := by simp

/-- A row has its object. -/
theorem object (mirrors : Mirrors w m) (found : w.jobs id = some row) :
    ∃ job, m.get id = some job ∧ job ∈ m.items ∧ job.id = id ∧ row.Mirrored job := by
  have both := mirrors.jobs id
  rw [found] at both
  cases there : m.get id with
  | none =>
    rw [there] at both
    cases both
  | some job =>
    rw [there] at both
    cases both with
    | some mirrored =>
      obtain ⟨member, here⟩ := InMemory.get_some there
      exact ⟨job, rfl, member, here, mirrored⟩

/-- An object has its row. -/
theorem stored_row (mirrors : Mirrors w m) (member : job ∈ m.items) :
    ∃ row, w.jobs job.id = some row ∧ row.Mirrored job := by
  have both := mirrors.jobs job.id
  have there : m.get job.id = some job := InMemory.find?_of_mem mirrors.ids member
  rw [there] at both
  cases found : w.jobs job.id with
  | none =>
    rw [found] at both
    cases both
  | some row =>
    rw [found] at both
    cases both with
    | some mirrored => exact ⟨row, rfl, mirrored⟩

theorem unclaimed (mirrors : Mirrors w m) (found : w.jobs id = some row) : row.claim = none := by
  obtain ⟨job, -, -, -, mirrored⟩ := mirrors.object found
  exact mirrored.unclaimed

theorem absent (mirrors : Mirrors w m) (gone : w.jobs id = none) : m.get id = none := by
  have both := mirrors.jobs id
  rw [gone] at both
  cases there : m.get id with
  | none => rfl
  | some job =>
    rw [there] at both
    cases both

/-- Both stores find the same job. -/
theorem get (mirrors : Mirrors w m) : Option.Rel Job.Alike (w.getJob id) (m.get id) := by
  cases found : w.jobs id with
  | none =>
    rw [mirrors.absent found, World.getJob, found]
    exact .none
  | some row =>
    obtain ⟨job, there, -, rfl, mirrored⟩ := mirrors.object found
    rw [there, World.getJob, found]
    simp only [mirrored.unclaimed, Option.isSome_none, Bool.false_eq_true, if_false]
    exact .some mirrored.alike

/-! ### Saves -/

/-- A job that is refused by one store is refused by the other. -/
theorem refused (mirrors : Mirrors w m) (found : w.jobs job.id = some row) (failed : row.save job days = .error e)
    (usual : e.isOther = false) : m.saveWithEvent job event = .error e := by
  obtain ⟨stored, there, -, same, mirrored⟩ := mirrors.object found
  have revision : row.revision = stored.revision := mirrored.alike.revision
  unfold JobRow.save at failed
  split at failed
  · rename_i conflict
    cases failed
    have other : stored.revision ≠ job.revision := by
      rcases conflict with claimed | other
      · rw [mirrored.unclaimed] at claimed
        cases claimed
      · rwa [← revision]
    simp only [InMemory.saveWithEvent, there, if_pos other]
  · split at failed
    · cases failed
      cases usual
    · split at failed
      · cases failed
        cases usual
      · cases failed

/-- The object that takes the place of the one that was saved. -/
theorem replaced (mirrors : Mirrors w m) (found : w.jobs job.id = some row) (saved : row'.Mirrored job)
    (birth : row'.birth = row.birth) (events : Id → List JobEvent)
    (logs : ∀ id, events id = (w.setJob job.id (some row')).events id) :
    Mirrors (w.setJob job.id (some row'))
      ⟨m.items.map fun item => if item.id = job.id then job else item, events⟩ := by
  obtain ⟨stored, there, member, same, mirrored⟩ := mirrors.object found
  have alike : stored.birth = job.birth := by
    rw [← saved.alike.birth, ← mirrored.alike.birth]
    exact birth.symm
  have older : ∀ item ∈ m.items.map (fun item => if item.id = job.id then job else item),
      ∃ old ∈ m.items, old.id = item.id ∧ old.birth = item.birth ∧ (old.id = job.id → item = job) ∧
        (old.id ≠ job.id → item = old) := by
    intro item memberItem
    obtain ⟨old, memberOld, rfl⟩ := List.mem_map.mp memberItem
    by_cases here : old.id = job.id
    · have own : old = stored := by
        have first : m.get old.id = some old := InMemory.find?_of_mem mirrors.ids memberOld
        rw [here, there] at first
        exact (Option.some.inj first).symm
      have born : old.birth = job.birth := own ▸ alike
      exact ⟨old, memberOld, by simp [here], by rw [if_pos here, born], by simp [here], by simp [here]⟩
    · exact ⟨old, memberOld, by simp [here], by simp [here], by simp [here], by simp [here]⟩
  refine ⟨?_, logs, ?_, ?_, ?_⟩
  · intro id
    rw [InMemory.get, InMemory.find?_replaced, World.setJob_jobs]
    by_cases here : id = job.id
    · rw [if_pos here, if_pos here]
      change Option.Rel _ _ ((m.get id).map _)
      rw [here, there]
      exact .some saved
    · rw [if_neg here, if_neg here]
      exact mirrors.jobs id
  · rw [InMemory.replaced_ids]
    exact mirrors.ids
  · intro item memberItem
    obtain ⟨old, memberOld, ids, -⟩ := older item memberItem
    exact ids ▸ mirrors.used old memberOld
  · intro a memberA b memberB owner key some
    obtain ⟨oldA, inA, idA, birthA, savedA, keptA⟩ := older a memberA
    obtain ⟨oldB, inB, idB, birthB, savedB, keptB⟩ := older b memberB
    have owners : oldA.ownerId = oldB.ownerId :=
      (congrArg Birth.ownerId birthA).trans (owner.trans (congrArg Birth.ownerId birthB).symm)
    have keyA : oldA.idempotencyKey = a.idempotencyKey := congrArg Birth.idempotencyKey birthA
    have keyB : oldB.idempotencyKey = b.idempotencyKey := congrArg Birth.idempotencyKey birthB
    have one : oldA = oldB := mirrors.keys oldA inA oldB inB owners (keyA.trans (key.trans keyB.symm)) (keyA ▸ some)
    subst one
    by_cases here : oldA.id = job.id
    · rw [savedA here, savedB here]
    · rw [keptA here, keptB here]

/-- The logs after one more event of a job. -/
theorem logged (mirrors : Mirrors w m) (events : Id → List JobEvent)
    (added : events = Function.update m.events id row'.events) :
    ∀ other, events other = (w.setJob id (some row')).events other := by
  intro other
  rw [added, Function.update_apply, World.events, World.setJob_jobs]
  by_cases here : other = id
  · rw [if_pos here, if_pos here, Option.elim_some]
  · rw [if_neg here, if_neg here]
    exact mirrors.events other

/-- A job that is saved in one store is saved in the other. -/
theorem saved (mirrors : Mirrors w m) (found : w.jobs job.id = some row) (done : row.save job days = .ok row')
    (tidy : row.Tidy) (edit : Edit origin row.version type job.version) (birth : job.birth = row.birth)
    (next : row.nextSequence = row.events.length + 1) (own : event.jobId = job.id) :
    ∃ saved m', m.saveWithEvent job event = .ok (saved, m') ∧ row'.revision = saved.1 ∧
      (row'.append event).1.Alike saved.2 ∧ Mirrors (w.setJob job.id (some (row'.append event).2)) m' := by
  obtain ⟨stored, there, -, same, mirrored⟩ := mirrors.object found
  have saves := JobRow.save_ok done
  have revision : stored.revision = job.revision := mirrored.alike.revision.symm.trans saves.revision
  have holds : (row'.append event).2.Holds { job with revision := row.revision + 1 } :=
    (JobRow.save_holds done tidy edit).append
  have born : (row'.append event).2.birth = row.birth := by
    rw [JobRow.append_birth]
    exact saves.birth (congrArg Birth.options birth)
  let candidate : Job := { job with revision := job.revision + 1 }
  let replacing : InMemory := { m with items := m.items.map fun item => if item.id = job.id then candidate else item }
  have log : replacing.events event.jobId = row'.events := by
    rw [saves.events, own]
    change m.events job.id = row.events
    rw [mirrors.events, World.events, found, Option.elim_some]
  have later : row'.nextSequence = row'.events.length + 1 := by
    rw [JobRow.nextSequence, saves.events]
    exact next
  obtain ⟨alike, added⟩ := InMemory.append_agrees log later
  have stays : (row'.append event).2.Mirrored candidate := by
    refine ⟨?_, ⟨rfl, ?_, ?_, ?_, holds.requestId, holds.lastInternalCode, holds.lastErrorReason, holds.finishedAt⟩⟩
    · rw [JobRow.append_claim]
      exact saves.claim
    · have raised : (row'.append event).2.revision = row.revision + 1 := holds.revision
      exact raised.trans (congrArg (· + 1) saves.revision)
    · rw [JobRow.version_toJob]
      exact holds.version
    · rw [JobRow.birth_toJob]
      exact born.trans birth.symm
  refine ⟨(candidate.revision, (replacing.append event).1), (replacing.append event).2, ?_, ?_, alike, ?_⟩
  · have current : ¬ stored.revision ≠ job.revision := not_not.mpr revision
    simp only [InMemory.saveWithEvent, there, if_neg current]
    rfl
  · exact saves.next.trans (congrArg (· + 1) saves.revision)
  · have parts : (replacing.append event).2 = ⟨replacing.items, (replacing.append event).2.events⟩ := by
      rw [← InMemory.append_items]
    have here : w.jobs candidate.id = some row := found
    rw [parts]
    exact mirrors.replaced here stays born _ (mirrors.logged _ (own ▸ added))

/-! ### New jobs -/

/-- The jobs of a kind that a query finds are those in the dictionary. -/
theorem mem_jobIds (mirrors : Mirrors w m) {p : JobRow → Bool} {q : Job → Bool}
    (kind : ∀ row job, row.Mirrored job → p row = q job) :
    id ∈ w.jobIds p ↔ id ∈ (m.items.filter q).map Job.id := by
  simp only [World.jobIds, List.mem_filter, List.mem_range, List.mem_map]
  constructor
  · intro ⟨_, fits⟩
    obtain ⟨row, found, own⟩ := (Option.any_eq_true _ _).mp fits
    obtain ⟨job, -, member, same, mirrored⟩ := mirrors.object found
    exact ⟨job, ⟨member, kind row job mirrored ▸ own⟩, same⟩
  · rintro ⟨job, ⟨member, own⟩, rfl⟩
    obtain ⟨row, found, mirrored⟩ := mirrors.stored_row member
    refine ⟨mirrors.used job member, ?_⟩
    rw [found, Option.any_some, kind row job mirrored]
    exact own

/-- Both stores find the one job of a key. -/
theorem byKey (mirrors : Mirrors w m) :
    w.findIdByIdempotencyKey ownerId key = (m.findByIdempotencyKey ownerId key).map Job.id := by
  have kind : ∀ (row : JobRow) (job : Job), row.Mirrored job →
      decide (row.apiKeyId = ownerId ∧ row.idempotencyKey = some key) =
        decide (job.ownerId = ownerId ∧ job.idempotencyKey = some key) := by
    intro row job mirrored
    have birth : row.birth = job.birth := mirrored.alike.birth
    have owner : row.apiKeyId = job.ownerId := congrArg Birth.ownerId birth
    have keys : row.idempotencyKey = job.idempotencyKey := congrArg Birth.idempotencyKey birth
    rw [owner, keys]
  have members : ∀ id, id ∈ w.jobIds (fun row => decide (row.apiKeyId = ownerId ∧ row.idempotencyKey = some key)) ↔
      id ∈ (m.items.filter fun item => decide (item.ownerId = ownerId ∧ item.idempotencyKey = some key)).map Job.id :=
    fun id => mirrors.mem_jobIds kind
  unfold World.findIdByIdempotencyKey InMemory.findByIdempotencyKey
  rw [← List.head?_filter, ← List.head?_map]
  have one : ∀ a ∈ m.items.filter (fun item => decide (item.ownerId = ownerId ∧ item.idempotencyKey = some key)),
      ∀ b ∈ m.items.filter (fun item => decide (item.ownerId = ownerId ∧ item.idempotencyKey = some key)), a = b := by
    intro a memberA b memberB
    obtain ⟨inA, ownA⟩ := List.mem_filter.mp memberA
    obtain ⟨inB, ownB⟩ := List.mem_filter.mp memberB
    obtain ⟨ownerA, keyA⟩ := of_decide_eq_true ownA
    obtain ⟨ownerB, keyB⟩ := of_decide_eq_true ownB
    exact mirrors.keys a inA b inB (ownerA.trans ownerB.symm) (keyA.trans keyB.symm) (by simp [keyA])
  cases first : (w.jobIds fun row => decide (row.apiKeyId = ownerId ∧ row.idempotencyKey = some key)) with
  | nil =>
    cases last : m.items.filter fun item => decide (item.ownerId = ownerId ∧ item.idempotencyKey = some key) with
    | nil => rfl
    | cons job rest =>
      have here : job.id ∈ (w.jobIds fun row => decide (row.apiKeyId = ownerId ∧ row.idempotencyKey = some key)) := by
        rw [members, last]
        simp
      rw [first] at here
      cases here
  | cons id rest =>
    have here : id ∈ (w.jobIds fun row => decide (row.apiKeyId = ownerId ∧ row.idempotencyKey = some key)) := by
      rw [first]
      simp
    rw [members] at here
    obtain ⟨job, member, same⟩ := List.mem_map.mp here
    cases last : m.items.filter fun item => decide (item.ownerId = ownerId ∧ item.idempotencyKey = some key) with
    | nil =>
      rw [last] at member
      cases member
    | cons other others =>
      have equal : other = job := one other (by rw [last]; simp) job member
      rw [List.head?_cons, List.map_cons, List.head?_cons, equal, same]

/-- The key of a job is free in both stores, or in none. -/
theorem taken (mirrors : Mirrors w m) (filled : job.idempotencyKey ≠ some "") :
    ((job.idempotencyKey.filter (· ≠ "")).any fun key =>
      m.items.any fun item => item.ownerId = job.ownerId ∧ item.idempotencyKey = some key) =
        job.idempotencyKey.any fun key => (w.findIdByIdempotencyKey job.ownerId key).isSome := by
  cases keyed : job.idempotencyKey with
  | none => rfl
  | some key =>
    have some : key ≠ "" := by
      intro blank
      exact filled (keyed.trans (congrArg Option.some blank))
    simp only [Option.filter_some, some, ne_eq, not_false_eq_true, decide_true, if_true, Option.any_some]
    rw [mirrors.byKey, Option.isSome_map, InMemory.findByIdempotencyKey, List.isSome_find?]

/-- A new job is added to both stores. -/
theorem inserted (days : Nat) (mirrors : Mirrors w m) (gone : w.jobs job.id = none) (new : job.New)
    (blank : job.completedAt = none ∧ job.internalCode = 0) (drawn : job.id < w.nextId)
    (filled : job.idempotencyKey ≠ some "")
    (free : ¬ (job.idempotencyKey.any fun key => (w.findIdByIdempotencyKey job.ownerId key).isSome) = true)
    (own : event.jobId = job.id) :
    ∃ saved m', m.addWithOutboxAndEvent job event = .ok (saved, m') ∧
      ((JobRow.insert job days).append event).1.Alike saved ∧
      Mirrors (w.setJob job.id (some ((JobRow.insert job days).append event).2)) m' := by
  have nowhere := mirrors.absent gone
  let added : InMemory := { m with items := m.items ++ [job] }
  have log : added.events event.jobId = (JobRow.insert job days).events := by
    rw [own]
    change m.events job.id = []
    rw [mirrors.events, World.events, gone, Option.elim_none]
  obtain ⟨alike, appended⟩ := InMemory.append_agrees log rfl
  have mirrored : ((JobRow.insert job days).append event).2.Mirrored job := by
    refine ⟨?_, ?_⟩
    · rw [JobRow.append_claim]
      rfl
    · rw [JobRow.append_toJob]
      refine ⟨rfl, new.revision.symm, ?_, rfl, rfl, blank.2.symm, rfl, blank.1.symm⟩
      rw [JobRow.version_toJob, JobRow.insert_version new]
      simp [Job.version, new.state, new.attempt, new.pages, new.artifacts]
  have apart : ∀ item ∈ m.items, item.id ≠ job.id := by
    intro item member same
    obtain ⟨row, found, -⟩ := mirrors.stored_row member
    rw [same, gone] at found
    cases found
  have unshared : ∀ item ∈ m.items, item.ownerId = job.ownerId → item.idempotencyKey = job.idempotencyKey →
      item.idempotencyKey.isSome ≠ true := by
    intro item member owner key some
    rw [← mirrors.taken filled] at free
    obtain ⟨text, keyed⟩ := Option.isSome_iff_exists.mp some
    refine free ?_
    have mine : job.idempotencyKey = Option.some text := key.symm.trans keyed
    have filled : text ≠ "" := by
      intro blank
      exact filled (mine.trans (congrArg Option.some blank))
    simp only [mine, Option.filter_some, filled, ne_eq, not_false_eq_true, decide_true, if_true, Option.any_some]
    exact List.any_eq_true.mpr ⟨item, member, by simp [owner, keyed]⟩
  refine ⟨(added.append event).1, (added.append event).2, ?_, alike, ?_⟩
  · have unused : m.add job = .ok added := by
      rw [InMemory.add, nowhere, mirrors.taken filled]
      simp only [Option.isSome_none, Bool.false_eq_true, if_false, if_neg free]
      rfl
    rw [InMemory.addWithOutboxAndEvent, unused]
    rfl
  · refine ⟨?_, ?_, ?_, ?_, ?_⟩
    · intro id
      rw [InMemory.append_get, World.setJob_jobs]
      change Option.Rel _ _ ((m.items ++ [job]).find? _)
      rw [List.find?_append]
      by_cases here : id = job.id
      · have none : m.items.find? (·.id = id) = Option.none := here ▸ nowhere
        rw [if_pos here, none, Option.none_or]
        simp only [List.find?_cons, here, decide_true]
        exact .some mirrored
      · have other : ¬ job.id = id := fun same => here same.symm
        rw [if_neg here]
        simp only [List.find?_cons, List.find?_nil, other, decide_false, Option.or_none]
        exact mirrors.jobs id
    · exact mirrors.logged _ (own ▸ appended)
    · rw [InMemory.append_items]
      change ((m.items ++ [job]).map Job.id).Nodup
      rw [List.map_append, List.map_singleton]
      refine List.nodup_append.mpr ⟨mirrors.ids, List.nodup_singleton _, ?_⟩
      intro id member other same
      obtain ⟨item, inside, rfl⟩ := List.mem_map.mp member
      cases List.mem_singleton.mp same
      exact apart item inside
    · intro item member
      rw [InMemory.append_items] at member
      rcases List.mem_append.mp member with old | last
      · exact mirrors.used item old
      · cases List.mem_singleton.mp last
        exact drawn
    · rw [InMemory.append_items]
      intro a memberA b memberB owner key some
      rcases List.mem_append.mp memberA with oldA | lastA
      · rcases List.mem_append.mp memberB with oldB | lastB
        · exact mirrors.keys a oldA b oldB owner key some
        · cases List.mem_singleton.mp lastB
          exact absurd some (unshared a oldA owner key)
      · cases List.mem_singleton.mp lastA
        rcases List.mem_append.mp memberB with oldB | lastB
        · exact absurd (key ▸ some) (unshared b oldB owner.symm key.symm)
        · cases List.mem_singleton.mp lastB
          rfl

/-- A key that is taken in one store is taken in the other. -/
theorem duplicate (mirrors : Mirrors w m) (gone : w.jobs job.id = none) (filled : job.idempotencyKey ≠ some "")
    (taken : (job.idempotencyKey.any fun key => (w.findIdByIdempotencyKey job.ownerId key).isSome) = true) :
    m.addWithOutboxAndEvent job event = .error .duplicateIdempotencyKey := by
  have refused : m.add job = .error .duplicateIdempotencyKey := by
    rw [InMemory.add, mirrors.absent gone, mirrors.taken filled, taken]
    rfl
  rw [InMemory.addWithOutboxAndEvent, refused]
  rfl

/-! ### Logs and lists -/

/-- An event that is appended to one log is appended to the other. -/
theorem appended (mirrors : Mirrors w m) (found : w.jobs event.jobId = some row)
    (next : row.nextSequence = row.events.length + 1) :
    (row.append event).1.Alike (m.append event).1 ∧
      Mirrors (w.setJob event.jobId (some (row.append event).2)) (m.append event).2 := by
  have log : m.events event.jobId = row.events := by
    rw [mirrors.events, World.events, found, Option.elim_some]
  obtain ⟨alike, added⟩ := InMemory.append_agrees log next
  refine ⟨alike, ?_, mirrors.logged _ added, ?_, ?_, ?_⟩
  · intro id
    rw [InMemory.append_get, World.setJob_jobs]
    by_cases here : id = event.jobId
    · obtain ⟨job, there, -, -, mirrored⟩ := mirrors.object found
      rw [if_pos here, here, there]
      refine .some ⟨?_, ?_⟩
      · rw [JobRow.append_claim]
        exact mirrored.unclaimed
      · rw [JobRow.append_toJob]
        exact mirrored.alike
    · rw [if_neg here]
      exact mirrors.jobs id
  · rw [InMemory.append_items]
    exact mirrors.ids
  · rw [InMemory.append_items]
    exact mirrors.used
  · rw [InMemory.append_items]
    exact mirrors.keys

theorem listAfter (mirrors : Mirrors w m) (sequence : Nat) :
    w.listAfter id sequence = (m.listAfter id sequence).take 100 := by
  rw [World.listAfter, InMemory.listAfter, mirrors.events]

/-- The jobs of an owner, in either store. -/
theorem owned (mirrors : Mirrors w m) :
    (w.jobIds fun row => row.apiKeyId = ownerId ∧ row.claim.isNone).Perm
      ((m.items.filter fun job => job.ownerId = ownerId).map Job.id) := by
  have kind : ∀ (row : JobRow) (job : Job), row.Mirrored job →
      decide (row.apiKeyId = ownerId ∧ row.claim.isNone = true) = decide (job.ownerId = ownerId) := by
    intro row job mirrored
    have birth : row.birth = job.birth := mirrored.alike.birth
    have owner : row.apiKeyId = job.ownerId := congrArg Birth.ownerId birth
    rw [owner, mirrored.unclaimed]
    simp
  have distinct : (w.jobIds fun row => row.apiKeyId = ownerId ∧ row.claim.isNone).Nodup := List.nodup_range.filter _
  have unique : ((m.items.filter fun job => job.ownerId = ownerId).map Job.id).Nodup :=
    mirrors.ids.sublist (List.filter_sublist.map Job.id)
  exact (List.perm_ext_iff_of_nodup distinct unique).mpr fun id => mirrors.mem_jobIds kind

/-- Both stores count the same jobs. -/
theorem counted (mirrors : Mirrors w m) : w.countJobs ownerId = (m.list ownerId 0 0).2 := by
  have items := List.perm_insertionSort (fun a b : Job => b.createdAt ≤ a.createdAt)
    (m.items.filter fun job => job.ownerId = ownerId)
  have same : (w.jobIds fun row => row.apiKeyId = ownerId ∧ row.claim.isNone).length = _ := mirrors.owned.length_eq
  rw [List.length_map] at same
  exact same.trans items.length_eq.symm

/-- Both stores list the same jobs, if no two were created at the same time. -/
theorem listed (mirrors : Mirrors w m) (offset limit : Nat)
    (dated : ((w.jobIds fun row => row.apiKeyId = ownerId).map fun id =>
      (w.jobs id).elim 0 JobRow.createdAt).Nodup) :
    w.listIds ownerId offset limit = (m.list ownerId offset limit).1.map Job.id := by
  let created : Id → Time := fun id => (w.jobs id).elim 0 JobRow.createdAt
  let items := m.items.filter fun job => job.ownerId = ownerId
  let ids := w.jobIds fun row => row.apiKeyId = ownerId ∧ row.claim.isNone
  have perm : ids.Perm (items.map Job.id) := mirrors.owned
  have time : ∀ job ∈ items, created job.id = job.createdAt := by
    intro job member
    obtain ⟨row, found, mirrored⟩ := mirrors.stored_row (List.mem_filter.mp member).1
    have birth : row.birth = job.birth := mirrored.alike.birth
    simp only [created, found, Option.elim_some]
    exact congrArg Birth.createdAt birth
  have all : ∀ id ∈ ids, id ∈ w.jobIds fun row => row.apiKeyId = ownerId := by
    intro id member
    obtain ⟨below, fits⟩ := List.mem_filter.mp member
    obtain ⟨row, found, own⟩ := (Option.any_eq_true _ _).mp fits
    have mine := (of_decide_eq_true own).1
    exact List.mem_filter.mpr ⟨below, by simp [found, mine]⟩
  have total : Std.Total fun a b : Id => created b ≤ created a := ⟨fun a b => Nat.le_total _ _⟩
  have trans : IsTrans Id fun a b => created b ≤ created a := ⟨fun a b c first last => last.trans first⟩
  have totalItems : Std.Total fun a b : Job => b.createdAt ≤ a.createdAt := ⟨fun a b => Nat.le_total _ _⟩
  have transItems : IsTrans Job fun a b => b.createdAt ≤ a.createdAt := ⟨fun a b c first last => last.trans first⟩
  have sorted := List.pairwise_insertionSort (fun a b : Id => created b ≤ created a) ids
  have sortedItems := List.pairwise_insertionSort (fun a b : Job => b.createdAt ≤ a.createdAt) items
  have permIds := List.perm_insertionSort (fun a b : Id => created b ≤ created a) ids
  have permItems := List.perm_insertionSort (fun a b : Job => b.createdAt ≤ a.createdAt) items
  have sortedMap : ((items.insertionSort fun a b => b.createdAt ≤ a.createdAt).map Job.id).Pairwise
      fun a b => created b ≤ created a := by
    rw [List.pairwise_map]
    refine sortedItems.imp_of_mem ?_
    intro a b memberA memberB earlier
    rw [time a (permItems.subset memberA), time b (permItems.subset memberB)]
    exact earlier
  have equal : ids.insertionSort (fun a b => created b ≤ created a) =
      (items.insertionSort fun a b => b.createdAt ≤ a.createdAt).map Job.id := by
    refine List.Perm.eq_of_pairwise ?_ sorted sortedMap ((permIds.trans perm).trans (permItems.map Job.id).symm)
    intro a b memberA memberB down up
    have here : a ∈ ids := permIds.subset memberA
    have there : b ∈ ids := perm.symm.subset ((permItems.map Job.id).subset memberB)
    exact List.inj_on_of_nodup_map dated (all a here) (all b there) (Nat.le_antisymm up down)
  change ((ids.insertionSort fun a b => created b ≤ created a).drop offset).take limit =
    (((items.insertionSort fun a b => b.createdAt ≤ a.createdAt).drop offset).take limit).map Job.id
  rw [equal, List.map_take, List.map_drop]

end Mirrors

end MonkeyOcr
