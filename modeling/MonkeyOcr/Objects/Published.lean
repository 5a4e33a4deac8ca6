import MonkeyOcr.Objects.Change
import MonkeyOcr.Objects.Writes

namespace MonkeyOcr

open Calls

/-- The object is there, with these hash and size. -/
def World.Stored (w : World) (key : ObjectKey) (sha256 : String) (sizeBytes : Nat) : Prop :=
  ∃ object, w.objects key = some object ∧ object.data.sha256 = sha256 ∧ object.data.sizeBytes = sizeBytes

/-- The keys of the objects whose hash or size the delivery has taken. -/
def Hashes.keys (m : Hashes) : List ObjectKey := m.puts.map Prod.fst ++ m.stats.map Prod.fst ++ m.reads.map Prod.fst

/-- A running delivery has taken the hash of the object, or an artifact of a job
names it. -/
def pinned (s : State) (key : ObjectKey) : Bool :=
  s.calls.any (fun call => running call && (hashesOf call).keys.contains key) ||
    !(s.world.jobIds fun row =>
      (row.artifacts row.currentAttempt).any fun artifact => artifact.objectKey = key).isEmpty

/-- The objects that a call puts next. -/
def putting (call : SystemCall) (choice : Choice) : List (ObjectKey × Content) :=
  match call.prog with
  | .call (.putBytes key data _) _ => [(key, data)]
  | .call (.prepare _ job) _ =>
    match choice.answer with
    | .prepared written _ => written.map fun object => (.page job.id job.attempt object.name, object.data)
    | _ => []
  | _ => []

/-- The object whose description a call asks for next. -/
def asking? (call : SystemCall) : Option ObjectKey :=
  match call.prog with
  | .call (.stat key) _ => some key
  | _ => none

/-- The hash that is recorded beside the object is that of its bytes. -/
def StoredContent.Truthful (object : StoredContent) : Prop :=
  ∀ sha256 ∈ object.metadataSha256, sha256 ≠ "" → object.data.sha256 = sha256

/-- Deliveries, and what clients do with the jobs they are for. -/
def Task.serves : Task → Bool
  | .runWorker .. | .runBatch .. | .completeUpload .. | .presignedPut .. => false
  | _ => true

/-- Only deliveries and requests about jobs are begun. -/
def Serves (_ : State) : Step → Prop
  | .start task => task.serves = true
  | _ => True

/-- No object that is relied on is replaced by other bytes. -/
def Spares (s : State) : Step → Prop
  | .resume i choice => ∀ call ∈ s.calls[i]?, (∀ write ∈ putting call choice, pinned s write.1 = true →
      ∀ old ∈ s.world.objects write.1, write.2.bytes = old.data.bytes) ∧
    ∀ key ∈ asking? call, ∀ object ∈ s.world.objects key, object.Truthful
  | _ => True

instance (object : StoredContent) : Decidable object.Truthful :=
  inferInstanceAs (Decidable (∀ sha256 ∈ object.metadataSha256, sha256 ≠ "" → object.data.sha256 = sha256))

instance (s : State) : ∀ action, Decidable (Serves s action)
  | .start task => inferInstanceAs (Decidable (task.serves = true))
  | .resume .. | .kill _ | .env _ => isTrue trivial

instance (s : State) : ∀ action, Decidable (Spares s action)
  | .resume i choice => inferInstanceAs (Decidable (∀ call ∈ s.calls[i]?, (∀ write ∈ putting call choice,
      pinned s write.1 = true → ∀ old ∈ s.world.objects write.1, write.2.bytes = old.data.bytes) ∧
    ∀ key ∈ asking? call, ∀ object ∈ s.world.objects key, object.Truthful))
  | .start _ | .kill _ | .env _ => isTrue trivial

/-- What the delivery has taken of its objects is still true of them. -/
structure Hashes.Hold (m : Hashes) (w : World) : Prop where
  puts : ∀ entry ∈ m.puts, w.Stored entry.1 entry.2.sha256 entry.2.sizeBytes
  stats : ∀ entry ∈ m.stats, ∃ object, w.objects entry.1 = some object ∧
    object.data.sizeBytes = entry.2.sizeBytes ∧
    ∀ sha256, entry.2.sha256 = some sha256 → sha256 ≠ "" → object.data.sha256 = sha256
  reads : ∀ entry ∈ m.reads, ∃ object, w.objects entry.1 = some object ∧ object.data.sha256 = entry.2.sha256

/-- All that deliveries have taken of objects, and all that was published, is
true. -/
structure Published (s : State) : Prop where
  tasks : ∀ call ∈ s.calls, call.task.serves = true
  hashes : ∀ call ∈ s.calls, running call = true → (hashesOf call).Hold s.world
  published : ∀ id row, s.world.jobs id = some row → ∀ artifact ∈ row.artifacts row.currentAttempt,
    s.world.Stored artifact.objectKey artifact.sha256 artifact.sizeBytes

section

variable {settings : Settings} {first s s' : State} {action : Step} {call : SystemCall} {op : Op} {id : Id}
  {row : JobRow} {m : Hashes} {i : Nat} {choice : Choice} {r : Except Exc op.Val} {w w' : World}
  {next : Except Exc op.Val → Program Reply} {key : ObjectKey} {old : StoredContent} {artifact : Artifact}

theorem Hashes.Hold.took (hold : m.Hold w) (took : m.Took artifact) :
    w.Stored artifact.objectKey artifact.sha256 artifact.sizeBytes := by
  cases took with
  | put put sha256 size =>
    rw [sha256, size]
    exact hold.puts _ put
  | recorded seen sha256 filled size =>
    obtain ⟨object, there, sized, hashed⟩ := hold.stats _ seen
    exact ⟨object, there, hashed _ sha256 filled, sized.trans size.symm⟩
  | read seen read sha256 size =>
    obtain ⟨object, there, sized, -⟩ := hold.stats _ seen
    obtain ⟨object', there', hashed⟩ := hold.reads _ read
    cases Option.some.inj (there.symm.trans there')
    exact ⟨object, there, hashed.trans sha256.symm, sized.trans size.symm⟩

theorem Content.same_sha256 {data data' : Content} (same : data.bytes = data'.bytes) : data.sha256 = data'.sha256 := by
  rw [Content.sha256, Content.sha256, same]

theorem Content.same_size {data data' : Content} (same : data.bytes = data'.bytes) :
    data.sizeBytes = data'.sizeBytes := by
  rw [Content.sizeBytes, Content.sizeBytes, same]

/-- A call that deletes objects, or puts a document. -/
def Op.foreign : Op → Bool
  | .deleteObject _ | .presignedPut .. => true
  | _ => false

theorem Task.keepsObjects {task : Task} {m : Memory} (serves : task.serves = true) (allowed : task.contract.allow m op) :
    op.foreign = false := by
  cases op with
  | deleteObject =>
    cases task with
    | process =>
      obtain ⟨_, -, calls⟩ := allowed
      exact calls.elim
    | runWorker => cases serves
    | runBatch => cases serves
    | _ => exact allowed.elim
  | presignedPut =>
    cases task with
    | process =>
      obtain ⟨_, -, calls⟩ := allowed
      exact calls.elim
    | runWorker => cases serves
    | presignedPut => cases serves
    | _ => exact allowed.elim
  | _ => rfl

theorem Task.serves_completes {task : Task} (serves : task.serves = true) : task.completes = false := by
  cases task with
  | completeUpload => cases serves
  | _ => rfl

/-- Every object that is relied on keeps its bytes. -/
theorem Spares.object (owners : Owners s) (tasks : ∀ call ∈ s.calls, call.task.serves = true)
    (spares : Spares s action) (moves : Moves settings s action s') (relied : pinned s key = true)
    (there : s.world.objects key = some old) :
    ∃ object, s'.world.objects key = some object ∧ object.data.bytes = old.data.bytes := by
  cases moves with
  | start => exact ⟨old, there, rfl⟩
  | kill => exact ⟨old, there, rfl⟩
  | env event =>
    rw [World.rebalance_kafka]
    exact ⟨old, there, rfl⟩
  | @resume i choice moved op r next w at_i prog executed allowed =>
    have here := List.mem_of_getElem? at_i
    have serves := tasks moved here
    have puts := (spares moved at_i).1
    have change := World.exec_objects executed key
    rw [there] at change
    cases after : w.objects key with
    | none =>
      rw [after] at change
      cases change with
      | deleted deletes =>
        subst deletes
        cases Task.keepsObjects serves allowed
    | some object =>
      refine ⟨object, rfl, ?_⟩
      rw [after] at change
      cases change with
      | same => rfl
      | put writes =>
        subst writes
        exact puts (key, _) (by simp [putting, prog]) relied old there
      | @prepared upload job written result object writes answer member own =>
        subst writes own
        refine puts (.page job.id job.attempt object.name, object.data) ?_ relied old there
        simp only [putting, prog, answer]
        exact List.mem_map.mpr ⟨object, member, rfl⟩
      | uploaded uploads =>
        subst uploads
        cases Task.keepsObjects serves allowed
      | assembled assembles =>
        subst assembles
        obtain ⟨ownerId, owner⟩ := Task.contract_owner allowed rfl
        obtain ⟨completing, -⟩ := (owners.accessing moved here).requests prog owner
        rw [Task.serves_completes serves] at completing
        cases completing

/-- The objects at these keys keep their bytes. -/
def World.Keeps (w w' : World) (keys : List ObjectKey) : Prop :=
  ∀ key ∈ keys, ∀ old, w.objects key = some old →
    ∃ object, w'.objects key = some object ∧ object.data.bytes = old.data.bytes

theorem World.Stored.kept {keys : List ObjectKey} {sha256 : String} {sizeBytes : Nat} (keeps : w.Keeps w' keys)
    (member : key ∈ keys) (stored : w.Stored key sha256 sizeBytes) : w'.Stored key sha256 sizeBytes := by
  obtain ⟨old, there, hashed, sized⟩ := stored
  obtain ⟨object, now, same⟩ := keeps key member old there
  exact ⟨object, now, (Content.same_sha256 same).trans hashed, (Content.same_size same).trans sized⟩

theorem Hashes.Hold.kept (hold : m.Hold w) (keeps : w.Keeps w' m.keys) : m.Hold w' where
  puts entry member := (hold.puts entry member).kept keeps
    (List.mem_append_left _ (List.mem_append_left _ (List.mem_map_of_mem member)))
  stats entry member := by
    obtain ⟨old, there, sized, hashed⟩ := hold.stats entry member
    obtain ⟨object, now, same⟩ := keeps entry.1
      (List.mem_append_left _ (List.mem_append_right _ (List.mem_map_of_mem member))) old there
    refine ⟨object, now, (Content.same_size same).trans sized, fun sha256 recorded filled => ?_⟩
    exact (Content.same_sha256 same).trans (hashed sha256 recorded filled)
  reads entry member := by
    obtain ⟨old, there, hashed⟩ := hold.reads entry member
    obtain ⟨object, now, same⟩ := keeps entry.1 (List.mem_append_right _ (List.mem_map_of_mem member)) old there
    exact ⟨object, now, (Content.same_sha256 same).trans hashed⟩

/-- What a delivery takes of an object is true when it takes it. -/
theorem Hashes.Hold.answered (hold : m.Hold w')
    (truthful : ∀ key, op = .stat key → ∀ object ∈ w.objects key, object.Truthful)
    (executed : World.exec settings i op choice w = some (r, w')) : (m.next op r).Hold w' := by
  cases op with
  | putBytes key data type =>
    cases key with
    | document job attempt file =>
      cases r with
      | error e => exact hold
      | ok stored =>
        obtain ⟨-, same⟩ := Prod.mk.inj (Option.some.inj (World.exec_ok executed))
        refine ⟨fun entry member => ?_, hold.stats, hold.reads⟩
        rcases List.mem_cons.mp member with rfl | before
        · rw [← same]
          exact ⟨_, (World.setObject_objects ..).trans (if_pos rfl), rfl, rfl⟩
        · exact hold.puts entry before
    | _ => exact hold
  | stat key =>
    rcases r with e | _ | info
    · exact hold
    · exact hold
    · obtain ⟨answer, same⟩ := Prod.mk.inj (Option.some.inj (World.exec_ok executed))
      obtain ⟨object, there, rfl⟩ := Option.map_eq_some_iff.mp (Except.ok.inj answer)
      subst same
      refine ⟨hold.puts, fun entry member => ?_, hold.reads⟩
      rcases List.mem_cons.mp member with rfl | before
      · exact ⟨object, there, rfl, fun sha256 recorded filled => truthful key rfl object there sha256 recorded filled⟩
      · exact hold.stats entry before
  | getBytes key =>
    cases r with
    | error e => exact hold
    | ok data =>
      have performed := World.exec_ok executed
      simp only [World.perform] at performed
      split at performed
      · rename_i object there
        cases performed
        simp only [Hashes.next]
        split
        · refine ⟨hold.puts, hold.stats, fun entry member => ?_⟩
          rcases List.mem_cons.mp member with rfl | before
          · exact ⟨object, there, rfl⟩
          · exact hold.reads entry before
        · exact hold
      · cases performed
  | _ => exact hold

/-- Artifacts are new with a success only. -/
theorem Edit.new_artifact {origin : Option Site} {v v' : Version} {type : EventType} (edit : Edit origin v type v')
    (member : artifact ∈ v'.artifacts) : type = .jobSucceeded ∨ artifact ∈ v.artifacts := by
  cases edit with
  | succeeded => exact .inl rfl
  | retrying => exact absurd member (Multiset.notMem_zero _)
  | _ => exact .inr member

/-- A success that is saved is a delivery's, with artifacts it has taken. -/
theorem Storing.publishes {job : Job} {event : JobEvent} (storing : Storing call) (serves : call.task.serves = true)
    (prog : call.prog = .call op next) (allowed : call.task.contract.allow (memoryOf call) op)
    (saves : op.saved? = some (job, event)) : (hashesOf call).Publishes event.eventType job := by
  intro succeeded
  cases op with
  | saveWithEvent saved event' =>
    cases saves
    rw [Storing, Tracks, prog] at storing
    obtain ⟨own, -⟩ := storing
    change call.task.storing.allow (hashesOf call) (.saveWithEvent job event) at own
    generalize call.task = task at own allowed serves
    cases task with
    | process turns message => exact own.2 succeeded
    | runWorker => cases serves
    | streamJobEvents => exact allowed.elim
    | dispatchOnce => exact allowed.elim
    | runBatch => exact allowed.elim
    | presignedPut => exact allowed.elim
    | _ =>
      obtain ⟨-, -, other⟩ := allowed
      rw [succeeded] at other
      rcases other with asked | ⟨cancelled, -⟩
      · cases asked
      · cases cancelled
  | saveWithOutboxAndEvent saved outboxEvent event' =>
    cases saves
    have writes := Task.contract_writes allowed
    rw [writes.2.2.1] at succeeded
    cases succeeded
  | _ => cases saves

theorem pinned_hash (member : call ∈ s.calls) (runs : running call = true) (taken : key ∈ (hashesOf call).keys) :
    pinned s key = true := by
  refine (Bool.or_eq_true _ _).mpr (.inl (List.any_eq_true.mpr ⟨call, member, ?_⟩))
  rw [runs, List.contains_iff_mem.mpr taken]
  rfl

theorem pinned_artifact (coherent : Coherent s) (stored : s.world.jobs id = some row)
    (member : artifact ∈ row.artifacts row.currentAttempt) : pinned s artifact.objectKey = true := by
  have drawn : id < s.world.nextId := by
    by_contra later
    exact coherent.consistent.stored_born stored (.inl (Nat.le_of_not_lt later))
  have named : (row.artifacts row.currentAttempt).any (fun other => other.objectKey = artifact.objectKey) = true :=
    List.any_eq_true.mpr ⟨artifact, member, decide_eq_true rfl⟩
  have listed : id ∈ s.world.jobIds fun row =>
      (row.artifacts row.currentAttempt).any fun other => other.objectKey = artifact.objectKey :=
    List.mem_filter.mpr ⟨List.mem_range.mpr drawn, by rw [stored]; exact named⟩
  refine (Bool.or_eq_true _ _).mpr (.inr ?_)
  rw [Bool.not_eq_true', List.isEmpty_eq_false_iff]
  exact List.ne_nil_of_mem listed

/-- The step lemma for the artifacts: they are kept, or taken by the delivery
that publishes them. -/
theorem Published.artifacts (coherent : Coherent s) (owners : Owners s) (storing : ∀ call ∈ s.calls, Storing call)
    (published : Published s) (spares : Spares s action) (moves : Moves settings s action s')
    (stored : s'.world.jobs id = some row) (member : artifact ∈ row.artifacts row.currentAttempt) :
    s'.world.Stored artifact.objectKey artifact.sha256 artifact.sizeBytes := by
  have keeps : ∀ keys : List ObjectKey, (∀ key ∈ keys, pinned s key = true) → s.world.Keeps s'.world keys :=
    fun keys relied key taken old there => spares.object owners published.tasks moves (relied key taken) there
  have kept : ∀ before, s.world.jobs id = some before → artifact ∈ before.artifacts before.currentAttempt →
      s'.world.Stored artifact.objectKey artifact.sha256 artifact.sizeBytes := by
    intro before found named
    refine (published.published id before found artifact named).kept (keeps [artifact.objectKey] ?_)
      (List.mem_singleton.mpr rfl)
    intro key here
    rw [List.mem_singleton.mp here]
    exact pinned_artifact coherent found named
  cases moves with
  | start => exact kept row stored member
  | kill => exact kept row stored member
  | env event =>
    rw [World.rebalance_kafka] at stored
    exact kept row stored member
  | @resume i choice call op r next w at_i prog executed allowed =>
    have here := List.mem_of_getElem? at_i
    have change := coherent.consistent.rows at_i (Task.contract_writes allowed) executed id
    rw [show w.jobs id = some row from stored] at change
    cases before : s.world.jobs id with
    | none =>
      rw [before] at change
      cases change with
      | inserted =>
        rw [JobRow.append_artifacts] at member
        cases member
    | some old =>
      rw [before] at change
      cases change with
      | same => exact kept _ before member
      | claimed => exact kept _ before member
      | deferred => exact kept _ before member
      | reported =>
        rw [JobRow.append_artifacts, JobRow.append_currentAttempt] at member
        exact kept _ before member
      | @saved _ saved origin v job event call' own seen adopts edits current saves reports =>
        have edit : Edit origin old.version event.eventType job.version := current ▸ edits.edit
        have version : ((saved.append event).2).version = job.version :=
          JobRow.append_version.trans (saves.version (coherent.consistent.tidy id old before) edit)
        have new : artifact ∈ job.version.artifacts := by
          rw [← version]
          exact member
        rcases edit.new_artifact new with succeeded | named
        · have publishes := (storing call here).publishes (published.tasks call here) prog allowed call' succeeded
          have hold := published.hashes call here (running_of prog)
          exact (hold.kept (keeps _ fun key taken => pinned_hash here (running_of prog) taken)).took
            (publishes.2 artifact new)
        · exact kept _ before named

theorem Published.step (coherent : Coherent s) (owners : Owners s) (storing : ∀ call ∈ s.calls, Storing call)
    (published : Published s) (serves : Serves s action) (spares : Spares s action)
    (moves : Moves settings s action s') : Published s' := by
  have keeps : ∀ call ∈ s.calls, running call = true → s.world.Keeps s'.world (hashesOf call).keys :=
    fun call member runs key taken old there =>
      spares.object owners published.tasks moves (pinned_hash member runs taken) there
  refine ⟨?_, ?_, fun id row stored artifact member =>
    published.artifacts coherent owners storing spares moves stored member⟩
  · cases moves with
    | start task =>
      intro call member
      rcases List.mem_append.mp member with before | new
      · exact published.tasks call before
      · cases List.mem_singleton.mp new
        exact serves
    | kill i =>
      intro call member
      rcases Machine.mem_modify_killed member with before | ⟨before, memberBefore, rfl⟩
      · exact published.tasks call before
      · exact published.tasks before memberBefore
    | env event => exact published.tasks
    | @resume i choice call op r next w at_i =>
      intro other member
      rcases Machine.mem_set_answered member with before | rfl
      · exact published.tasks other before
      · exact published.tasks call (List.mem_of_getElem? at_i)
  · cases moves with
    | start task =>
      intro call member runs
      rcases List.mem_append.mp member with before | new
      · exact published.hashes call before runs
      · cases List.mem_singleton.mp new
        exact ⟨nofun, nofun, nofun⟩
    | kill i =>
      intro call member runs
      rcases Machine.mem_modify_killed member with before | ⟨before, memberBefore, rfl⟩
      · exact published.hashes call before runs
      · cases runs
    | env event =>
      intro call member runs
      exact (published.hashes call member runs).kept (keeps call member runs)
    | @resume i choice call op r next w at_i prog executed allowed =>
      intro other member runs
      have here := List.mem_of_getElem? at_i
      rcases Machine.mem_set_answered member with before | rfl
      · exact (published.hashes other before runs).kept (keeps other before runs)
      · have hold := (published.hashes call here (running_of prog)).kept (keeps call here (running_of prog))
        refine hold.answered (fun key asks object there => ?_) executed
        subst asks
        exact (spares call at_i).2 key (by rw [asking?, prog]; rfl) object there

theorem Initial.published (initial : Initial s) : Published s := by
  refine ⟨by simp [initial.calls], by simp [initial.calls], fun id row stored => ?_⟩
  rw [initial.world.jobs] at stored
  cases stored

/-- As long as no delivery puts other bytes where another one has taken a hash
that it may still publish, or that is published, every artifact of a job that
succeeded is there with the hash and the size of its row. -/
theorem published_artifacts_true (initial : Initial first)
    (run : (system settings).Run (fun s action => Serves s action ∧ Spares s action) first s) :
    ∀ id row, s.world.jobs id = some row → row.status = .succeeded →
      ∀ artifact ∈ row.artifacts row.currentAttempt,
        s.world.Stored artifact.objectKey artifact.sha256 artifact.sizeBytes := by
  have none : ∀ call ∈ first.calls, Storing call := by simp [initial.calls]
  obtain ⟨-, -, -, published⟩ := initial.coherent.induction run
    (J := fun s => Owners s ∧ (∀ call ∈ s.calls, Storing call) ∧ Published s)
    ⟨initial.owners, none, initial.published⟩
    fun _ _ _ coherent ⟨owners, storing, published⟩ ⟨serves, spares⟩ moves =>
      ⟨owners.step coherent moves, moves.storing storing, published.step coherent owners storing serves spares moves⟩
  exact fun id row stored _ => published.published id row stored

end

/-- What the engine draws of a page. -/
def drawnResult (bytes : List (BitVec 8)) : OCRResult :=
  { markdown := "", structured := [], visualization := some bytes }

/-- The call `i` gets this recognition and saves the page. -/
def drawSteps (i : Nat) (bytes : List (BitVec 8)) : List Step :=
  answered i [{ answer := .recognized (drawnResult bytes) }, .go, .go, .go, .now, .go]

/-- The delivery `i` has its pages, and publishes the documents. -/
def publishSteps (i : Nat) : List Step :=
  answered i [.now, .now, .go, .go, .go, .go, .go, .go, .go, .go, .now, .go, .go, .go, .now, .now, .go]

/-- A delivery recognizes the only page and succeeds. -/
def succeedSteps : List Step := createSteps 0 ++ deliverSteps 1 ++ drawSteps 1 [1] ++ publishSteps 1

theorem published_artifacts_true_succeeded : ∃ s row,
    (system {}).runsIf (fun s action => Serves s action ∧ Spares s action) oneDocument succeedSteps = some s ∧
    s.world.jobs 1 = some row ∧ row.status = .succeeded ∧ (row.artifacts row.currentAttempt).length = 5 ∧
    ∀ artifact ∈ row.artifacts row.currentAttempt,
      s.world.Stored artifact.objectKey artifact.sha256 artifact.sizeBytes := by
  have played : ((system {}).runsIf (fun s action => Serves s action ∧ Spares s action) oneDocument succeedSteps).any
      (fun s => (s.world.jobs 1).any fun row =>
        row.status = .succeeded ∧ (row.artifacts row.currentAttempt).length = 5) = true := by decide +kernel
  obtain ⟨s, runs, rest⟩ := (Option.any_eq_true _ _).mp played
  obtain ⟨row, stored, rest⟩ := (Option.any_eq_true _ _).mp rest
  obtain ⟨succeeded, five⟩ := of_decide_eq_true rest
  exact ⟨s, row, runs, stored, succeeded, five,
    published_artifacts_true oneDocument_initial (.of_runsIf runs) 1 row stored succeeded⟩

/-- Two deliveries await the recognition of the page. The first succeeds; the
second gets another drawing, and puts it. -/
def lateDrawing : List Step :=
  createSteps 0 ++ deliverSteps 1 ++ redeliverSteps 2 ++ drawSteps 1 [1] ++ publishSteps 1 ++
    answered 2 [{ answer := .recognized (drawnResult [1, 2]) }, .go, .go]

/-- A delivery replaces a drawing whose size is published. -/
theorem published_artifacts_replaced : ¬ ∀ (settings : Settings) (first s : State), Initial first →
    (system settings).Run Serves first s → ∀ id row, s.world.jobs id = some row → row.status = .succeeded →
      ∀ artifact ∈ row.artifacts row.currentAttempt,
        s.world.Stored artifact.objectKey artifact.sha256 artifact.sizeBytes := by
  intro claim
  have played : ((system {}).runsIf Serves oneDocument lateDrawing).any (fun s =>
      (s.world.jobs 1).any fun row => row.status = .succeeded ∧
        (row.artifacts row.currentAttempt).any fun artifact => artifact.kind = .visualization ∧
          (s.world.objects artifact.objectKey).any fun object => object.data.sizeBytes ≠ artifact.sizeBytes) =
      true := by decide +kernel
  obtain ⟨s, runs, rest⟩ := (Option.any_eq_true _ _).mp played
  obtain ⟨row, stored, rest⟩ := (Option.any_eq_true _ _).mp rest
  obtain ⟨succeeded, rest⟩ := of_decide_eq_true rest
  obtain ⟨artifact, member, rest⟩ := List.any_eq_true.mp rest
  obtain ⟨-, rest⟩ := of_decide_eq_true rest
  obtain ⟨object, there, different⟩ := (Option.any_eq_true _ _).mp rest
  obtain ⟨object', there', -, size⟩ :=
    claim {} oneDocument s oneDocument_initial (.of_runsIf runs) 1 row stored succeeded artifact member
  cases Option.some.inj (there.symm.trans there')
  exact of_decide_eq_true different size

end MonkeyOcr
