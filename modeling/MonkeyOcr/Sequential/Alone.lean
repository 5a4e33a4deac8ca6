import MonkeyOcr.Lifecycle.Work
import MonkeyOcr.Sequential.Process

namespace MonkeyOcr

open Calls

/-- The calls a worker makes between two messages. -/
def Op.betweenMessages : Op → Bool
  | .stopRequested | .getMany | .commit .. => true
  | _ => false

/-- The call is a delivery of a message of the job, and not over. -/
def delivers (id : Id) (call : SystemCall) : Bool :=
  match call.prog with
  | .call op _ => !op.betweenMessages && (workOf call).any fun message => message.jobId = id
  | _ => false

/-- No two deliveries of the job at a time. -/
def Alone (id : Id) (s : State) : Prop := s.calls.countP (delivers id) ≤ 1

instance (id : Id) (s : State) : Decidable (Alone id s) := inferInstanceAs (Decidable (_ ≤ _))

/-- What the call knows of the job it delivers. -/
def courseOf (call : SystemCall) : Course := call.ghost Course.ghost Task.course

@[simp] theorem courseOf_begin (settings : Settings) (task : Task) :
    courseOf (Call.begin (system settings) task) = task.course := rfl

@[simp] theorem courseOf_killed (call : SystemCall) : courseOf call.killed = courseOf call := rfl

@[simp] theorem courseOf_answered (call : SystemCall) (op : Op) (r : Except Exc op.Val)
    (next : Except Exc op.Val → Program Reply) :
    courseOf (call.answered (S := Sig) op r next) = (courseOf call).next op r := rfl

/-- The job is stored as the version `v`, or asked to be cancelled since. -/
def World.Has (w : World) (v : Job) : Prop :=
  ∃ row, w.jobs v.id = some row ∧ row.claim = none ∧ v.Stays (row.toJob v.id)

/-- What the deliveries of the job know is stored. -/
structure Sequenced (settings : Settings) (id : Id) (s : State) : Prop where
  messages : HoldsMessages s
  works : ∀ call ∈ s.calls, ∀ message, (memoryOf call).message = some message → workOf call = some message
  births : Births s
  claims : ∀ id row, s.world.jobs id = some row → row.claim.isSome = true → row.version.terminal
  tracked : ∀ call ∈ s.calls, Tracks Course.ghost Task.course (fun _ => Course.contract settings id)
    (fun _ _ _ => True) (fun _ _ _ => True) call
  seen : ∀ call ∈ s.calls, ∀ v, (courseOf call).known = some v → ∃ origin, (origin, v) ∈ (memoryOf call).seen
  knows : ∀ call ∈ s.calls, delivers id call = true → ∀ v, (courseOf call).known = some v → v.id = id →
    v.state.active = true → s.world.Has v

section

variable {settings : Settings} {first s s' : State} {action : Step} {call : SystemCall} {op : Op} {w w' : World}
  {id : Id} {row row' : JobRow} {v : Job} {message : JobWorkMessage}

theorem delivers_call {next : Except Exc op.Val → Program Reply} (prog : call.prog = .call (S := Sig) op next)
    (inside : op.betweenMessages = false) (works : workOf call = some message) (own : message.jobId = id) :
    delivers id call = true := by
  simp [delivers, prog, inside, works, own]

theorem delivers_work (delivering : delivers id call = true) :
    ∃ op next message, call.prog = .call (S := Sig) op next ∧ op.betweenMessages = false ∧
      workOf call = some message ∧ message.jobId = id := by
  unfold delivers at delivering
  split at delivering
  · rename_i op next prog
    rw [Bool.and_eq_true] at delivering
    obtain ⟨message, works, own⟩ := (Option.any_eq_true _ _).mp delivering.2
    exact ⟨op, next, message, prog, by simpa using delivering.1, works, of_decide_eq_true own⟩
  · cases delivering

/-- Two deliveries of one job are the same call. -/
theorem Alone.same (alone : Alone id s) {i j : Nat} {other : SystemCall} (at_i : s.calls[i]? = some call)
    (at_j : s.calls[j]? = some other) (delivering : delivers id call = true)
    (delivering' : delivers id other = true) : i = j := by
  by_contra apart
  have least : ∀ (calls : List SystemCall) (i j : Nat) (call other : SystemCall), i < j → calls[i]? = some call →
      calls[j]? = some other → delivers id call = true → delivers id other = true →
      2 ≤ calls.countP (delivers id) := by
    intro calls i j call other before at_i at_j here there
    obtain ⟨bound, rfl⟩ := List.getElem?_eq_some_iff.mp at_i
    have later : other ∈ calls.drop (i + 1) := by
      refine List.mem_of_getElem? (i := j - (i + 1)) ?_
      rw [List.getElem?_drop, show i + 1 + (j - (i + 1)) = j by omega]
      exact at_j
    have one : 0 < (calls.drop (i + 1)).countP (delivers id) := List.countP_pos_iff.mpr ⟨other, later, there⟩
    have two : 0 < (calls.take (i + 1)).countP (delivers id) := by
      refine List.countP_pos_iff.mpr ⟨calls[i], ?_, here⟩
      rw [List.take_succ_eq_append_getElem bound]
      exact List.mem_append_right _ (List.mem_singleton.mpr rfl)
    have sum : (calls.take (i + 1) ++ calls.drop (i + 1)).countP (delivers id) = _ := List.countP_append
    rw [List.take_append_drop] at sum
    omega
  unfold Alone at alone
  rcases Nat.lt_or_gt_of_ne apart with before | after
  · have := least s.calls i j call other before at_i at_j delivering delivering'
    omega
  · have := least s.calls j i other call after at_j at_i delivering' delivering
    omega

theorem courseOf_message : (courseOf call).message = (memoryOf call).message := by
  have each : ∀ past : List ((op : Op) × Except Exc op.Val),
      (past.foldr (fun done s => Course.next s done.1 done.2) call.task.course).message =
        (past.foldr (fun done s => Memory.next s done.1 done.2) call.task.memory).message := by
    intro past
    induction past with
    | nil => cases call.task <;> rfl
    | cons done rest ih =>
      obtain ⟨op, r⟩ := done
      simp only [List.foldr_cons]
      cases op with
      | getMany =>
        rcases r with e | _ | record
        · exact ih
        · exact ih
        · rfl
      | getJob => rcases r with e | _ | job <;> exact ih
      | _ => cases r <;> exact ih
  exact each call.past

/-- Only a worker has a message to work on. -/
theorem works_step (works : ∀ call ∈ s.calls, ∀ message, (memoryOf call).message = some message →
    workOf call = some message) (holds : HoldsMessages s) (moves : Moves settings s action s') :
    ∀ call ∈ s'.calls, ∀ message, (memoryOf call).message = some message → workOf call = some message := by
  have holds' := holds.step moves
  cases moves with
  | start task =>
    intro call' member
    rcases List.mem_append.mp member with old | new
    · exact works call' old
    · cases List.mem_singleton.mp new
      intro message given
      cases task with
      | process => exact given
      | runWorker => exact given
      | _ => cases given
  | kill i =>
    intro call' member
    rcases Machine.mem_modify_killed member with old | ⟨before, memberBefore, rfl⟩
    · exact works call' old
    · exact works before memberBefore
  | env => exact works
  | @resume i choice call op r next w at_i prog executed allowed =>
    intro call' member message given
    rcases Machine.mem_set_answered member with old | rfl
    · exact works call' old message given
    · have kept : ∀ {c : Contract Sig Memory}, c.allow (memoryOf call) op → (¬ c.allow (memoryOf call) .getMany) →
          ((memoryOf call).next op r).message = (memoryOf call).message := by
        intro c allowed quiet
        cases op with
        | getMany => exact absurd allowed quiet
        | getJob => rcases r with e | _ | job <;> rfl
        | _ => cases r <;> rfl
      have task' : (call.answered (S := Sig) op r next).task = call.task := rfl
      cases task : call.task with
      | process turns own =>
        have same := holds' _ member turns own task
        rw [given] at same
        rw [workOf, task', task]
        exact same.symm
      | runWorker turns polls =>
        rw [workOf, task', task]
        exact given
      | _ =>
        rw [task] at allowed
        have old := works call (List.mem_of_getElem? at_i) message ((kept allowed id).symm.trans given)
        rw [workOf, task] at old
        cases old

/-- The saves that a call makes which does not deliver the job. -/
def External (m : Memory) (op : Op) (id : Id) : Prop :=
  ∀ job event, op.saved? = some (job, event) → job.id = id →
    event.eventType = .jobCancelRequested ∨ event.eventType = .jobCancelled ∧ m.Waited job ∨
      event.eventType = .jobRetrying

theorem external {next : Except Exc op.Val → Program Reply} (holds : HoldsMessages s) (member : call ∈ s.calls)
    (allowed : call.task.contract.allow (memoryOf call) op) (prog : call.prog = .call (S := Sig) op next)
    (other : delivers id call = false) : External (memoryOf call) op id := by
  intro job event saved own
  have worker : (∃ message, (memoryOf call).message = some message ∧ (memoryOf call).workerCalls message op) →
      (∀ message, (memoryOf call).message = some message → workOf call = some message) → False := by
    rintro ⟨message, at_m, calls⟩ works
    cases op with
    | saveWithEvent =>
      cases saved
      rw [delivers_call prog rfl (works message at_m) (calls.1.symm.trans own)] at other
      cases other
    | saveWithOutboxAndEvent => exact calls
    | _ => cases saved
  cases task : call.task with
  | process turns given =>
    rw [task] at allowed
    refine (worker allowed fun message at_m => ?_).elim
    have same := holds call member turns given task
    rw [workOf, task, ← at_m, same]
  | runWorker turns polls =>
    rw [task] at allowed
    rcases allowed with own | consumer
    · exact (worker own fun message at_m => by rw [workOf, task]; exact at_m).elim
    · cases op <;> first | exact consumer.elim | cases saved
  | dispatchOnce => rw [task] at allowed; cases op <;> first | exact allowed.elim | cases saved
  | runBatch => rw [task] at allowed; cases op <;> first | exact allowed.elim | cases saved
  | streamJobEvents => rw [task] at allowed; cases op <;> first | exact allowed.elim | cases saved
  | presignedPut => rw [task] at allowed; cases op <;> first | exact allowed.elim | cases saved
  | _ =>
    rw [task] at allowed
    cases op with
    | saveWithEvent =>
      cases saved
      exact allowed.2.2.imp_right .inl
    | saveWithOutboxAndEvent =>
      cases saved
      exact .inr (.inr allowed.2.2.1)
    | _ => cases saved

theorem JobState.active_unended {state : JobState} (active : state.active = true) :
    ¬ (state = .cancelled ∨ state = .succeeded ∨ state = .failed) := by
  rintro (rfl | rfl | rfl) <;> cases active

theorem Job.Stays.active {found : Job} (stays : v.Stays found) (active : v.state.active = true) :
    found.state.active = true := by
  rcases stays.state with same | asked
  · rw [same]
    exact active
  · rw [asked]
    rfl

theorem Job.Stays.of_row (stays : v.Stays (row.toJob id)) (birth : row'.birth = row.birth)
    (version : row'.version = row.version) : v.Stays (row'.toJob id) := by
  have pages := stays.pages
  rw [JobRow.version_toJob, ← version, ← JobRow.version_toJob id] at pages
  have state : row'.status = row.status := congrArg Version.state version
  exact ⟨stays.id, birth.trans stays.birth, (congrArg Version.attempt version).trans stays.attempt, pages,
    stays.state.imp state.trans state.trans⟩

/-- What others do to a job that is being delivered: they ask to cancel it. -/
theorem RowChange.stays {m : Memory} {after : Option JobRow} (change : RowChange m w op id (some row) after)
    (births : m.Births w) (stored : w.jobs id = some row) (tidy : row.Tidy)
    (known : ∀ entry ∈ m.seen, w.Knows entry.2) (external : External m op id) (free : row.claim = none)
    (stays : v.Stays (row.toJob id)) (active : v.state.active = true) :
    ∃ row', after = some row' ∧ row'.claim = none ∧ v.Stays (row'.toJob id) := by
  have still : row.status.active = true := stays.active active
  have live := JobState.active_unended still
  cases change with
  | same => exact ⟨row, rfl, free, stays⟩
  | @saved _ row' origin base job event call own member adopts edits current saves reports =>
    have version := saves.version tidy (current ▸ edits.edit)
    have birth : row'.birth = row.birth := by
      have seen : row.birth = base.birth := births _ member row (edits.id ▸ own ▸ stored)
      exact saves.birth (congrArg Birth.options (edits.birth.trans seen.symm))
    refine ⟨_, rfl, by rw [JobRow.append_claim]; exact saves.claim, ?_⟩
    have edit := edits.edit
    rw [← current] at edit
    rcases external job event call own with asked | ⟨cancelled, v', seen, sameId, revision, waiting⟩ | retrying
    · rw [asked] at edit
      generalize job.version = after at edit version
      cases edit
      refine ⟨stays.id, ?_, ?_, ?_, .inr ?_⟩
      · rw [JobRow.birth_toJob, JobRow.append_birth, birth]
        exact stays.birth
      · exact (congrArg Version.attempt (JobRow.append_version.trans version)).trans stays.attempt
      · rw [JobRow.version_toJob, JobRow.append_version, version]
        have pages := stays.pages
        rw [JobRow.version_toJob] at pages
        exact pages
      · exact congrArg Version.state (JobRow.append_version.trans version)
    · have same := (known _ seen row (by rw [sameId, own]; exact stored)).current (revision.trans saves.revision.symm)
      have state : row.status = v'.state := congrArg Version.state same
      rw [state] at still
      rcases waiting with queued | retrying
      · rw [queued] at still
        cases still
      · rw [retrying] at still
        cases still
    · rw [retrying] at edit
      generalize job.version = after at edit
      cases edit with
      | retrying ended =>
        rcases ended with failed | cancelled
        · exact absurd (.inr (.inr failed)) live
        · exact absurd (.inl cancelled) live
  | reported =>
    exact ⟨_, rfl, by rw [JobRow.append_claim]; exact free, stays.of_row JobRow.append_birth JobRow.append_version⟩
  | claimed call expired =>
    simp only [World.jobExpired, decide_eq_true_eq] at expired
    rcases expired.1 with ended | ended | ended
    · exact absurd (.inr (.inl ended)) live
    · exact absurd (.inr (.inr ended)) live
    · exact absurd (.inl ended) live
  | deferred call kind own held => rw [free] at held; cases held
  | deleted call kind own held => rw [free] at held; cases held

/-- Retention claims jobs that have ended, and nothing goes on with them. -/
theorem claims_step (coherent : Coherent s)
    (claims : ∀ id row, s.world.jobs id = some row → row.claim.isSome = true → row.version.terminal)
    (moves : Moves settings s action s') :
    ∀ id row, s'.world.jobs id = some row → row.claim.isSome = true → row.version.terminal := by
  intro id row' stored claimed
  rcases moves.row coherent id with same | ⟨i, choice, call, op, -, at_i, -, change⟩
  · exact claims id row' (same ▸ stored) claimed
  · rw [stored] at change
    cases before : s.world.jobs id with
    | none =>
      rw [before] at change
      cases change with
      | inserted =>
        rw [JobRow.append_claim] at claimed
        cases claimed
    | some row =>
      rw [before] at change
      cases change with
      | same => exact claims id row' before claimed
      | saved _ _ _ _ _ _ saves =>
        rw [JobRow.append_claim, saves.claim] at claimed
        cases claimed
      | reported =>
        rw [JobRow.append_claim] at claimed
        rw [JobRow.append_version]
        exact claims id row before claimed
      | claimed call expired =>
        simp only [World.jobExpired, decide_eq_true_eq] at expired
        rcases expired.1 with ended | ended | ended
        · exact .inr (.inl ended)
        · exact .inr (.inr ended)
        · exact .inl ended
      | deferred call kind own held => exact claims id row before (by rw [held]; rfl)

theorem seen_step (seen : ∀ call ∈ s.calls, ∀ v, (courseOf call).known = some v →
      ∃ origin, (origin, v) ∈ (memoryOf call).seen) (moves : Moves settings s action s') :
    ∀ call ∈ s'.calls, ∀ v, (courseOf call).known = some v → ∃ origin, (origin, v) ∈ (memoryOf call).seen := by
  cases moves with
  | start task =>
    intro call' member
    rcases List.mem_append.mp member with old | new
    · exact seen call' old
    · cases List.mem_singleton.mp new
      intro v known
      cases task <;> cases known
  | kill i =>
    intro call' member
    rcases Machine.mem_modify_killed member with old | ⟨before, memberBefore, rfl⟩
    · exact seen call' old
    · exact seen before memberBefore
  | env => exact seen
  | @resume i choice call op r next w at_i prog executed allowed =>
    intro call' member v known
    rcases Machine.mem_set_answered member with old | rfl
    · exact seen call' old v known
    · have before := seen call (List.mem_of_getElem? at_i) v
      rw [courseOf_answered] at known
      rw [memoryOf_answered]
      cases op with
      | getJob site id =>
        rcases r with e | _ | job
        · exact before known
        · cases known
        · cases known
          exact ⟨_, List.mem_cons_self⟩
      | saveWithEvent job event =>
        cases r with
        | error e => cases known
        | ok saved =>
          cases known
          exact ⟨_, List.mem_cons_self⟩
      | saveWithOutboxAndEvent job outboxEvent event =>
        cases r with
        | error e => exact before known
        | ok saved =>
          obtain ⟨origin, old⟩ := before known
          exact ⟨origin, List.mem_cons_of_mem _ old⟩
      | getMany => rcases r with e | _ | record <;> cases known
      | stopRequested => cases known
      | commit => cases known
      | _ => cases r <;> exact before known

/-- A call raises what its adapter may raise, or what the work itself raises. -/
theorem World.exec_error {i : Nat} {choice : Choice} {e : Exc}
    (executed : World.exec settings i op choice w = some (.error e, w')) :
    op.mayRaise e = true ∨ w.perform settings i op choice.answer = some (.error e, w') := by
  rcases World.exec_cases executed with ⟨_, same, raises, -⟩ | ⟨r₀, performed, same | ⟨_, same, raises, -⟩⟩
  · cases same
    exact .inl raises
  · exact .inr (same ▸ performed)
  · cases same
    exact .inl raises

theorem World.exec_save_error {i : Nat} {choice : Choice} {job : Job} {event : JobEvent} {e : Exc}
    (executed : World.exec settings i (.saveWithEvent job event) choice w = some (.error e, w')) :
    e = .concurrentJobUpdate ∨ e.isOther = true := by
  rcases World.exec_error executed with raises | performed
  · exact .inr raises
  · have raised : ∀ {row : JobRow}, row.save job settings.jobRetentionDays = .error e →
        e = .concurrentJobUpdate ∨ e.isOther = true := by
      intro row failed
      unfold JobRow.save at failed
      split at failed
      · cases failed
        exact .inl rfl
      · split at failed
        · cases failed
          exact .inr rfl
        · split at failed
          · cases failed
            exact .inr rfl
          · cases failed
    have failed : w.saveWithEvent job event settings.jobRetentionDays = .error e := by
      cases done : w.saveWithEvent job event settings.jobRetentionDays with
      | ok result =>
        have both := Prod.mk.inj (Option.some.inj performed)
        rw [done] at both
        cases both.1
      | error e' =>
        have both := Prod.mk.inj (Option.some.inj performed)
        rw [done] at both
        cases both.1
        rfl
    unfold World.saveWithEvent World.saveJob at failed
    split at failed
    · rename_i row found
      cases saved : row.save job settings.jobRetentionDays with
      | ok row' =>
        rw [saved] at failed
        cases failed
      | error e' =>
        rw [saved] at failed
        cases failed
        exact raised saved
    · cases failed
      exact .inl rfl

/-- What a delivery is told of the job is what it knows already. -/
theorem Sequenced.answers (sequenced : Sequenced settings id s) {i : Nat} {choice : Choice}
    {r : Except Exc op.Val} {next : Except Exc op.Val → Program Reply} (at_i : s.calls[i]? = some call)
    (prog : call.prog = .call (S := Sig) op next) (executed : World.exec settings i op choice s.world = some (r, w)) :
    (Course.contract settings id).answer (courseOf call) op r := by
  have here := List.mem_of_getElem? at_i
  refine ⟨exec_answer executed, fun m at_m own => ?_⟩
  rw [courseOf_message] at at_m
  have works := sequenced.works call here m at_m
  cases op with
  | getJob site other =>
    cases r with
    | error e =>
      rcases World.exec_error executed with raises | performed
      · exact raises
      · cases performed
    | ok found =>
      intro same v known own' active
      subst same
      obtain ⟨rfl, read⟩ := World.exec_getJob executed
      obtain ⟨row, stored, free, stays⟩ := sequenced.knows call here (delivers_call prog rfl works own) v known
        (own'.trans own) active
      refine ⟨row.toJob v.id, ?_, stays⟩
      rw [read, World.getJob, ← own', stored]
      simp [free]
  | saveWithEvent job event =>
    cases r with
    | error e => exact World.exec_save_error executed
    | ok saved => trivial
  | putBytes key data type =>
    cases r with
    | error e => trivial
    | ok stored =>
      have done := World.exec_ok executed
      cases done
      rfl
  | utcNow =>
    cases r with
    | error e =>
      rcases World.exec_error executed with raises | performed
      · cases raises
      · generalize choice.answer = answer at performed
        cases answer <;> cases performed
    | ok now => trivial
  | log level event fields =>
    cases r with
    | error e =>
      rcases World.exec_error executed with raises | performed
      · cases raises
      · cases performed
    | ok => trivial
  | sleep delay =>
    cases r with
    | error e =>
      rcases World.exec_error executed with raises | performed
      · cases raises
      · cases performed
    | ok => trivial
  | _ => cases r <;> trivial

/-- What a delivery newly knows is what is stored. -/
theorem Sequenced.learns (sequenced : Sequenced settings id s) (coherent : Coherent s) {i : Nat} {choice : Choice}
    {r : Except Exc op.Val} {next : Except Exc op.Val → Program Reply} (at_i : s.calls[i]? = some call)
    (prog : call.prog = .call (S := Sig) op next) (executed : World.exec settings i op choice s.world = some (r, w))
    (allowed : call.task.contract.allow (memoryOf call) op)
    (births : Births (resumed s i call op r next w))
    (known : ((courseOf call).next op r).known = some v) (own : v.id = id) (active : v.state.active = true)
    (works : workOf (call.answered (S := Sig) op r next) = some message) (named : message.jobId = id) :
    w.Has v := by
  have here := List.mem_of_getElem? at_i
  have inv := coherent.consistent
  have stays : op.saved? = none → (courseOf call).known = some v → op.betweenMessages = false →
      workOf call = some message → w.Has v := by
    intro unsaved before inside works
    obtain ⟨row, stored, free, kept⟩ := sequenced.knows call here (delivers_call prog inside works named) v before
      own active
    have change := inv.rows at_i (Task.contract_writes allowed) executed v.id
    rw [stored] at change
    have outside : External (memoryOf call) op v.id := by
      intro job event saved
      rw [unsaved] at saved
      cases saved
    obtain ⟨row', after, free', kept'⟩ := change.stays (sequenced.births call here) stored (inv.tidy _ _ stored)
      (inv.known call here) outside free kept active
    exact ⟨row', after, free', kept'⟩
  cases op with
  | getJob site other =>
    rcases r with e | _ | job
    · exact stays rfl known rfl works
    · cases known
    · cases known
      obtain ⟨rfl, read⟩ := World.exec_getJob executed
      obtain ⟨row, stored, free, rfl⟩ := World.getJob_some read.symm
      exact ⟨row, stored, free, .refl⟩
  | saveWithEvent job event =>
    cases r with
    | error e => cases known
    | ok saved =>
      cases known
      obtain ⟨row, row', found, saves, revision, rfl⟩ := World.exec_saveWithEvent executed
      have after : (s.world.setJob job.id (some (row'.append event).2)).jobs job.id = some (row'.append event).2 := by
        rw [World.setJob_jobs, if_pos rfl]
      obtain ⟨origin, base, member, adopts, edits, current⟩ :=
        World.saved_edit (inv.known call here) (inv.lost call here) (Task.contract_writes allowed).1 found saves
      have version := saves.version (inv.tidy _ _ found) (current ▸ edits.edit)
      have moved : call.answered (S := Sig) (.saveWithEvent job event) (.ok saved) next ∈
          (resumed s i call (.saveWithEvent job event) (.ok saved) next
            (s.world.setJob job.id (some (row'.append event).2))).calls :=
        List.mem_set (List.getElem?_eq_some_iff.mp at_i).1 _
      have birth : (row'.append event).2.birth = job.birth :=
        births _ moved (none, { job with revision := saved.1 }) List.mem_cons_self _ after
      refine ⟨_, after, by rw [JobRow.append_claim]; exact saves.claim, rfl, birth, ?_, ?_, .inl ?_⟩
      · exact congrArg Version.attempt (JobRow.append_version.trans version)
      · rw [JobRow.version_toJob, JobRow.append_version, version]
        rfl
      · exact congrArg Version.state (JobRow.append_version.trans version)
  | saveWithOutboxAndEvent =>
    have held : workOf call = some message := by cases r <;> exact works
    rcases workOf_allowed held allowed with ⟨_, _, worker⟩ | consumer
    · exact worker.elim
    · exact consumer.elim
  | getMany => rcases r with e | _ | record <;> cases known
  | stopRequested => cases known
  | commit => cases known
  | _ => cases r <;> exact stays rfl known rfl works

theorem Initial.sequenced (initial : Initial s) : Sequenced settings id s := by
  have none : ∀ call ∈ s.calls, False := by simp [initial.calls]
  refine ⟨fun call member => (none call member).elim, fun call member => (none call member).elim,
    initial.births, fun id row stored => ?_, fun call member => (none call member).elim,
    fun call member => (none call member).elim, fun call member => (none call member).elim⟩
  rw [initial.world.jobs] at stored
  cases stored

/-- The step lemma of a sequential history. -/
theorem Sequenced.step (sequenced : Sequenced settings id s) (coherent : Coherent s) (alone : Alone id s)
    (moves : Moves settings s action s') : Sequenced settings id s' := by
  have births := sequenced.births.step coherent moves
  refine ⟨sequenced.messages.step moves, works_step sequenced.works sequenced.messages moves, births,
    claims_step coherent sequenced.claims moves, ?_, seen_step sequenced.seen moves, ?_⟩
  · cases moves with
    | start task =>
      intro call' member
      rcases List.mem_append.mp member with old | new
      · exact sequenced.tracked call' old
      · cases List.mem_singleton.mp new
        exact program_course settings id task
    | kill i =>
      intro call' member
      rcases Machine.mem_modify_killed member with old | ⟨before, memberBefore, rfl⟩
      · exact sequenced.tracked call' old
      · trivial
    | env => exact sequenced.tracked
    | @resume i choice call op r next w at_i prog executed allowed =>
      intro call' member
      rcases Machine.mem_set_answered member with old | rfl
      · exact sequenced.tracked call' old
      · have own := sequenced.tracked call (List.mem_of_getElem? at_i)
        rw [Tracks, prog] at own
        exact own.2 r (sequenced.answers at_i prog executed)
  · cases moves with
    | start task =>
      intro call' member delivering v known
      rcases List.mem_append.mp member with old | new
      · exact sequenced.knows call' old delivering v known
      · cases List.mem_singleton.mp new
        cases task <;> cases known
    | kill i =>
      intro call' member delivering
      rcases Machine.mem_modify_killed member with old | ⟨before, memberBefore, rfl⟩
      · exact sequenced.knows call' old delivering
      · cases delivering
    | env event =>
      have jobs : (s.world.rebalance event).jobs = s.world.jobs := by cases event <;> rfl
      intro call' member delivering v known own active
      obtain ⟨row, stored, rest⟩ := sequenced.knows call' member delivering v known own active
      exact ⟨row, (congrFun jobs v.id).trans stored, rest⟩
    | @resume i choice call op r next w at_i prog executed allowed =>
      intro call' member delivering v known own active
      have here := List.mem_of_getElem? at_i
      have inv := coherent.consistent
      obtain ⟨j, at_j⟩ := List.mem_iff_getElem?.mp member
      rw [List.getElem?_set] at at_j
      split at at_j
      · split at at_j
        · cases at_j
          obtain ⟨-, -, message, -, -, works, named⟩ := delivers_work delivering
          exact sequenced.learns coherent at_i prog executed allowed births known own active works named
        · cases at_j
      · rename_i different
        have there := List.mem_of_getElem? at_j
        have other : delivers id call = false := by
          by_contra both
          exact different (alone.same at_i at_j (by simpa using both) delivering)
        obtain ⟨row, stored, free, stays⟩ := sequenced.knows call' there delivering v known own active
        have change := inv.rows at_i (Task.contract_writes allowed) executed v.id
        rw [stored] at change
        have outside := external sequenced.messages here allowed prog other
        exact change.stays (sequenced.births call here) stored (inv.tidy _ _ stored) (inv.known call here)
          (own ▸ outside) free stays active

end
end MonkeyOcr
