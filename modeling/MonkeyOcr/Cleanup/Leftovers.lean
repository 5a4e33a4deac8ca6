import Mathlib.Algebra.Order.Group.Nat
import Mathlib.Algebra.Order.BigOperators.Group.List
import MonkeyOcr.Cleanup.Deletion
import MonkeyOcr.Objects.Published

namespace MonkeyOcr

open Calls

/-- The page has an object at the key. -/
def PageRow.Names (page : PageRow) (key : ObjectKey) : Prop :=
  page.sourceObjectKey = key ∨ page.resultObjectKey = some key ∨ page.visualizationObjectKey = some key

instance (page : PageRow) (key : ObjectKey) : Decidable (page.Names key) :=
  inferInstanceAs (Decidable (page.sourceObjectKey = key ∨ page.resultObjectKey = some key ∨
    page.visualizationObjectKey = some key))

/-- A page or an artifact of the version has an object at the key. -/
def Version.Names (v : Version) (key : ObjectKey) : Prop :=
  (∃ page ∈ v.pages, page.Names key) ∨ ∃ artifact ∈ v.artifacts, artifact.objectKey = key

/-- The key is under the prefix of the job, and a page or an artifact of the job
has an object there. -/
def Job.names (job : Job) (key : ObjectKey) : Bool :=
  key.job? = some job.id ∧
    ((∃ page ∈ job.pages, page.toRow.Names key) ∨ ∃ artifact ∈ job.artifacts, artifact.objectKey = key)

/-- What a call has put, or may have put, and no save of its own has named since. -/
def nextDrafts (drafts : List ObjectKey) : (op : Op) → Except Exc op.Val → List ObjectKey
  | .putBytes key _ _, _ => key :: drafts
  | .prepare _ _, .ok pages => pages.map PreparedPage.objectKey ++ drafts
  | .saveWithEvent job _, .ok _ => drafts.filter fun key => !job.names key
  | _, _ => drafts

def draftsOf (call : SystemCall) : List ObjectKey :=
  call.past.foldr (fun done drafts => nextDrafts drafts done.1 done.2) []

/-- The object is not there, or the rows of its job name it. -/
def Accounted (s : State) (key : ObjectKey) : Prop :=
  ∀ id ∈ key.job?, (s.world.objects key).isSome = true → ∃ row ∈ s.world.jobs id, key ∈ row.referencedKeys id

instance (s : State) (key : ObjectKey) : Decidable (Accounted s key) :=
  inferInstanceAs (Decidable (∀ id ∈ key.job?, (s.world.objects key).isSome = true →
    ∃ row ∈ s.world.jobs id, key ∈ row.referencedKeys id))

/-- The jobs whose rows a call claims next. -/
def claiming (call : SystemCall) (choice : Choice) : List Id :=
  match call.prog with
  | .call (.claimExpired ..) _ =>
    match choice.answer with
    | .picked jobs _ => jobs
    | _ => []
  | _ => []

/-- The job and the event that a call saves next. -/
def saving? (call : SystemCall) : Option (Job × JobEvent) :=
  match call.prog with
  | .call op _ => op.saved?
  | _ => none

/-- A preprocessor fails next, and leaves objects behind. -/
def spills (call : SystemCall) (choice : Choice) : Bool :=
  match call.prog with
  | .call (.prepare ..) _ =>
    match choice.answer with
    | .prepared (_ :: _) (.error _) => true
    | _ => false
  | _ => false

/-- What the call `i` has put is accounted for if the step is its last. -/
def Leaves (settings : Settings) (s : State) (i : Nat) (action : Step) : Prop :=
  ∀ before ∈ s.calls[i]?, running before = true → ∀ s' ∈ (system settings).step s action, ∀ call ∈ s'.calls[i]?,
    running call = false → ∀ key ∈ draftsOf call, Accounted s' key

instance (settings : Settings) (s : State) (i : Nat) (action : Step) : Decidable (Leaves settings s i action) :=
  inferInstanceAs (Decidable (∀ before ∈ s.calls[i]?, running before = true → ∀ s' ∈ (system settings).step s action,
    ∀ call ∈ s'.calls[i]?, running call = false → ∀ key ∈ draftsOf call, Accounted s' key))

/-- What the running calls have put for a job is accounted for when it is claimed. -/
def ClaimsAccounted (s : State) (id : Id) : Prop :=
  ∀ row ∈ s.world.jobs id, row.claim.isSome = false → ∀ call ∈ s.calls, running call = true →
    ∀ key ∈ draftsOf call, key.job? = some id → Accounted s key

instance (s : State) (id : Id) : Decidable (ClaimsAccounted s id) :=
  inferInstanceAs (Decidable (∀ row ∈ s.world.jobs id, row.claim.isSome = false → ∀ call ∈ s.calls,
    running call = true → ∀ key ∈ draftsOf call, key.job? = some id → Accounted s key))

/-- A page that is saved as recognized keeps the objects that its row has. -/
def KeepsObjects (s : State) (save : Job × JobEvent) : Prop :=
  save.2.eventType = .pageSucceeded → ∀ row ∈ s.world.jobs save.1.id, ∀ page ∈ row.pages row.currentAttempt,
    ∀ key ∈ page.resultObjectKey.toList ++ page.visualizationObjectKey.toList,
      key.job? = some save.1.id → (s.world.objects key).isSome = true → save.1.names key = true

instance (s : State) (save : Job × JobEvent) : Decidable (KeepsObjects s save) :=
  inferInstanceAs (Decidable (save.2.eventType = .pageSucceeded → ∀ row ∈ s.world.jobs save.1.id,
    ∀ page ∈ row.pages row.currentAttempt, ∀ key ∈ page.resultObjectKey.toList ++ page.visualizationObjectKey.toList,
      key.job? = some save.1.id → (s.world.objects key).isSome = true → save.1.names key = true))

/-- What a call does next leaves no object without a row. -/
structure Orderly (s : State) (call : SystemCall) (choice : Choice) : Prop where
  claims : ∀ id ∈ claiming call choice, ClaimsAccounted s id
  puts : ∀ write ∈ putting call choice, ∀ id ∈ write.1.job?, ∃ row ∈ s.world.jobs id, row.claim.isSome = false
  prepares : spills call choice = false
  saves : ∀ save ∈ saving? call, KeepsObjects s save

instance (s : State) (call : SystemCall) (choice : Choice) : Decidable (Orderly s call choice) :=
  decidable_of_iff ((∀ id ∈ claiming call choice, ClaimsAccounted s id) ∧
      (∀ write ∈ putting call choice, ∀ id ∈ write.1.job?, ∃ row ∈ s.world.jobs id, row.claim.isSome = false) ∧
      spills call choice = false ∧ ∀ save ∈ saving? call, KeepsObjects s save)
    ⟨fun ⟨claims, puts, prepares, saves⟩ => ⟨claims, puts, prepares, saves⟩,
      fun ⟨claims, puts, prepares, saves⟩ => ⟨claims, puts, prepares, saves⟩⟩

/-- Every object that a call puts is named by a row before the call ends and
before the job is claimed, and none is put later. -/
def Tidies (settings : Settings) (s : State) : Step → Prop
  | .resume i choice =>
    (∀ call ∈ s.calls[i]?, Orderly s call choice) ∧ Leaves settings s i (.resume i choice)
  | .kill i => Leaves settings s i (.kill i)
  | _ => True

instance (settings : Settings) (s : State) : ∀ action, Decidable (Tidies settings s action)
  | .resume i choice =>
    inferInstanceAs (Decidable ((∀ call ∈ s.calls[i]?, Orderly s call choice) ∧
      Leaves settings s i (.resume i choice)))
  | .kill i => inferInstanceAs (Decidable (Leaves settings s i (.kill i)))
  | .start _ | .env _ => isTrue trivial

section

variable {settings : Settings} {first s s' : State} {action : Step} {call : SystemCall} {op : Op} {id : Id}
  {row row' : JobRow} {job : Job} {i : Nat} {choice : Choice} {r : Except Exc op.Val} {w w' : World}
  {next : Except Exc op.Val → Program Reply} {key : ObjectKey} {v v' : Version} {type : EventType}
  {origin : Option Site} {page page' : PageRow}

/-! ### Names -/

theorem PageRow.started_names : page.started.Names key ↔ page.Names key := by
  unfold PageRow.started
  split <;> rfl

theorem Version.Names.setPage {index : Nat} (found : v.pages[index]? = some page)
    (keeps : page.Names key → page'.Names key) (names : v.Names key) : (v.setPage index page').Names key := by
  rcases names with ⟨other, member, named⟩ | named
  · obtain ⟨j, at_j⟩ := List.mem_iff_getElem?.mp member
    by_cases here : j = index
    · subst here
      cases Option.some.inj (found.symm.trans at_j)
      obtain ⟨below, -⟩ := List.getElem?_eq_some_iff.mp at_j
      exact .inl ⟨page', List.mem_of_getElem? (List.getElem?_set_self below), keeps named⟩
    · have same : (v.pages.set index page')[j]? = some other := by
        rw [List.getElem?_set_ne (Ne.symm here)]
        exact at_j
      exact .inl ⟨other, List.mem_of_getElem? same, named⟩
  · exact .inr named

/-- A save keeps the names of the attempt, unless it replaces a page's objects. -/
theorem Edit.names (edit : Edit origin v type v') (only : v.artifacts ≠ 0 → v.state = .succeeded)
    (names : v.Names key) :
    (type = .pageSucceeded ∧ ∃ page ∈ v.pages, page.resultObjectKey = some key ∨ page.visualizationObjectKey = some key) ∨
      v'.attempt = v.attempt + 1 ∨ v'.Names key := by
  cases edit with
  | pagesPrepared state none =>
    rcases names with ⟨page, member, -⟩ | named
    · rw [none] at member
      cases member
    · exact .inr (.inr (.inr named))
  | pageRunning active found => exact .inr (.inr (names.setPage found PageRow.started_names.mpr))
  | pageRetryScheduled active found => exact .inr (.inr (names.setPage found fun named => named))
  | pageFailed read found => exact .inr (.inr (names.setPage found fun named => named))
  | @pageSucceeded index page result sha256 visualization read active found =>
    by_cases other : page.resultObjectKey = some key ∨ page.visualizationObjectKey = some key
    · exact .inl ⟨rfl, page, List.mem_of_getElem? found, other⟩
    · refine .inr (.inr (names.setPage found fun named => ?_))
      exact .inl (named.resolve_right other)
  | succeeded state =>
    rcases names with named | ⟨artifact, member, -⟩
    · exact .inr (.inr (.inl named))
    · have some : v.artifacts ≠ 0 := fun none => by
        rw [none] at member
        exact absurd member (Multiset.notMem_zero _)
      rw [only some] at state
      cases state
  | retrying => exact .inr (.inl rfl)
  | _ => exact .inr (.inr names)

theorem JobRow.references_of_names (under : key.job? = some id) (names : row.version.Names key) :
    row.References id key := by
  rcases names with ⟨page, member, named⟩ | ⟨artifact, member, named⟩
  · exact ⟨under, row.currentAttempt, .inl ⟨page, member, named⟩⟩
  · exact ⟨under, row.currentAttempt, .inr ⟨artifact, member, named⟩⟩

theorem Job.names_iff : job.names key = true ↔ key.job? = some job.id ∧ job.version.Names key := by
  rw [Job.names, decide_eq_true_eq]
  refine and_congr_right fun _ => or_congr ⟨?_, ?_⟩ Iff.rfl
  · intro ⟨page, member, named⟩
    exact ⟨page.toRow, List.mem_map_of_mem member, named⟩
  · intro ⟨row, member, named⟩
    obtain ⟨page, memberPage, rfl⟩ := List.mem_map.mp member
    exact ⟨page, memberPage, named⟩

/-- The rows of all attempts keep their names in a save. -/
theorem JobRow.Saves.references (saves : row.Saves job row') (tidy : row.Tidy)
    (edit : Edit origin row.version type job.version) (references : row.References id key)
    (keeps : type = .pageSucceeded → ∀ page ∈ row.pages row.currentAttempt,
      key ∈ page.resultObjectKey.toList ++ page.visualizationObjectKey.toList → job.version.Names key) :
    row'.References id key := by
  have version := saves.version tidy edit
  obtain ⟨under, attempt, named⟩ := references
  by_cases here : attempt = job.attempt
  · subst here
    rcases edit.attempt with same | ⟨-, later⟩
    · change job.attempt = row.currentAttempt at same
      have names : row.version.Names key := by
        rw [same] at named
        rcases named with ⟨page, member, named⟩ | ⟨artifact, member, named⟩
        · exact .inl ⟨page, member, named⟩
        · exact .inr ⟨artifact, member, named⟩
      refine JobRow.references_of_names under ?_
      rw [version]
      rcases edit.names tidy.artifacts names with ⟨succeeded, page, member, object⟩ | later | kept
      · refine keeps succeeded page member (List.mem_append.mpr ?_)
        rcases object with result | visualization
        · exact .inl (Option.mem_toList.mpr result)
        · exact .inr (Option.mem_toList.mpr visualization)
      · change job.attempt = row.currentAttempt + 1 at later
        omega
      · exact kept
    · change job.attempt = row.currentAttempt + 1 at later
      rw [tidy.pagesLater job.attempt (by omega), tidy.artifactsLater job.attempt (by omega)] at named
      rcases named with ⟨page, member, -⟩ | ⟨artifact, member, -⟩
      · cases member
      · cases member
  · refine ⟨under, attempt, ?_⟩
    rcases named with ⟨page, member, named⟩ | ⟨artifact, member, named⟩
    · refine .inl ⟨page, ?_, named⟩
      rw [saves.pages, Function.update_of_ne here]
      exact member
    · refine .inr ⟨artifact, ?_, named⟩
      rw [saves.artifacts]
      split
      · exact member
      · rw [Function.update_of_ne here]
        exact member

/-! ### What is put, and what is claimed -/

@[simp] theorem draftsOf_answered (call : SystemCall) (op : Op) (r : Except Exc op.Val)
    (next : Except Exc op.Val → Program Reply) :
    draftsOf (call.answered (S := Sig) op r next) = nextDrafts (draftsOf call) op r := rfl

theorem mem_nextDrafts (op : Op) (r : Except Exc op.Val) {drafts : List ObjectKey} (member : key ∈ drafts) :
    key ∈ nextDrafts drafts op r ∨
      ∃ job event saved, (⟨op, r⟩ : (op : Op) × Except Exc op.Val) = ⟨.saveWithEvent job event, .ok saved⟩ ∧
        job.names key = true := by
  cases op with
  | putBytes => exact .inl (List.mem_cons_of_mem _ member)
  | prepare =>
    cases r with
    | error e => exact .inl member
    | ok pages => exact .inl (List.mem_append_right _ member)
  | saveWithEvent job event =>
    cases r with
    | error e => exact .inl member
    | ok saved =>
      by_cases named : job.names key = true
      · exact .inr ⟨job, event, saved, rfl, named⟩
      · exact .inl (List.mem_filter.mpr ⟨member, by simpa using named⟩)
  | _ => exact .inl member

/-- An object under the prefix of a job that is there after a call was there
before, or the call has put it. -/
theorem Owners.put_under (owners : Owners s) (member : call ∈ s.calls) (prog : call.prog = .call op next)
    (allowed : call.task.contract.allow (memoryOf call) op)
    (executed : World.exec settings i op choice s.world = some (r, w)) (under : key.job? = some id)
    (there : (w.objects key).isSome = true) :
    (s.world.objects key).isSome = true ∨ ∃ data, (key, data) ∈ putting call choice := by
  have change := World.exec_objects executed key
  obtain ⟨object, now⟩ := Option.isSome_iff_exists.mp there
  rw [now] at change
  cases before : s.world.objects key with
  | some old => exact .inl rfl
  | none =>
    rw [before] at change
    refine .inr ?_
    cases change with
    | put writes =>
      subst writes
      exact ⟨_, by simp only [putting, prog]; exact List.mem_singleton.mpr rfl⟩
    | @prepared upload job written result object writes answer memberObject own =>
      subst writes own
      refine ⟨object.data, ?_⟩
      simp only [putting, prog, answer]
      exact List.mem_map.mpr ⟨object, memberObject, rfl⟩
    | uploaded _ own =>
      rw [own] at under
      cases under
    | assembled assembles =>
      subst assembles
      obtain ⟨ownerId, owner⟩ := Task.contract_owner allowed rfl
      obtain ⟨-, ⟨upload, checks, same⟩, -⟩ := (owners.accessing call member).requests prog owner
      rw [← same, (owners.told_upload member checks.read).2.1] at under
      cases under

/-- What a call puts is among what it has put, and the job table stays. -/
theorem put_drafts {data : Content} (prog : call.prog = .call op next)
    (executed : World.exec settings i op choice w = some (r, w')) (puts : (key, data) ∈ putting call choice)
    (complete : spills call choice = false) : key ∈ nextDrafts (draftsOf call) op r ∧ w'.jobs = w.jobs := by
  simp only [putting, prog] at puts
  cases op with
  | putBytes at_key data' type =>
    cases List.mem_singleton.mp puts
    exact ⟨List.mem_cons_self, World.exec_same (show Part.jobs ∉ _ by simp [Op.writes]) executed⟩
  | prepare upload job =>
    refine ⟨?_, World.exec_same (show Part.jobs ∉ _ by simp [Op.writes]) executed⟩
    rcases World.exec_cases executed with ⟨_, -, raises, -⟩ | ⟨r₀, performed, rfl | ⟨_, -, raises, -⟩⟩
    · cases raises
    · simp only [spills, prog] at complete
      generalize choice.answer = answer at performed puts complete
      cases answer with
      | prepared written result =>
        simp only [World.perform] at performed
        split at performed
        · rename_i fits
          cases performed
          obtain ⟨object, member, same⟩ := List.mem_map.mp puts
          cases same
          cases r with
          | error e =>
            cases written with
            | nil => cases member
            | cons => cases complete
          | ok pages =>
            simp only [World.preparedBy, decide_eq_true_eq] at fits
            obtain ⟨page, memberPage, own⟩ := fits.2.2 object member
            exact List.mem_append_left _ (List.mem_map.mpr ⟨page, memberPage, own⟩)
        · cases performed
      | _ => cases puts
    · cases raises
  | _ => cases puts

/-- A row that becomes a claimed one is claimed by a cleaner. -/
theorem mem_claiming (prog : call.prog = .call op next)
    (change : RowChange (memoryOf call) w op id (some row) (some row')) (stored : w.jobs id = some row)
    (executed : World.exec settings i op choice w = some (r, w')) (now : w'.jobs id = some row')
    (free : row.claim.isSome = false) (claimed : row'.claim.isSome = true) : id ∈ claiming call choice := by
  have different : row' ≠ row := fun same => by
    rw [same, free] at claimed
    cases claimed
  cases change with
  | same => exact absurd rfl different
  | saved _ _ _ _ _ _ saves =>
    rw [JobRow.append_claim, saves.claim] at claimed
    cases claimed
  | reported =>
    rw [JobRow.append_claim, free] at claimed
    cases claimed
  | deferred _ _ _ held =>
    rw [held] at free
    cases free
  | claimed call' =>
    subst call'
    simp only [claiming, prog]
    rcases World.exec_cases executed with ⟨_, -, -, rfl⟩ | ⟨r₀, performed, -⟩
    · exact absurd (Option.some.inj (now.symm.trans stored)) different
    · generalize choice.answer = answer at performed
      cases answer with
      | picked jobs uploads =>
        obtain ⟨⟨candidates, w₀⟩, done, same⟩ := Option.map_eq_some_iff.mp performed
        cases same
        rcases World.claimExpired_some done with ⟨-, rfl⟩ | claims
        · exact absurd (Option.some.inj (now.symm.trans stored)) different
        · by_cases member : id ∈ jobs
          · exact member
          · have kept := claims.jobs id
            rw [if_neg member, stored] at kept
            exact absurd (Option.some.inj (now.symm.trans kept)) different
      | _ => cases performed

/-! ### All objects are accounted for -/

/-- Every object under the prefix of a job is named by its rows, or about to be
named; none is left of a job that is gone, and none of what was deleted. -/
structure Swept (s : State) : Prop where
  named : ∀ id row, s.world.jobs id = some row → ∀ key, key.job? = some id → (s.world.objects key).isSome = true →
    row.References id key ∨
      row.claim.isSome = false ∧ ∃ call ∈ s.calls, running call = true ∧ key ∈ draftsOf call
  gone : ∀ id, s.world.jobs id = none → ∀ key, key.job? = some id → s.world.objects key = none
  deleted : ∀ call ∈ s.calls, ∀ key ∈ (sweepOf call).deleted, key.job?.isSome = true → s.world.objects key = none

theorem Accounted.references (coherent : Coherent s) (accounted : Accounted s key) (under : key.job? = some id)
    (there : (s.world.objects key).isSome = true) (stored : s.world.jobs id = some row) : row.References id key := by
  obtain ⟨other, found, named⟩ := accounted id under there
  cases Option.some.inj (stored.symm.trans found)
  exact (coherent.consistent.tidy id row stored).mem_referencedKeys.mp named

/-- Nothing is put under the prefix of a job that is claimed or gone. -/
theorem Tidies.unwritten (owners : Owners s) (tidies : Tidies settings s action) (moves : Moves settings s action s')
    (closed : ∀ row, s.world.jobs id = some row → row.claim.isSome = true) (under : key.job? = some id)
    (there : (s'.world.objects key).isSome = true) : (s.world.objects key).isSome = true := by
  cases moves with
  | start => exact there
  | kill => exact there
  | env event =>
    rw [World.rebalance_kafka] at there
    exact there
  | @resume i choice call op r next w at_i prog executed allowed =>
    rcases owners.put_under (List.mem_of_getElem? at_i) prog allowed executed under there with before | ⟨data, puts⟩
    · exact before
    · obtain ⟨row, stored, free⟩ := (tidies.1 call at_i).puts (key, data) puts id under
      rw [closed row stored] at free
      cases free

/-- A save by the rules, and all else, keeps the names of the row. -/
theorem Orderly.references (coherent : Coherent s) (orderly : Orderly s call choice) (prog : call.prog = .call op next)
    (stored : s.world.jobs id = some row) (change : RowChange (memoryOf call) s.world op id (some row) (some row'))
    (there : (s.world.objects key).isSome = true) (references : row.References id key) : row'.References id key := by
  cases change with
  | same => exact references
  | claimed => exact references
  | deferred => exact references
  | reported =>
    rw [JobRow.append_row]
    exact references
  | @saved _ saved origin v job event call' own seen adopts edits current saves reports =>
    subst own
    have keeps := orderly.saves (job, event) (by rw [saving?, prog]; exact call')
    have edit : Edit origin row.version event.eventType job.version := current ▸ edits.edit
    have kept : saved.References job.id key := by
      refine saves.references (coherent.consistent.tidy _ row stored) edit references fun succeeded page member object => ?_
      exact (Job.names_iff.mp (keeps succeeded row stored page member key object references.1 there)).2
    rw [JobRow.append_row]
    exact kept

/-- A save of its own names what a call has put. -/
theorem Coherent.saved_names (coherent : Coherent s) (at_i : s.calls[i]? = some call)
    (allowed : call.task.contract.allow (memoryOf call) op)
    (executed : World.exec settings i op choice s.world = some (r, w)) {event : JobEvent} {saved : Nat × JobEvent}
    (saves : (⟨op, r⟩ : (op : Op) × Except Exc op.Val) = ⟨.saveWithEvent job event, .ok saved⟩)
    (named : job.names key = true) (under : key.job? = some id) (stored : w.jobs id = some row') :
    row'.References id key := by
  cases saves
  have here := List.mem_of_getElem? at_i
  have inv := coherent.consistent
  obtain ⟨own, names⟩ := Job.names_iff.mp named
  cases Option.some.inj (under.symm.trans own)
  obtain ⟨row, row₁, found, saves, -, effect⟩ := World.exec_saveWithEvent executed
  have after : w.jobs job.id = some (row₁.append event).2 := by
    rw [effect]
    exact (World.setJob_jobs _ _ _).trans (if_pos rfl)
  have derived : (memoryOf call).Derived event.eventType job := (Task.contract_writes allowed).1
  obtain ⟨other, there, -, version⟩ :=
    World.saved_stores inv.tidy (inv.known call here) (inv.lost call here) derived found saves after
  cases Option.some.inj (stored.symm.trans there)
  refine JobRow.references_of_names under ?_
  rw [version]
  exact names

/-- What the call `i` has put is named, or about to be. -/
theorem Leaves.drafts (coherent' : Coherent s') (leaves : Leaves settings s i action)
    (step : (system settings).step s action = some s') {before : SystemCall} (at_i : s.calls[i]? = some before)
    (runs : running before = true) (now : s'.calls[i]? = some call) (drafted : key ∈ draftsOf call)
    (under : key.job? = some id) (there : (s'.world.objects key).isSome = true)
    (stored : s'.world.jobs id = some row) :
    row.References id key ∨ ∃ call ∈ s'.calls, running call = true ∧ key ∈ draftsOf call := by
  by_cases going : running call = true
  · exact .inr ⟨call, List.mem_of_getElem? now, going, drafted⟩
  · have ended : running call = false := by simpa using going
    have accounted := leaves before at_i runs s' step call now ended key drafted
    exact .inl (accounted.references coherent' under there stored)

/-- Another call is still there. -/
theorem mem_resumed_other {j : Nat} {other : SystemCall} (at_j : s.calls[j]? = some other) (different : j ≠ i) :
    other ∈ (resumed s i call op r next w).calls := by
  have same : (s.calls.set i (call.answered (S := Sig) op r next))[j]? = some other := by
    rw [List.getElem?_set_ne (Ne.symm different)]
    exact at_j
  exact List.mem_of_getElem? same

/-- The step lemma for the objects of a job that is still there. -/
theorem Swept.named_resumed (coherent : Coherent s) (owners : Owners s) (swept : Swept s) 
    (at_i : s.calls[i]? = some call) (prog : call.prog = .call op next)
    (executed : World.exec settings i op choice s.world = some (r, w))
    (allowed : call.task.contract.allow (memoryOf call) op) (orderly : Orderly s call choice)
    (leaves : Leaves settings s i (.resume i choice)) (stored : w.jobs id = some row') (under : key.job? = some id)
    (there : (w.objects key).isSome = true) :
    row'.References id key ∨ row'.claim.isSome = false ∧
      ∃ other ∈ (resumed s i call op r next w).calls, running other = true ∧ key ∈ draftsOf other := by
  have member := List.mem_of_getElem? at_i
  have moves : Moves settings s (.resume i choice) (resumed s i call op r next w) :=
    .resume at_i prog executed allowed
  obtain ⟨below, -⟩ := List.getElem?_eq_some_iff.mp at_i
  have now : (resumed s i call op r next w).calls[i]? = some (call.answered (S := Sig) op r next) :=
    List.getElem?_set_self below
  have drafted : key ∈ nextDrafts (draftsOf call) op r → row'.References id key ∨
      ∃ other ∈ (resumed s i call op r next w).calls, running other = true ∧ key ∈ draftsOf other :=
    fun drafts => leaves.drafts (coherent.step moves.step).1 moves.step at_i (running_of prog) now drafts under there stored
  rcases owners.put_under member prog allowed executed under there with before | ⟨data, puts⟩
  · cases found : s.world.jobs id with
    | none =>
      rw [swept.gone id found key under] at before
      cases before
    | some row =>
      have change := coherent.consistent.rows at_i (Task.contract_writes allowed) executed id
      rw [stored, found] at change
      rcases swept.named id row found key under before with references | ⟨free, other, memberOther, runs, drafts⟩
      · exact .inl (orderly.references coherent prog found change before references)
      · by_cases claimed : row'.claim.isSome = true
        · have claims := orderly.claims id (mem_claiming prog change found executed stored free claimed)
          have accounted := claims row found free other memberOther runs key drafts under
          exact .inl (orderly.references coherent prog found change before
            (accounted.references coherent under before found))
        · have unclaimed : row'.claim.isSome = false := by simpa using claimed
          obtain ⟨j, at_j⟩ := List.mem_iff_getElem?.mp memberOther
          by_cases here : j = i
          · subst here
            cases Option.some.inj (at_i.symm.trans at_j)
            rcases mem_nextDrafts op r drafts with still | ⟨job, event, saved, saves, named⟩
            · exact (drafted still).imp_right fun going => ⟨unclaimed, going⟩
            · exact .inl (coherent.saved_names at_i allowed executed saves named under stored)
          · exact .inr ⟨unclaimed, other, mem_resumed_other at_j here, runs, drafts⟩
  · obtain ⟨row, found, free⟩ := orderly.puts (key, data) puts id under
    obtain ⟨drafts, jobs⟩ := put_drafts prog executed puts orderly.prepares
    have same : some row' = some row := by rw [← stored, jobs]; exact found
    cases same
    exact (drafted drafts).imp_right fun going => ⟨free, going⟩

/-- A job that goes leaves nothing behind. -/
theorem Swept.gone_resumed (coherent : Coherent s) (owners : Owners s) (fit : SweepsFit s) (swept : Swept s)
    (tidies : Tidies settings s action) (moves : Moves settings s action s') (gone : s'.world.jobs id = none)
    (under : key.job? = some id) : s'.world.objects key = none := by
  by_contra some
  have there : (s'.world.objects key).isSome = true := Option.isSome_iff_ne_none.mpr some
  have absent : s.world.jobs id ≠ none := by
    intro none
    have before := tidies.unwritten owners moves (fun row stored => by rw [none] at stored; cases stored) under there
    rw [swept.gone id none key under] at before
    cases before
  obtain ⟨row, stored⟩ := Option.ne_none_iff_exists'.mp absent
  cases moves with
  | start => exact absent gone
  | kill => exact absent gone
  | env event =>
    rw [World.rebalance_kafka] at gone
    exact absent gone
  | @resume i choice call op r next w at_i prog executed allowed =>
    have change := coherent.consistent.rows at_i (Task.contract_writes allowed) executed id
    rw [stored, show w.jobs id = none from gone] at change
    cases change with
    | @deleted row claim candidate same kind own held token =>
      subst same
      have here := List.mem_of_getElem? at_i
      have claimed : row.claim.isSome = true := by rw [held]; rfl
      have unchanged : w.objects = s.world.objects :=
        World.exec_same (show Part.objects ∉ _ by simp [Op.writes]) executed
      have before : (s.world.objects key).isSome = true := by
        rw [← unchanged]
        exact there
      rcases swept.named id row stored key under before with references | ⟨free, -⟩
      · obtain ⟨mine, deleted⟩ := (fit.sweeping call here).calls prog rfl
        obtain ⟨-, -, rows⟩ := (fit.claimed call here candidate mine).job kind
        have named := (rows row (by rw [own]; exact stored)).2 key (own.symm ▸ references)
        rw [swept.deleted call here key (deleted key named) (by rw [under]; rfl)] at before
        cases before
      · rw [claimed] at free
        cases free

theorem deleted_tried (deleted : key ∈ (sweepOf call).deleted) : key ∈ (sweepOf call).tried := by
  have each : ∀ past : List ((op : Op) × Except Exc op.Val),
      key ∈ (past.foldr (fun done m => Sweep.next m done.1 done.2) {}).deleted →
        key ∈ (past.foldr (fun done m => Sweep.next m done.1 done.2) {}).tried := by
    intro past member
    induction past with
    | nil => cases member
    | cons done rest ih =>
      obtain ⟨op, r⟩ := done
      simp only [List.foldr_cons] at member ⊢
      generalize rest.foldr (fun done m => Sweep.next m done.1 done.2) {} = m at member ih ⊢
      cases op with
      | deleteObject other =>
        cases r with
        | error e => exact List.mem_cons_of_mem _ (ih member)
        | ok =>
          rcases List.mem_cons.mp member with rfl | old
          · exact List.mem_cons_self
          · exact List.mem_cons_of_mem _ (ih old)
      | claimExpired => cases r <;> exact ih member
      | _ => exact ih member
  exact each call.past deleted

/-- What a cleaner has deleted of a job stays deleted. -/
theorem Swept.deleted_moves (owners : Owners s) (fit : SweepsFit s) (swept : Swept s)
    (tidies : Tidies settings s action) (moves : Moves settings s action s') (member : call ∈ s.calls)
    (deleted : key ∈ (sweepOf call).deleted) (under : key.job?.isSome = true) : s'.world.objects key = none := by
  obtain ⟨id, own⟩ := Option.isSome_iff_exists.mp under
  obtain ⟨candidate, fits, named⟩ := fit.tried call member key (deleted_tried deleted)
  have closed : ∀ row, s.world.jobs id = some row → row.claim.isSome = true := by
    intro row stored
    cases kind : candidate.aggregateKind with
    | job =>
      obtain ⟨-, keys, rows⟩ := fits.job kind
      have same : some id = some candidate.aggregateId := own.symm.trans (keys key named)
      exact (rows row (by rw [← Option.some.inj same]; exact stored)).1
    | upload =>
      rw [(fits.upload kind).2.1, List.mem_singleton] at named
      rw [named] at own
      cases own
  by_contra some
  have before := tidies.unwritten owners moves closed own (Option.isSome_iff_ne_none.mpr some)
  rw [swept.deleted call member key deleted under] at before
  cases before

theorem Swept.step (coherent : Coherent s) (owners : Owners s) (fit : SweepsFit s) (swept : Swept s)
    (tidies : Tidies settings s action) (moves : Moves settings s action s') : Swept s' := by
  refine ⟨fun id row stored key under there => ?_, fun id gone key under =>
    swept.gone_resumed coherent owners fit tidies moves gone under, ?_⟩
  · cases moves with
    | start task =>
      rcases swept.named id row stored key under there with references | ⟨free, call, member, runs, drafts⟩
      · exact .inl references
      · exact .inr ⟨free, call, List.mem_append_left _ member, runs, drafts⟩
    | kill i =>
      have killing : Moves settings s (.kill i) { s with calls := s.calls.modify i Call.killed } := .kill i
      have coherent' := (coherent.step killing.step).1
      rcases swept.named id row stored key under there with references | ⟨free, call, member, runs, drafts⟩
      · exact .inl references
      · obtain ⟨j, at_j⟩ := List.mem_iff_getElem?.mp member
        by_cases here : i = j
        · subst here
          have now : (s.calls.modify i Call.killed)[i]? = some call.killed := by
            rw [List.getElem?_modify, at_j]
            simp
          have leaves : Leaves settings s i (.kill i) := tidies
          rcases leaves.drafts coherent' rfl at_j runs now drafts under there stored with references | going
          · exact .inl references
          · exact .inr ⟨free, going⟩
        · have now : (s.calls.modify i Call.killed)[j]? = some call := by
            rw [List.getElem?_modify, at_j]
            simp [here]
          exact .inr ⟨free, call, List.mem_of_getElem? now, runs, drafts⟩
    | env event =>
      rw [World.rebalance_kafka] at stored there
      exact swept.named id row stored key under there
    | @resume i choice call op r next w at_i prog executed allowed =>
      exact swept.named_resumed coherent owners at_i prog executed allowed (tidies.1 call at_i) tidies.2 stored
        under there
  · have kept : ∀ call ∈ s.calls, ∀ key ∈ (sweepOf call).deleted, key.job?.isSome = true →
        s'.world.objects key = none :=
      fun call member key deleted under => swept.deleted_moves owners fit tidies moves member deleted under
    refine moves.calls kept (fun task key deleted => by cases deleted) (fun call held => held) ?_
    intro i choice call op r next member prog executed there key deleted under
    rcases Sweep.next_deleted (m := sweepOf call) deleted with same | before
    · cases same
      obtain ⟨-, effect⟩ := Prod.mk.inj (Option.some.inj (World.exec_ok executed))
      rw [← effect]
      exact (World.setObject_objects ..).trans (if_pos rfl)
    · exact kept call member key before under

theorem Initial.swept (initial : Initial s) : Swept s where
  named id row stored := by
    rw [initial.world.jobs] at stored
    cases stored
  gone id _ key under := initial.world.objects key id under
  deleted := by simp [initial.calls]

theorem deletes_entry {entry : (op : Op) × Except Exc op.Val} (reported : deletes id entry = true) :
    ∃ candidate, entry = ⟨.complete candidate, .ok true⟩ ∧ candidate.aggregateKind = .job ∧
      candidate.aggregateId = id := by
  obtain ⟨op, r⟩ := entry
  unfold deletes at reported
  split at reported
  · rename_i candidate same
    cases same
    exact ⟨candidate, rfl, of_decide_eq_true reported⟩
  · cases reported

theorem completions_pos {candidate : RetentionCandidate} (member : call ∈ s.calls)
    (reported : ⟨.complete candidate, .ok true⟩ ∈ call.past) (kind : candidate.aggregateKind = .job) :
    0 < completions s candidate.aggregateId := by
  have counted : 0 < deletionsOf candidate.aggregateId call :=
    List.countP_pos_iff.mpr ⟨_, reported, decide_eq_true ⟨kind, rfl⟩⟩
  exact counted.trans_le (List.le_sum_of_mem (List.mem_map_of_mem member))

/-- As long as every object that a delivery puts is named by a row before the
delivery ends and before the job is claimed, nothing is left of a job whose
deletion was reported. -/
theorem leftovers_removed (initial : Initial first) (run : (system settings).Run (Tidies settings) first s) :
    ∀ call ∈ s.calls, ∀ candidate : RetentionCandidate, ⟨.complete candidate, .ok true⟩ ∈ call.past →
      candidate.aggregateKind = .job → ∀ key : ObjectKey, key.job? = some candidate.aggregateId →
        s.world.objects key = none := by
  intro call member candidate reported kind
  obtain ⟨-, -, -, swept, once⟩ := initial.coherent.induction run
    (J := fun s => Owners s ∧ SweepsFit s ∧ Swept s ∧ DeletedOnce s candidate.aggregateId)
    ⟨initial.owners, initial.sweepsFit, initial.swept, initial.deletedOnce⟩
    fun _ _ _ coherent ⟨owners, fit, swept, once⟩ tidies moves =>
      ⟨owners.step coherent moves, fit.step coherent moves, swept.step coherent owners fit tidies moves,
        once.step coherent moves⟩
  exact swept.gone _ (once.gone (completions_pos member reported kind)).2

end

/-- The job of the page that was saved is deleted with it. -/
theorem leftovers_removed_cleaned : ∃ s call candidate,
    (system {}).runsIf (Tidies {}) oneDocument (sweepSteps ++ [.resume 4 .go]) = some s ∧ call ∈ s.calls ∧
    ⟨.complete candidate, .ok true⟩ ∈ call.past ∧ candidate.aggregateKind = .job ∧
    candidate.aggregateId = 1 ∧ ∀ key : ObjectKey, key.job? = some 1 → s.world.objects key = none := by
  have played : ((system {}).runsIf (Tidies {}) oneDocument (sweepSteps ++ [.resume 4 .go])).any (fun s =>
      s.calls.any fun call => call.past.any (deletes 1)) = true := by decide +kernel
  obtain ⟨s, runs, rest⟩ := (Option.any_eq_true _ _).mp played
  obtain ⟨call, member, rest⟩ := List.any_eq_true.mp rest
  obtain ⟨entry, done, reported⟩ := List.any_eq_true.mp rest
  obtain ⟨candidate, rfl, kind, own⟩ := deletes_entry reported
  have removed := leftovers_removed oneDocument_initial (.of_runsIf runs) call member candidate done kind
  rw [own] at removed
  exact ⟨s, call, candidate, runs, member, done, kind, own, removed⟩

/-- The job is cancelled while a delivery assembles its documents; the delivery
ends, and a year later a cleaner claims the job and deletes it. -/
def cancelledAssembly : List Step :=
  createSteps 0 ++ deliverSteps 1 ++ recognizeSteps 1 blankResult ++ answered 1 [.now, .now, .go, .go, .go] ++
    cancelSteps 2 ++ answered 1 [.go, .go, .go, .now, .go, .go, .now, .now, .go] ++
    .start (.runBatch 10 60 (some (days 400))) :: answered 3 [{ answer := .picked [1] [] }, .go, .go]

/-- The call is a delivery of a message of the job that has not ended. -/
def delivering (id : Id) (call : SystemCall) : Bool :=
  match call.task with
  | .process _ message => message.jobId = id && running call
  | _ => false

/-- A deletion of an object that failed. -/
def undeleted : (op : Op) × Except Exc op.Val → Bool
  | ⟨.deleteObject _, .error _⟩ => true
  | _ => false

/-- The documents of a cancelled assembly are named by no row, and stay. -/
theorem leftovers_stay : ¬ ∀ (settings : Settings) (first s : State), Initial first → Reaches settings first s →
    ∀ call ∈ s.calls, ∀ candidate : RetentionCandidate, ⟨.complete candidate, .ok true⟩ ∈ call.past →
      candidate.aggregateKind = .job → s.calls.any (delivering candidate.aggregateId) = false →
        s.calls.any (fun call => call.past.any undeleted) = false →
          ∀ key : ObjectKey, key.job? = some candidate.aggregateId → s.world.objects key = none := by
  intro claim
  have played : ((system {}).runs oneDocument cancelledAssembly).any (fun s =>
      s.calls.any (fun call => call.past.any (deletes 1)) && !s.calls.any (delivering 1) &&
        !s.calls.any (fun call => call.past.any undeleted) &&
        (s.world.objects (.document 1 1 .markdown)).isSome) = true := by decide +kernel
  obtain ⟨s, runs, rest⟩ := (Option.any_eq_true _ _).mp played
  obtain ⟨rest, stays⟩ := (Bool.and_eq_true _ _).mp rest
  obtain ⟨rest, removed⟩ := (Bool.and_eq_true _ _).mp rest
  obtain ⟨rest, quiet⟩ := (Bool.and_eq_true _ _).mp rest
  obtain ⟨call, member, rest⟩ := List.any_eq_true.mp rest
  obtain ⟨entry, done, reported⟩ := List.any_eq_true.mp rest
  obtain ⟨candidate, rfl, kind, own⟩ := deletes_entry reported
  have idle : s.calls.any (delivering candidate.aggregateId) = false := by
    rw [own]
    exact (Bool.not_eq_true' _).mp quiet
  have gone := claim {} oneDocument s oneDocument_initial (.of_runs runs fun _ _ _ => trivial) call member candidate
    done kind idle ((Bool.not_eq_true' _).mp removed) (.document 1 1 .markdown) (by rw [own]; rfl)
  rw [gone] at stays
  cases stays

end MonkeyOcr
