import MonkeyOcr.Sequential.Alone
import Mathlib.Tactic.Ring

namespace MonkeyOcr

open Calls
open Codec (Json)

/-- A page the engine is asked to recognize, in an attempt of its job. -/
structure Recognition where
  attempt : Nat
  page : Nat
  deriving DecidableEq

/-- The recognition that a delivery of the job awaits. -/
def recognition? (id : Id) (call : SystemCall) : Option Recognition :=
  match call.prog with
  | .call (.recognize _ number _ _) _ =>
    (workOf call).bind fun message => if message.jobId = id then some ⟨message.attempt, number⟩ else none
  | _ => none

/-- The recognition that begins with a step. -/
def recognized? (id : Id) (s' : State) : Step → Option Recognition
  | .start _ => s'.calls.getLast?.bind (recognition? id)
  | .resume i _ => s'.calls[i]?.bind (recognition? id)
  | _ => none

/-- A history with one delivery of the job at a time, and the recognitions it
has begun. -/
inductive History (settings : Settings) (id : Id) (first : State) : State → List Recognition → Prop
  | start : History settings id first first []
  | next {s s' : State} {action : Step} {log : List Recognition} : History settings id first s log → Alone id s →
      (system settings).step s action = some s' →
      History settings id first s' (log ++ (recognized? id s' action).toList)

/-- Such a history, played. -/
def record (settings : Settings) (id : Id) : State → List Recognition → List Step → Option (State × List Recognition)
  | s, log, [] => some (s, log)
  | s, log, action :: rest =>
    if Alone id s then ((system settings).step s action).bind fun s' =>
      record settings id s' (log ++ (recognized? id s' action).toList) rest
    else none

/-- The counter of the page with this number has reached `tries`. -/
def Counted (pages : List PageRow) (number tries : Nat) : Prop :=
  tries = 0 ∨ ∃ page ∈ pages, page.pageNumber = number ∧ tries ≤ page.retryCount

/-- The page that the engine was asked for last, among these calls. -/
def lastRecognized? (past : List ((op : Op) × Except Exc op.Val)) : Option Nat :=
  past.findSome? fun done =>
    match done with
    | ⟨.recognize _ number _ _, _⟩ => some number
    | _ => none

/-- The page `number` of the attempt of the message is stored with these
properties. -/
def World.HasPage (w : World) (message : JobWorkMessage) (number : Nat) (holds : PageRow → Prop) : Prop :=
  ∃ row, w.jobs message.jobId = some row ∧ row.currentAttempt = message.attempt ∧
    (∃ page ∈ row.pages message.attempt, page.pageNumber = number) ∧
    ∀ page ∈ row.pages message.attempt, page.pageNumber = number → holds page

/-- The pages of a job and what was begun for them, within `most` tries. -/
structure Budget (most : Nat) (id : Id) (s : State) (log : List Recognition) : Prop where
  spent : ∀ recognition, log.count recognition ≤ most
  fresh : Unborn s id → log = []
  counted : ∀ row, s.world.jobs id = some row → ∀ n p, Counted (row.pages n) p (log.count ⟨n, p⟩)
  bounded : ∀ row, s.world.jobs id = some row → ∀ n, ∀ page ∈ row.pages n, page.retryCount ≤ most

section

variable {settings : Settings} {first s s' : State} {action : Step} {call : SystemCall} {op : Op} {w : World}
  {id : Id} {row row' : JobRow} {v : Job} {message : JobWorkMessage} {log : List Recognition} {m : Memory}
  {rows : List PageRow} {index : Nat} {number tries most : Nat}

theorem History.of_record {actions : List Step} {log' : List Recognition}
    (history : History settings id first s log) (h : record settings id s log actions = some (s', log')) :
    History settings id first s' log' := by
  induction actions generalizing s log with
  | nil =>
    cases h
    exact history
  | cons action rest ih =>
    unfold record at h
    split at h
    · rename_i alone
      obtain ⟨middle, step, tail⟩ := Option.bind_eq_some_iff.mp h
      exact ih (.next history alone step) tail
    · cases h

theorem Counted.set {old new : PageRow} (found : rows[index]? = some old) (same : new.pageNumber = old.pageNumber)
    (more : old.retryCount ≤ new.retryCount) (counted : Counted rows number tries) :
    Counted (rows.set index new) number tries := by
  rcases counted with none | ⟨page, member, named, reached⟩
  · exact .inl none
  · obtain ⟨position, at_position⟩ := List.mem_iff_getElem?.mp member
    by_cases here : index = position
    · subst here
      cases Option.some.inj (found.symm.trans at_position)
      obtain ⟨bound, -⟩ := List.getElem?_eq_some_iff.mp found
      exact .inr ⟨new, List.mem_set bound new, same.trans named, reached.trans more⟩
    · refine .inr ⟨page, List.mem_iff_getElem?.mpr ⟨position, ?_⟩, named, reached⟩
      rw [List.getElem?_set_ne here]
      exact at_position

theorem PageRow.started_pageNumber (page : PageRow) : page.started.pageNumber = page.pageNumber := by
  unfold PageRow.started
  split <;> rfl

theorem PageRow.started_retryCount (page : PageRow) : page.retryCount ≤ page.started.retryCount := by
  unfold PageRow.started
  split
  · exact le_rfl
  · exact Nat.le_succ _

/-- No save of an attempt takes a try back. -/
theorem Edit.counted {origin : Option Site} {v v' : Version} {type : EventType} (edit : Edit origin v type v')
    (same : v'.attempt = v.attempt) (counted : Counted v.pages number tries) : Counted v'.pages number tries := by
  cases edit with
  | pagesPrepared _ none =>
    rcases counted with zero | ⟨page, member, -⟩
    · exact .inl zero
    · rw [none] at member
      cases member
  | @pageRunning index page active found => exact counted.set found page.started_pageNumber page.started_retryCount
  | pageRetryScheduled _ found => exact counted.set found rfl le_rfl
  | pageSucceeded _ _ found => exact counted.set found rfl le_rfl
  | pageFailed _ found => exact counted.set found rfl le_rfl
  | retrying => exact absurd same (Nat.succ_ne_self _)
  | _ => exact counted

/-- Only the start of a page counts a try. -/
theorem Edit.bounded {origin : Option Site} {v v' : Version} {type : EventType} (edit : Edit origin v type v')
    (other : type ≠ .pageRunning) (bounded : ∀ page ∈ v.pages, page.retryCount ≤ most) :
    ∀ page ∈ v'.pages, page.retryCount ≤ most := by
  have replaced : ∀ {index : Nat} {old new : PageRow}, v.pages[index]? = some old →
      new.retryCount = old.retryCount → ∀ page ∈ v.pages.set index new, page.retryCount ≤ most := by
    intro index old new found same page member
    rcases List.mem_or_eq_of_mem_set member with kept | rfl
    · exact bounded page kept
    · exact same.trans_le (bounded old (List.mem_of_getElem? found))
  cases edit with
  | pagesPrepared _ _ _ _ fresh =>
    intro page member
    obtain ⟨-, zero, -⟩ := fresh page member
    omega
  | pageRunning => exact absurd rfl other
  | pageRetryScheduled _ found => exact replaced found rfl
  | pageSucceeded _ _ found => exact replaced found rfl
  | pageFailed _ found => exact replaced found rfl
  | retrying =>
    intro page member
    obtain ⟨old, memberOld, rfl⟩ := List.mem_map.mp member
    unfold PageRow.retried
    split
    · exact bounded old memberOld
    · exact Nat.zero_le _
  | _ => exact bounded

/-- A save writes the pages of its own attempt. -/
theorem JobRow.Saves.pages_update {job : Job} {origin : Option Site} {type : EventType} (saves : row.Saves job row')
    (tidy : row.Tidy) (edit : Edit origin row.version type job.version) :
    row'.pages = Function.update row.pages job.attempt job.version.pages := by
  have version := congrArg Version.pages (saves.version tidy edit)
  simp only [JobRow.version, saves.attempt] at version
  rw [← version, saves.pages, Function.update_self]

theorem RowChange.counted (change : RowChange m w op id (some row) (some row')) (tidy : row.Tidy)
    {tries : Nat → Nat → Nat} (counted : ∀ n p, Counted (row.pages n) p (tries n p)) :
    ∀ n p, Counted (row'.pages n) p (tries n p) := by
  cases change with
  | same => exact counted
  | saved _ _ _ _ edits current saves =>
    rename_i saved origin base job event call own member adopts reports
    have edit : Edit origin row.version event.eventType job.version := current ▸ edits.edit
    intro n p
    rw [JobRow.append_pages, saves.pages_update tidy edit]
    by_cases here : n = job.attempt
    · rw [here, Function.update_self]
      rcases edit.attempt with same | ⟨-, later⟩
      · exact edit.counted same ((show job.attempt = row.currentAttempt from same) ▸ counted job.attempt p)
      · have before := counted job.attempt p
        rw [tidy.pagesLater job.attempt (show row.currentAttempt < job.version.attempt by rw [later]; exact Nat.lt_succ_self _)] at before
        rcases before with none | ⟨page, member, -⟩
        · exact .inl none
        · cases member
    · rw [Function.update_of_ne here]
      exact counted n p
  | reported =>
    rw [JobRow.append_pages]
    exact counted
  | claimed => exact counted
  | deferred => exact counted

theorem RowChange.bounded (change : RowChange m w op id (some row) (some row')) (tidy : row.Tidy)
    (started : ∀ job event, op.saved? = some (job, event) → job.id = id → event.eventType = .pageRunning →
      ∀ page ∈ job.version.pages, page.retryCount ≤ most)
    (bounded : ∀ n, ∀ page ∈ row.pages n, page.retryCount ≤ most) :
    ∀ n, ∀ page ∈ row'.pages n, page.retryCount ≤ most := by
  cases change with
  | same => exact bounded
  | saved call own member adopts edits current saves =>
    rename_i saved origin base job event reports
    have edit : Edit origin row.version event.eventType job.version := current ▸ edits.edit
    intro n
    rw [JobRow.append_pages, saves.pages_update tidy edit]
    by_cases here : n = job.attempt
    · rw [here, Function.update_self]
      by_cases running : event.eventType = .pageRunning
      · exact started job event call own running
      · exact edit.bounded running (bounded row.currentAttempt)
    · rw [Function.update_of_ne here]
      exact bounded n
  | reported =>
    rw [JobRow.append_pages]
    exact bounded
  | claimed => exact bounded
  | deferred => exact bounded

/-- A delivery makes the calls that are asked of it. -/
theorem Sequenced.calls (sequenced : Sequenced settings id s) (member : call ∈ s.calls)
    {next : Except Exc op.Val → Program Reply} (prog : call.prog = .call (S := Sig) op next)
    (works : workOf call = some message) (own : message.jobId = id) :
    (courseOf call).message = some message ∧ (courseOf call).calls settings message op := by
  have tracked := sequenced.tracked call member
  rw [Tracks, prog] at tracked
  have at_m : (courseOf call).message = some message := by
    rw [courseOf_message]
    exact sequenced.messages.memory member works
  exact ⟨at_m, tracked.1 message at_m own⟩

/-- A delivery that is at a page finds the page stored like that. -/
theorem Sequenced.turn (sequenced : Sequenced settings id s) (member : call ∈ s.calls)
    (delivering : delivers id call = true) (own : message.jobId = id) {page : Page}
    (turn : (courseOf call).Turn message v index page) :
    ∃ row, s.world.jobs id = some row ∧ row.currentAttempt = message.attempt ∧
      row.version.pages = v.version.pages ∧ (row.pages message.attempt)[index]? = some page.toRow := by
  obtain ⟨row, stored, -, stays⟩ := sequenced.knows call member delivering v turn.known (turn.own.trans own)
    (by rw [turn.state]; rfl)
  have attempt : row.currentAttempt = message.attempt := stays.attempt.trans turn.attempt
  have pages : row.version.pages = v.version.pages := by
    rw [← JobRow.version_toJob v.id]
    exact stays.pages
  have found : row.version.pages[index]? = some page.toRow := by
    rw [pages, Job.version, List.getElem?_map, turn.found]
    rfl
  refine ⟨row, by rw [← own, ← turn.own]; exact stored, attempt, pages, ?_⟩
  rw [← attempt]
  exact found

/-- The page of a turn, by its number. -/
theorem Sequenced.hasPage (sequenced : Sequenced settings id s) (coherent : Coherent s) (member : call ∈ s.calls)
    (delivering : delivers id call = true) (own : message.jobId = id) {page : Page}
    (turn : (courseOf call).Turn message v index page) :
    s.world.HasPage message page.pageNumber fun stored => stored = page.toRow := by
  obtain ⟨row, stored, attempt, -, found⟩ := sequenced.turn member delivering own turn
  have sorted := (coherent.consistent.tidy _ _ stored).ordered message.attempt
  have here := List.mem_of_getElem? found
  refine ⟨row, own ▸ stored, attempt, ⟨page.toRow, here, rfl⟩, fun other there same => ?_⟩
  exact Tables.Sorted.unique sorted there here same

theorem Course.next_past (s : Course) (op : Op) (r : Except Exc op.Val) :
    (s.next op r).past = ⟨op, r⟩ :: s.past ∨ (s.next op r).past = [] := by
  cases op with
  | getMany =>
    rcases r with e | _ | record
    · exact .inl rfl
    · exact .inl rfl
    · exact .inr rfl
  | _ => exact .inl rfl

/-- A call that awaits a recognition. -/
theorem recognition?_some {recognition : Recognition} (asked : recognition? id call = some recognition) :
    ∃ image options requestId next message, call.prog = .call (S := Sig)
        (.recognize image recognition.page options requestId) next ∧
      workOf call = some message ∧ message.jobId = id ∧ recognition.attempt = message.attempt := by
  unfold recognition? at asked
  split at asked
  · rename_i image number options requestId next prog
    obtain ⟨message, works, same⟩ := Option.bind_eq_some_iff.mp asked
    split at same
    · rename_i own
      cases same
      exact ⟨image, options, requestId, next, message, prog, works, own, rfl⟩
    · cases same
  · cases asked

/-- A save that starts a page stays within the budget. -/
theorem Sequenced.started (sequenced : Sequenced settings id s) (member : call ∈ s.calls)
    {next : Except Exc op.Val → Program Reply} (prog : call.prog = .call (S := Sig) op next)
    (allowed : call.task.contract.allow (memoryOf call) op) {job : Job} {event : JobEvent}
    (saved : op.saved? = some (job, event)) (own : job.id = id) (type : event.eventType = .pageRunning)
    (bounded : ∀ row, s.world.jobs id = some row → ∀ n, ∀ page ∈ row.pages n,
      page.retryCount ≤ settings.maxPageRetries + 1) :
    ∀ page ∈ job.version.pages, page.retryCount ≤ settings.maxPageRetries + 1 := by
  have delivering : delivers id call = true := by
    by_contra other
    have outside := external sequenced.messages member allowed prog (by simpa using other) job event saved own
    rw [type] at outside
    rcases outside with asked | ⟨cancelled, -⟩ | retrying
    · cases asked
    · cases cancelled
    · cases retrying
  obtain ⟨op', next', message, prog', -, works, named⟩ := delivers_work delivering
  rcases workOf_allowed works allowed with ⟨_, -, worker⟩ | consumer
  · cases op with
    | saveWithEvent =>
      cases saved
      obtain ⟨-, saves⟩ := sequenced.calls member prog works named
      change (courseOf call).saves settings message job event at saves
      unfold Course.saves at saves
      rw [type] at saves
      obtain ⟨v, index, page, turn, few, rfl, -⟩ := saves
      obtain ⟨row, stored, -, pages, -⟩ := sequenced.turn member delivering named turn
      intro other there
      rw [Job.setPage, Job.version, List.map_set] at there
      rcases List.mem_or_eq_of_mem_set there with old | rfl
      · exact bounded row stored row.currentAttempt other (show other ∈ row.version.pages from pages ▸ old)
      · rw [Page.start, if_neg turn.unfinished]
        exact few
    | saveWithOutboxAndEvent => exact worker.elim
    | _ => cases saved
  · cases op <;> first | exact consumer.elim | cases saved

/-- The save a recognition is begun with: it counts the try. -/
theorem Sequenced.begins (sequenced : Sequenced settings id s) (coherent : Coherent s)
    (moves : Moves settings s action s') (sequenced' : Sequenced settings id s') {recognition : Recognition}
    (asked : recognized? id s' action = some recognition) :
    ∃ row row' index page, s.world.jobs id = some row ∧ s'.world.jobs id = some row' ∧
      (row.pages recognition.attempt)[index]? = some page ∧ page.pageNumber = recognition.page ∧
      page.status ≠ .succeeded ∧ row'.pages = Function.update row.pages recognition.attempt
        ((row.pages recognition.attempt).set index page.started) := by
  have awaits : ∀ call ∈ s'.calls, recognition? id call = some recognition →
      ∃ message job event saved rest, workOf call = some message ∧ message.jobId = id ∧
        recognition.attempt = message.attempt ∧
        (courseOf call).past = ⟨.saveWithEvent job event, .ok saved⟩ :: rest ∧ event.eventType = .pageRunning ∧
        ∃ page : Page, page.pageNumber = recognition.page ∧ event.data = Course.startedData page := by
    intro call member asked
    obtain ⟨image, options, requestId, next, message, prog, works, own, attempt⟩ := recognition?_some asked
    obtain ⟨-, v, index, page, turn, number, -, -, job, event, saved, rest, past, type, data⟩ :=
      sequenced'.calls member prog works own
    exact ⟨message, job, event, saved, rest, works, own, attempt, past, type, page, number, data⟩
  cases moves with
  | start task =>
    simp only [recognized?, List.getLast?_concat, Option.bind_some] at asked
    obtain ⟨message, job, event, saved, rest, works, own, attempt, past, -⟩ :=
      awaits _ (List.mem_append_right _ (List.mem_singleton_self _)) asked
    rw [courseOf_begin] at past
    cases task <;> cases past
  | kill => cases asked
  | env => cases asked
  | @resume i choice call op r next w at_i prog executed allowed =>
    have here := List.mem_of_getElem? at_i
    have bound := (List.getElem?_eq_some_iff.mp at_i).1
    simp only [recognized?, List.getElem?_set_self bound, Option.bind_some] at asked
    obtain ⟨message, job, event, saved, rest, works, own, attempt, past, type, page, number, data⟩ :=
      awaits _ (List.mem_set bound _) asked
    rw [courseOf_answered] at past
    have last : (⟨op, r⟩ : (op : Op) × Except Exc op.Val) = ⟨.saveWithEvent job event, .ok saved⟩ := by
      rcases (courseOf call).next_past op r with more | none
      · exact (List.cons.inj (more.symm.trans past)).1
      · rw [none] at past
        cases past
    cases last
    have before : workOf call = some message := works
    obtain ⟨-, saves⟩ := sequenced.calls here prog before own
    change (courseOf call).saves settings message job event at saves
    unfold Course.saves at saves
    rw [type] at saves
    obtain ⟨v, index, started, turn, few, same, data'⟩ := saves
    obtain ⟨row, stored, current, pages, found⟩ := sequenced.turn here (delivers_call prog rfl before own) own turn
    obtain ⟨row₀, row', found', written, -, rfl⟩ := World.exec_saveWithEvent executed
    have inv := coherent.consistent
    obtain ⟨origin, base, -, -, edits, same'⟩ := World.saved_edit (inv.known call here) (inv.lost call here)
      (Task.contract_writes allowed).1 found' written
    have jobId : job.id = id := by
      rw [same]
      exact turn.own.trans own
    have jobAttempt : job.attempt = message.attempt := by
      rw [same]
      exact turn.attempt
    cases Option.some.inj (stored.symm.trans (jobId ▸ found'))
    have updated := written.pages_update (inv.tidy _ _ stored) (same' ▸ edits.edit)
    have jobPages : job.version.pages = (row.pages message.attempt).set index started.toRow.started := by
      have own : row.version.pages = row.pages message.attempt := by rw [← current]; rfl
      rw [same, ← own, pages, ← Page.start_toRow]
      exact List.map_set
    have numbered : started.pageNumber = page.pageNumber := by
      have equal : Course.startedData started.start = Course.startedData page := data'.symm.trans data
      have first : started.start.pageNumber = page.pageNumber := by
        have number : Json.nat started.start.pageNumber = Json.nat page.pageNumber :=
          congrArg Prod.snd (List.cons.inj equal).1
        exact Int.ofNat_inj.mp (Json.int.inj number)
      rw [← first]
      exact started.toRow.started_pageNumber.symm.trans (congrArg PageRow.pageNumber (Page.start_toRow started).symm)
    refine ⟨row, (row'.append event).2, index, started.toRow, stored, ?_, ?_, numbered.trans number, turn.unfinished, ?_⟩
    · exact (World.setJob_jobs _ _ _).trans (if_pos jobId.symm)
    · rw [attempt]
      exact found
    · rw [JobRow.append_pages, updated, jobAttempt, jobPages, attempt]

theorem Initial.budget (initial : Initial first) : Budget most id first [] := by
  refine ⟨fun _ => Nat.zero_le _, fun _ => rfl, fun row stored => ?_, fun row stored => ?_⟩
  · rw [initial.world.jobs] at stored
    cases stored
  · rw [initial.world.jobs] at stored
    cases stored

/-- No step takes a try back, or counts one too many. -/
theorem Budget.keeps (budget : Budget (settings.maxPageRetries + 1) id s log) (sequenced : Sequenced settings id s)
    (coherent : Coherent s) (moves : Moves settings s action s') :
    Budget (settings.maxPageRetries + 1) id s' log := by
  have rows : ∀ row', s'.world.jobs id = some row' → (∀ n p, Counted (row'.pages n) p (log.count ⟨n, p⟩)) ∧
      ∀ n, ∀ page ∈ row'.pages n, page.retryCount ≤ settings.maxPageRetries + 1 := by
    intro row' stored'
    cases moves with
    | start => exact ⟨budget.counted row' stored', budget.bounded row' stored'⟩
    | kill => exact ⟨budget.counted row' stored', budget.bounded row' stored'⟩
    | env event =>
      rw [World.rebalance_kafka] at stored'
      exact ⟨budget.counted row' stored', budget.bounded row' stored'⟩
    | @resume i choice call op r next w at_i prog executed allowed =>
      have here := List.mem_of_getElem? at_i
      have inv := coherent.consistent
      have change := inv.rows at_i (Task.contract_writes allowed) executed id
      rw [show w.jobs id = some row' from stored'] at change
      cases before : s.world.jobs id with
      | some row =>
        rw [before] at change
        have tidy := inv.tidy _ _ before
        exact ⟨change.counted tidy (budget.counted row before), change.bounded tidy
          (fun job event saved own type => sequenced.started here prog allowed saved own type budget.bounded)
          (budget.bounded row before)⟩
      | none =>
        rw [before] at change
        cases change with
        | inserted _ _ drawn =>
          have empty : log = [] := budget.fresh (.inr ⟨call, here, drawn⟩)
          rw [JobRow.append_pages]
          refine ⟨fun n p => .inl (by rw [empty]; rfl), fun n page member => ?_⟩
          cases member
  exact ⟨budget.spent, fun unborn => budget.fresh (by_contra fun born => moves.born born unborn),
    fun row' stored' => (rows row' stored').1, fun row' stored' => (rows row' stored').2⟩

/-- A recognition that begins has been counted. -/
theorem Budget.begins (budget : Budget (settings.maxPageRetries + 1) id s log) (sequenced : Sequenced settings id s)
    (coherent : Coherent s) (moves : Moves settings s action s') (sequenced' : Sequenced settings id s')
    (kept : Budget (settings.maxPageRetries + 1) id s' log) {recognition : Recognition}
    (asked : recognized? id s' action = some recognition) :
    Budget (settings.maxPageRetries + 1) id s' (log ++ [recognition]) := by
  obtain ⟨row, row', index, page, stored, stored', found, number, unfinished, pages⟩ :=
    sequenced.begins coherent moves sequenced' asked
  have bound := (List.getElem?_eq_some_iff.mp found).1
  have there : page.started ∈ row'.pages recognition.attempt := by
    rw [pages, Function.update_self]
    exact List.mem_set bound _
  have more : page.started.retryCount = page.retryCount + 1 := by rw [PageRow.started, if_neg unfinished]
  -- the try was counted on top of those in the log
  have tries : log.count recognition ≤ page.retryCount := by
    rcases budget.counted row stored recognition.attempt recognition.page with none | ⟨other, member, named, reached⟩
    · exact none.trans_le (Nat.zero_le _)
    · have sorted := (coherent.consistent.tidy _ _ stored).ordered recognition.attempt
      have same : other = page :=
        Tables.Sorted.unique sorted member (List.mem_of_getElem? found) (named.trans number.symm)
      exact same ▸ reached
  have counted : ∀ other : Recognition, Counted (row'.pages other.attempt) other.page ((log ++ [recognition]).count other) := by
    intro other
    rw [List.count_append]
    by_cases same : other = recognition
    · subst same
      refine .inr ⟨page.started, there, page.started_pageNumber.trans number, ?_⟩
      rw [List.count_singleton_self, more]
      omega
    · rw [List.count_singleton, if_neg (by simpa using fun h => same h.symm), Nat.add_zero]
      exact kept.counted row' stored' other.attempt other.page
  have bounded := kept.bounded row' stored'
  refine ⟨fun other => ?_, fun unborn => ?_, fun row'' found' n p => ?_, fun row'' found' => ?_⟩
  · rcases counted other with none | ⟨page', member, -, reached⟩
    · omega
    · exact reached.trans (bounded _ page' member)
  · have absent := moves.born (coherent.consistent.stored_born stored)
    exact absurd unborn absent
  · cases Option.some.inj (stored'.symm.trans found')
    exact counted ⟨n, p⟩
  · cases Option.some.inj (stored'.symm.trans found')
    exact bounded

/-- What holds in a sequential history. -/
theorem History.invariant (initial : Initial first) (history : History settings id first s log) :
    Coherent s ∧ Sequenced settings id s ∧ Budget (settings.maxPageRetries + 1) id s log := by
  induction history with
  | start => exact ⟨initial.coherent, initial.sequenced, initial.budget⟩
  | @next s s' action log _ alone step ih =>
    obtain ⟨coherent, sequenced, budget⟩ := ih
    obtain ⟨coherent', moves⟩ := coherent.step step
    have sequenced' := sequenced.step coherent alone moves
    have kept := budget.keeps sequenced coherent moves
    refine ⟨coherent', sequenced', ?_⟩
    cases asked : recognized? id s' action with
    | none => rwa [Option.toList_none, List.append_nil]
    | some recognition => exact budget.begins sequenced coherent moves sequenced' kept asked

theorem lastRecognized?_append {past rest : List ((op : Op) × Except Exc op.Val)}
    (asked : lastRecognized? past = some number) : lastRecognized? (past ++ rest) = some number := by
  unfold lastRecognized? at *
  rw [List.findSome?_append, asked]
  rfl

/-- What a delivery has done ends what its call has done. -/
theorem courseOf_past (call : SystemCall) :
    ∃ rest : List ((op : Op) × Except Exc op.Val), call.past = (courseOf call).past ++ rest := by
  have each : ∀ past : List ((op : Op) × Except Exc op.Val),
      ∃ rest, past = (past.foldr (fun done s => Course.next s done.1 done.2) call.task.course).past ++ rest := by
    intro past
    induction past with
    | nil => cases call.task <;> exact ⟨[], rfl⟩
    | cons done rest ih =>
      obtain ⟨op, r⟩ := done
      obtain ⟨older, same⟩ := ih
      rw [List.foldr_cons]
      generalize rest.foldr _ call.task.course = before at same
      rcases before.next_past op r with more | none
      · exact ⟨older, by rw [more, List.cons_append, ← same]⟩
      · exact ⟨⟨op, r⟩ :: rest, by rw [none, List.nil_append]⟩
  exact each call.past

theorem lastRecognized?_of_asked (asked : (courseOf call).asked = some number) :
    lastRecognized? call.past = some number := by
  obtain ⟨rest, whole⟩ := courseOf_past call
  have found : lastRecognized? ((courseOf call).past ++ rest) = some number := lastRecognized?_append asked
  exact (congrArg lastRecognized? whole).trans found

/-- In a history with one delivery of the job at a time, the engine is asked
for a page of an attempt at most `max_page_retries + 1` times, and only while
the page is not stored as succeeded; a delivery that sleeps waits for
`retry_base_seconds * 2 ^ (k - 1)`, where `k` tries of the page it asked for
last are counted. -/
theorem retry_budget (initial : Initial first) (history : History settings id first s log) :
    (∀ recognition, log.count recognition ≤ settings.maxPageRetries + 1) ∧
    ∀ call ∈ s.calls, ∀ message, workOf call = some message → message.jobId = id →
      (∀ image number options requestId next,
        call.prog = .call (S := Sig) (.recognize image number options requestId) next →
          s.world.HasPage message number fun page => page.status ≠ .succeeded) ∧
      ∀ delay next, call.prog = .call (S := Sig) (.sleep delay) next →
        ∃ number k, lastRecognized? call.past = some number ∧
          (s.world.HasPage message number fun page => page.retryCount = k + 1) ∧
          delay = settings.retryBaseSeconds * 2 ^ k := by
  obtain ⟨coherent, sequenced, budget⟩ := history.invariant initial
  refine ⟨budget.spent, fun call member message works own => ⟨?_, ?_⟩⟩
  · intro image number options requestId next prog
    obtain ⟨-, v, index, page, turn, rfl, -⟩ := sequenced.calls member prog works own
    obtain ⟨row, stored, attempt, some, only⟩ :=
      sequenced.hasPage coherent member (delivers_call prog rfl works own) own turn
    refine ⟨row, stored, attempt, some, fun other there same => ?_⟩
    rw [only other there same]
    exact turn.unfinished
  · intro delay next prog
    obtain ⟨-, v, index, page, turn, tried, asked, rfl⟩ := sequenced.calls member prog works own
    obtain ⟨row, stored, attempt, some, only⟩ :=
      sequenced.hasPage coherent member (delivers_call prog rfl works own) own turn
    obtain ⟨k, more⟩ := Nat.exists_eq_succ_of_ne_zero (Nat.pos_iff_ne_zero.mp tried)
    refine ⟨page.pageNumber, k, lastRecognized?_of_asked asked, ⟨row, stored, attempt, some, ?_⟩, ?_⟩
    · intro other there same
      rw [only other there same]
      exact more
    · rw [OCRWorker.backoff, more, Nat.succ_eq_add_one, pow_succ]
      ring

/-- A delivery is killed while it awaits the engine, and the next one asks
again: the second try of four. -/
theorem retry_budget_redelivered : ∃ s,
    History {} 1 oneDocument s [⟨1, 1⟩, ⟨1, 1⟩] ∧
      [(⟨1, 1⟩ : Recognition), ⟨1, 1⟩].count ⟨1, 1⟩ ≤ 3 + 1 := by
  have played : (record {} 1 oneDocument []
      (createSteps 0 ++ deliverSteps 1 ++ .kill 1 :: redeliverSteps 2)).map Prod.snd =
        some [⟨1, 1⟩, ⟨1, 1⟩] := by decide +kernel
  obtain ⟨⟨s, log⟩, runs, rfl⟩ := Option.map_eq_some_iff.mp played
  have history : History {} 1 oneDocument s _ := .of_record .start runs
  exact ⟨s, history, (retry_budget oneDocument_initial history).1 ⟨1, 1⟩⟩

end
end MonkeyOcr
