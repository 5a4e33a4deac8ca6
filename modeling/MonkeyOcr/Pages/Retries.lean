import MonkeyOcr.Lifecycle.Attempts
import MonkeyOcr.Pages.Loop

namespace MonkeyOcr

open Calls

/-- What the call remembers of the page it processes. -/
def turnsOf (call : SystemCall) : Turns := call.ghost Turns.ghost fun _ => {}

@[simp] theorem turnsOf_answered (call : SystemCall) (op : Op) (r : Except Exc op.Val)
    (next : Except Exc op.Val → Program Reply) :
    turnsOf (call.answered (S := Sig) op r next) = (turnsOf call).next op r := rfl

/-- The read of a turn finds the page unfinished, in the attempt of the turn before. -/
def Turns.Finds (t : Turns) : Site → Job → Prop
  | .pageTurn index, job =>
    (∀ page ∈ job.pages[index]?, page.state ≠ .succeeded) ∧ ∀ v ∈ t.started, job.attempt = v.attempt
  | _, _ => True

instance (t : Turns) : ∀ site job, Decidable (t.Finds site job)
  | .pageTurn index, job => inferInstanceAs (Decidable ((∀ page ∈ job.pages[index]?, page.state ≠ .succeeded) ∧
      ∀ v ∈ t.started, job.attempt = v.attempt))
  | .entry, _ | .cancelCheck, _ | .pageLoop, _ | .beforeSuccess, _ | .conflict, _ | .failure, _ | .recognized _, _
  | .exhausted _, _ | .api, _ | .stream _, _ => isTrue trivial

/-- No turn begins on a page that another delivery has finished, or after a retry. -/
def Undisturbed (s : State) : Step → Prop
  | .resume i _ => ∀ call ∈ s.calls[i]?, ∀ read ∈ reading? call, ∀ job ∈ s.world.getJob read.2,
      (turnsOf call).Finds read.1 job
  | _ => True

instance (s : State) : ∀ action, Decidable (Undisturbed s action)
  | .resume i _ => inferInstanceAs (Decidable (∀ call ∈ s.calls[i]?, ∀ read ∈ reading? call,
      ∀ job ∈ s.world.getJob read.2, (turnsOf call).Finds read.1 job))
  | .start _ | .kill _ | .env _ => isTrue trivial

/-- The calls that process pages. -/
def Task.delivers : Task → Bool
  | .process .. | .runWorker .. => true
  | _ => false

/-- The loops of the call may run out of the turns they are given. -/
def Task.cut (settings : Settings) : Task → Prop
  | .process turns _ => turns < settings.maxPageRetries + 2
  | _ => True

/-- How the memories of a call fit together. -/
structure Turns.Linked (m : Memory) (t : Turns) : Prop where
  started : ∀ v, t.started = some v → (none, v) ∈ m.seen
  missed : ∀ id, t.missed = some id → id ∈ m.lost ∨ ∀ entry ∈ m.seen, entry.2.id ≠ id

theorem Turns.Linked.blank {m : Memory} : Linked m {} := by
  constructor
  · intro v same
    cases same
  · intro id same
    cases same

/-- A call that misses nothing and has seen no less. -/
theorem Turns.Linked.keeps {m m' : Memory} {t t' : Turns} (linked : Linked m t)
    (seen : ∀ entry ∈ m.seen, entry ∈ m'.seen) (started : t'.started = t.started) (missed : t'.missed = none) :
    Linked m' t' := by
  refine ⟨fun v same => seen _ (linked.started v (started ▸ same)), fun id same => ?_⟩
  rw [missed] at same
  cases same

theorem Turns.next_getJob (t : Turns) (site : Site) (id : Id) (r : Except Exc (Option Job)) :
    (t.next (.getJob site id) r).started = t.started ∧
      ((t.next (.getJob site id) r).missed = none ∨ r = .ok none ∧ (t.next (.getJob site id) r).missed = some id) := by
  cases site with
  | pageTurn index =>
    rcases r with e | _ | job
    · exact ⟨rfl, .inl rfl⟩
    · exact ⟨rfl, .inr ⟨rfl, rfl⟩⟩
    · exact ⟨rfl, .inl rfl⟩
  | _ => exact ⟨rfl, .inl rfl⟩

/-- What is not found is lost, or was never seen. -/
theorem Memory.next_absent (m : Memory) (site : Site) (id : Id) :
    id ∈ (m.next (.getJob site id) (.ok none)).lost ∨ ∀ entry ∈ m.seen, entry.2.id ≠ id := by
  by_cases sees : m.Sees id
  · exact .inl (sees.lost site).1
  · exact .inr fun entry member same => sees ⟨entry.1, entry.2, member, same⟩

theorem Turns.Linked.next {m : Memory} {t : Turns} (linked : Linked m t) (op : Op) (r : Except Exc op.Val) :
    Linked (m.next op r) (t.next op r) := by
  cases op with
  | getJob site id =>
    obtain ⟨started, missed⟩ := t.next_getJob site id r
    have seen : ∀ entry ∈ m.seen, entry ∈ (m.next (.getJob site id) r).seen := by
      intro entry member
      rcases r with e | _ | job
      · exact member
      · exact member
      · exact List.mem_cons_of_mem _ member
    rcases missed with missed | ⟨rfl, missed⟩
    · exact linked.keeps seen started missed
    · refine ⟨fun v same => seen _ (linked.started v (started ▸ same)), fun other same => ?_⟩
      rw [missed] at same
      cases same
      exact m.next_absent site id
  | saveWithEvent job event =>
    cases r with
    | error e => exact linked.keeps (fun _ member => member) rfl rfl
    | ok saved =>
      refine ⟨fun v same => ?_, fun id same => by cases same⟩
      change (if event.eventType = .pageRunning then _ else t.started) = some v at same
      split at same
      · cases same
        exact List.mem_cons_self
      · exact List.mem_cons_of_mem _ (linked.started v same)
  | saveWithOutboxAndEvent =>
    cases r with
    | error e => exact linked.keeps (fun _ member => member) rfl rfl
    | ok saved => exact linked.keeps (fun _ member => List.mem_cons_of_mem _ member) rfl rfl
  | getMany => exact .blank
  | getBytes => exact .blank
  | utcNow => cases r <;> exact linked
  | _ => cases r <;> exact linked.keeps (fun _ member => member) rfl rfl

theorem linked (call : SystemCall) : Turns.Linked (memoryOf call) (turnsOf call) := by
  obtain ⟨task, past, prog⟩ := call
  induction past with
  | nil => exact .blank
  | cons done past ih => exact ih.next done.1 done.2

/-- Within an attempt, no save lowers the count of a page. -/
theorem Edit.counted_at {origin : Option Site} {v v' : Version} {type : EventType} {index : Nat} {old : PageRow}
    (edit : Edit origin v type v') (same : v'.attempt = v.attempt)
    (counted : ∃ page, v.pages[index]? = some page ∧ old.retryCount ≤ page.retryCount) :
    ∃ page, v'.pages[index]? = some page ∧ old.retryCount ≤ page.retryCount := by
  obtain ⟨page, here, count⟩ := counted
  have replaced : ∀ {at_ : Nat} {before after : PageRow}, v.pages[at_]? = some before →
      before.retryCount ≤ after.retryCount →
      ∃ page, (v.setPage at_ after).pages[index]? = some page ∧ old.retryCount ≤ page.retryCount := by
    intro at_ before after found more
    have inside := (List.getElem?_eq_some_iff.mp found).1
    by_cases own : at_ = index
    · subst own
      cases Option.some.inj (here.symm.trans found)
      exact ⟨after, List.getElem?_set_self inside, count.trans more⟩
    · exact ⟨page, (List.getElem?_set_ne own).trans here, count⟩
  cases edit with
  | pagesPrepared _ none =>
    rw [none] at here
    cases here
  | pageRunning _ found =>
    refine replaced found ?_
    unfold PageRow.started
    split
    · exact le_rfl
    · exact Nat.le_succ _
  | pageRetryScheduled _ found => exact replaced found le_rfl
  | pageSucceeded _ _ found => exact replaced found le_rfl
  | pageFailed _ found => exact replaced found le_rfl
  | retrying => exact absurd same (Nat.succ_ne_self _)
  | _ => exact ⟨page, here, count⟩

section

variable {settings : Settings} {first s s' : State} {action : Step} {i : Nat} {call : SystemCall} {op : Op}
  {choice : Choice} {r : Except Exc op.Val} {w : World} {next : Except Exc op.Val → Program Reply}

/-- Later in the attempt, every page of a version counts at least as many tries. -/
theorem JobRow.Follows.counted_at {row : JobRow} {v : Job} {index : Nat} {old page : Page} (follows : row.Follows v)
    (same : row.currentAttempt = v.attempt) (before : v.pages[index]? = some old)
    (now : (row.toJob v.id).pages[index]? = some page) : old.processingAttempts ≤ page.processingAttempts := by
  obtain ⟨later, found, count⟩ := follows.evolves.within
    (P := fun u => ∃ page, u.pages[index]? = some page ∧ old.toRow.retryCount ≤ page.retryCount)
    (fun edit counted stays => edit.counted_at stays counted) same
    ⟨old.toRow, by simp [Job.version, before], le_rfl⟩
  have stored : ((row.pages row.currentAttempt).map PageRow.toPage)[index]? = some page := now
  have there : (row.pages row.currentAttempt)[index]? = some later := found
  rw [List.getElem?_map, there] at stored
  cases stored
  exact count

/-- The answers a turn gets in an undisturbed run are reliable. -/
theorem Turns.answers_of (coherent : Coherent s) (quiet : Undisturbed s (.resume i choice))
    (at_i : s.calls[i]? = some call) (prog : call.prog = .call (S := Sig) op next)
    (executed : World.exec settings i op choice s.world = some (r, w))
    (allowed : call.task.contract.allow (memoryOf call) op) : (turnsOf call).answers op r := by
  have here := List.mem_of_getElem? at_i
  have inv := coherent.consistent
  have links := linked call
  cases op with
  | getJob site id =>
    rcases r with e | _ | latest
    · cases site <;> trivial
    · cases site <;> trivial
    · cases site with
      | pageTurn index =>
        obtain ⟨-, read⟩ := World.exec_getJob executed
        have finds := quiet call at_i (.pageTurn index, id) (by rw [reading?, prog]; rfl) latest read.symm
        obtain ⟨row, stored, -, rfl⟩ := World.getJob_some read.symm
        refine ⟨rfl, fun page found => ⟨finds.1 page found, fun v started own old before => ?_⟩⟩
        have known := inv.known call here _ (links.started v started) row (own ▸ stored)
        exact known.counted_at (finds.2 v started) before (own ▸ found)
      | _ => trivial
  | saveWithEvent job event =>
    rcases r with e | saved
    · trivial
    · obtain ⟨row, row', found, saves, -, -⟩ := World.exec_saveWithEvent executed
      intro missed
      rcases links.missed _ missed with lost | unseen
      · have claimed := inv.lost call here _ lost row found
        rw [saves.unclaimed] at claimed
        cases claimed
      · obtain ⟨origin, v, member, -, edits, -⟩ := World.saved_edit (inv.known call here)
          (inv.lost call here) (Task.contract_writes allowed).1 found saves
        exact unseen _ member edits.id.symm
  | _ => cases r <;> trivial

/-- At most this many recognitions, and one turn more. -/
structure Turns.Within (most : Nat) (t : Turns) : Prop where
  turns : t.turns ≤ most + 1
  recognitions : t.recognitions ≤ most

theorem Turns.Within.after {most : Nat} {t : Turns} (within : t.Within most) (allowed : calls most t op) :
    (t.next op r).Within most := by
  cases op with
  | getJob site id =>
    cases site with
    | pageTurn => exact ⟨Nat.succ_le_succ allowed, within.recognitions⟩
    | _ => exact ⟨within.turns, within.recognitions⟩
  | recognize => exact ⟨within.turns, allowed⟩
  | getMany => exact ⟨Nat.zero_le _, Nat.zero_le _⟩
  | getBytes => exact ⟨Nat.zero_le _, Nat.zero_le _⟩
  | _ => cases r <;> exact ⟨within.turns, within.recognitions⟩

/-- What is left of the call ends, with few turns so far. -/
structure Ending (settings : Settings) (call : SystemCall) : Prop where
  ends : call.prog = .halt ∨ call.prog.Ends (call.task.cut settings) Turns.ghost
    (Turns.contract (settings.maxPageRetries + 1)) (fun _ _ => True) (fun _ _ => True) (turnsOf call)
  within : (turnsOf call).Within (settings.maxPageRetries + 1)

def AllEnding (settings : Settings) (s : State) : Prop :=
  ∀ call ∈ s.calls, call.task.delivers = true → Ending settings call

theorem program_settles {task : Task} (delivers : task.delivers = true) :
    OCRWorker.Settles (task.cut settings) (settings.maxPageRetries + 1) (program settings task) := by
  cases task with
  | process turns message =>
    exact (OCRWorker.process_settles (Nat.lt_or_ge turns _)).bind fun _ _ => trivial
  | runWorker turns polls => exact WorkerMain.runWorker_settles.bind fun _ _ => trivial
  | _ => cases delivers

/-- One answer of an undisturbed run. -/
theorem Ending.answered (ending : Ending settings call) (coherent : Coherent s)
    (quiet : Undisturbed s (.resume i choice)) (at_i : s.calls[i]? = some call)
    (prog : call.prog = .call (S := Sig) op next)
    (executed : World.exec settings i op choice s.world = some (r, w))
    (allowed : call.task.contract.allow (memoryOf call) op) :
    (next r).Ends (call.task.cut settings) Turns.ghost (Turns.contract (settings.maxPageRetries + 1))
      (fun _ _ => True) (fun _ _ => True) ((turnsOf call).next op r) ∧
    ((turnsOf call).next op r).Within (settings.maxPageRetries + 1) := by
  rcases ending.ends with killed | ends
  · rw [killed] at prog
    cases prog
  · rw [prog] at ends
    obtain ⟨few, rest⟩ := ends
    exact ⟨rest r (Turns.answers_of coherent quiet at_i prog executed allowed), ending.within.after few⟩

theorem AllEnding.step (all : AllEnding settings s) (coherent : Coherent s) (quiet : Undisturbed s action)
    (moves : Moves settings s action s') : AllEnding settings s' := by
  cases moves with
  | start task =>
    intro call member delivers
    rcases List.mem_append.mp member with old | new
    · exact all call old delivers
    · cases List.mem_singleton.mp new
      exact ⟨.inr (program_settles delivers _), Nat.zero_le _, Nat.zero_le _⟩
  | kill i =>
    intro call member delivers
    rcases Machine.mem_modify_killed member with old | ⟨before, memberBefore, rfl⟩
    · exact all call old delivers
    · exact ⟨.inl rfl, (all before memberBefore delivers).within⟩
  | env => exact all
  | @resume i choice call op r next w at_i prog executed allowed =>
    intro other member delivers
    rcases Machine.mem_set_answered member with old | rfl
    · exact all other old delivers
    · have ending := all call (List.mem_of_getElem? at_i) delivers
      obtain ⟨ends, within⟩ := ending.answered coherent quiet at_i prog executed allowed
      exact ⟨.inr ends, within⟩

/-- As long as every turn of a delivery finds its page unfinished and in the same attempt
as the turn before, each call of `_process_page` asks the engine at most
`max_page_retries + 1` times, and leaves its loop in one turn more. -/
theorem process_page_ends (initial : Initial first) (run : (system settings).Run Undisturbed first s)
    (at_i : s.calls[i]? = some call) (delivers : call.task.delivers = true) :
    (turnsOf call).recognitions ≤ settings.maxPageRetries + 1 ∧
    (turnsOf call).turns ≤ settings.maxPageRetries + 2 ∧
    ∀ turns message, call.task = .process turns message → settings.maxPageRetries + 2 ≤ turns →
      ∀ choice s', Undisturbed s (.resume i choice) → (system settings).step s (.resume i choice) = some s' →
        ∀ call' ∈ s'.calls[i]?, call'.prog ≠ .halt := by
  obtain ⟨coherent, all⟩ := initial.coherent.induction run (J := AllEnding settings)
    (by simp [AllEnding, initial.calls]) fun _ _ _ coherent all quiet moves => all.step coherent quiet moves
  have ending := all call (List.mem_of_getElem? at_i) delivers
  refine ⟨ending.within.recognitions, ending.within.turns, ?_⟩
  intro turns message task enough choice s' quiet step call' found halted
  obtain ⟨-, moves⟩ := coherent.step step
  cases moves with
  | @resume _ _ other op r next w at_other prog executed allowed =>
    cases Option.some.inj (at_i.symm.trans at_other)
    obtain ⟨ends, -⟩ := ending.answered coherent quiet at_i prog executed allowed
    have bound := (List.getElem?_eq_some_iff.mp at_i).1
    have same : call.answered (S := Sig) op r next = call' := by
      simpa [List.getElem?_set_self bound] using found
    have left : next r = .halt := by
      rw [← same] at halted
      exact halted
    rw [left, Prog.ends_halt, task] at ends
    exact absurd ends (Nat.not_lt.mpr enough)

end

/-- The engine fails a delivery once, and then recognizes the page. -/
def recognizedLater : List Step :=
  createSteps 0 ++ deliverSteps 1 ++
    answered 1 [{ failure := .before .transientEngine }, .now, .go, .go, .go, .now, .go] ++
    recognizeSteps 1 { markdown := "", structured := [] }

theorem process_page_ends_later : ∃ s call, (system {}).runsIf Undisturbed oneDocument recognizedLater = some s ∧
    s.calls[1]? = some call ∧ (turnsOf call).turns = 2 ∧ (turnsOf call).recognitions = 2 ∧
      (turnsOf call).recognitions ≤ 4 ∧ (turnsOf call).turns ≤ 5 := by
  have played : ((system {}).runsIf Undisturbed oneDocument recognizedLater).bind (fun s =>
      s.calls[1]?.map fun call => (call.task.delivers, (turnsOf call).turns, (turnsOf call).recognitions)) =
      some (true, 2, 2) := by decide +kernel
  obtain ⟨s, runs, rest⟩ := Option.bind_eq_some_iff.mp played
  obtain ⟨call, at_1, same⟩ := Option.map_eq_some_iff.mp rest
  obtain ⟨delivers, twice⟩ := Prod.mk.inj same
  obtain ⟨turns, recognitions⟩ := Prod.mk.inj twice
  obtain ⟨few, most, -⟩ := process_page_ends oneDocument_initial (.of_runsIf runs) at_1 delivers
  exact ⟨s, call, runs, at_1, turns, recognitions, few, most⟩

/-- A turn that the engine fails with an error worth another try. -/
def transientTurn (i : Nat) : List Step :=
  answered i [.go, .now, .go, { failure := .before .transientEngine }, .now, .go, .go]

/-- Two deliveries come to the page; one finishes it before the first turn of the other. -/
def finishedTwice : List Step :=
  createSteps 0 ++ deliverSteps 1 ++
    .start (.process 9 firstMessage) :: answered 2 [.go, .go, .go, .go, .go, .go] ++
    recognizeSteps 1 { markdown := "", structured := [] } ++
    transientTurn 2 ++ transientTurn 2 ++ transientTurn 2 ++ transientTurn 2 ++ transientTurn 2

/-- The page that is finished counts no further tries, so that the other delivery asks
the engine again and again. -/
theorem process_page_unbounded : ¬ ∀ (settings : Settings) (first s : State) (i : Nat) (call : SystemCall),
    Initial first → Reaches settings first s → s.calls[i]? = some call → call.task.delivers = true →
      (turnsOf call).recognitions ≤ settings.maxPageRetries + 1 := by
  intro claim
  have played : ((system {}).runs oneDocument finishedTwice).bind (fun s => s.calls[2]?.map fun call =>
      (call.task.delivers, (turnsOf call).recognitions)) = some (true, 5) := by decide +kernel
  obtain ⟨s, runs, rest⟩ := Option.bind_eq_some_iff.mp played
  obtain ⟨call, at_2, same⟩ := Option.map_eq_some_iff.mp rest
  obtain ⟨delivers, recognitions⟩ := Prod.mk.inj same
  have few := claim {} oneDocument s 2 call oneDocument_initial (.of_runs runs fun _ _ _ => trivial) at_2 delivers
  rw [recognitions] at few
  revert few
  decide

end MonkeyOcr
