import MonkeyOcr.Sequential.Pieces

namespace MonkeyOcr.Course

open Calls OCRWorker
open Codec (Json)

variable {settings : Settings} {s s' : Course} {m : JobWorkMessage} {job v : Job} {index : Nat} {page : Page}
  {image : Content}

/-- `reply` is `job` with its page at `index` finished. -/
def Advanced (job : Job) (index : Nat) (reply : Job) : Prop :=
  ∃ row, row.status = .succeeded ∧ reply.version.pages = job.version.pages.set index row

/-- How the work on one page ends: the page is finished, or the job is. -/
def PageDone (m : JobWorkMessage) (job : Job) (index : Nat) (reply : Job) (s : Course) : Prop :=
  (reply.state = .cancelled ∨ reply.state = .failed) ∨
    s.message = some m ∧ s.Holds m reply ∧ reply.state = .running ∧ Advanced job index reply

theorem pageAt_spec : Follows settings m (pageAt job index)
    (fun page s' => s' = s ∧ job.pages[index]? = some page) (fun _ s' => s' = s) s := by
  unfold pageAt
  split
  · rename_i found
    exact ⟨rfl, found⟩
  · rfl

theorem putVisualization_spec {result : OCRResult} (at_m : s.message = some m) :
    Follows settings m (putVisualization job page result) (fun _ s' => s.Keeps s') (fun _ s' => s.Keeps s') s := by
  unfold putVisualization
  split
  · exact .refl
  · refine (storage_spec (.putBytes ..) at_m trivial ⟨fun _ => rfl, fun _ => rfl, fun _ => rfl⟩).bind ?_
    intro _ s' put
    exact put.1

/-- The call that follows on a page that was read again. -/
theorem Turn.keeps (turn : s.Turn m v index page) (keeps : s.Keeps s') : s'.Turn m v index page :=
  ⟨keeps.known.trans turn.known, turn.own, turn.attempt, turn.state, turn.found, turn.unfinished⟩

theorem checkpoint_spec {latest : Job} {result : OCRResult} (at_m : s.message = some m)
    (turn : s.Turn m latest index page) (id : job.id = latest.id) (attempt : job.attempt = latest.attempt)
    (engine : ∃ image requestId, ⟨.getBytes page.inputObjectKey, .ok image⟩ ∈ s.past ∧
      ⟨.recognize image page.pageNumber latest.options requestId, .ok result⟩ ∈ s.past) :
    Follows settings m (checkpoint job latest index page result)
      (fun reply s' => PageDone m latest index reply s') (fun e s' => Ends e ∨ s.Keeps s') s := by
  have key : resultKey job page = resultKey latest page := by rw [resultKey, resultKey, id, attempt]
  refine ((putVisualization_spec at_m).mono (fun _ _ h => h) fun _ _ h => .inr h).bind fun visualizationKey s₁ keeps₁ => ?_
  have at₁ := keeps₁.message.trans at_m
  refine ((storage_spec (.putBytes (resultKey job page) (resultPayload page result) "application/json") at₁ trivial
    ⟨fun _ => rfl, fun _ => rfl, fun _ => rfl⟩).mono (fun _ _ h => h) fun _ _ h => .inr (keeps₁.trans h)).bind ?_
  rintro stored s₂ ⟨keeps₂, put, named⟩
  have keeps := keeps₁.trans keeps₂
  have at₂ := keeps₂.message.trans at₁
  rw [key] at put
  have here : stored.objectKey = resultKey latest page := key ▸ named
  have recognized : s₂.Recognized latest page result := by
    obtain ⟨image, requestId, read, answered⟩ := engine
    exact ⟨⟨image, requestId, keeps.mem read, keeps.mem answered⟩, stored, put, here⟩
  refine ((saveAndEmit_spec .pageSucceeded at₂ fun s' event keeps' same _ => ?_).mono (fun _ _ h => h)
    fun _ _ h => .inl h).bind ?_
  · unfold saves
    rw [same]
    refine ⟨latest, index, page, result, visualizationKey, stored.sha256, (turn.keeps keeps).keeps keeps', ?_, ?_⟩
    · obtain ⟨⟨image, requestId, read, answered⟩, stored', put', here'⟩ := recognized
      exact ⟨⟨image, requestId, keeps'.mem read, keeps'.mem answered⟩, stored', keeps'.mem put', here'⟩
    · rw [here]
  · intro reply s₃ saved
    obtain ⟨revision, rfl⟩ := saved.copy
    have unasked : ¬ latest.state = .cancelRequested := by rw [turn.state]; decide
    simp only [Job.setPage, withEngine, unasked, if_false]
    refine .inr ⟨saved.message.trans at₂, .of_known saved.known turn.own turn.attempt ?_, turn.state, ?_⟩
    · change latest.state.active = true
      rw [turn.state]
      rfl
    · exact ⟨_, rfl, List.map_set⟩

/-- What is left of a page whose recognition raised. -/
structure Missed (m : JobWorkMessage) (job : Job) (page : Page) (image : Content) (raised : PageRaised)
    (s : Course) : Prop where
  message : s.message = some m
  read : ⟨.getBytes page.inputObjectKey, .ok image⟩ ∈ s.past
  asked : s.asked = some page.pageNumber
  known : ∃ v, s.known = some v ∧ v.state.active = true ∧ job.Stays v
  attempts : raised.page.processingAttempts = page.processingAttempts
  own : raised.ofJob = true → raised.page = page

theorem recognizePage_spec (at_m : s.message = some m) (turn : s.Turn m job index page)
    (read : ⟨.getBytes page.inputObjectKey, .ok image⟩ ∈ s.past)
    (last : ∃ job event saved rest, s.past = ⟨.saveWithEvent job event, .ok saved⟩ :: rest ∧
      event.eventType = .pageRunning ∧ event.data = startedData page) :
    Follows settings m (recognizePage image index job page) (fun reply s' => PageDone m job index reply s')
      (fun raised s' => Ends raised.error ∨ Missed m job page image raised s') s := by
  have running : job.state.active = true := by rw [turn.state]; rfl
  refine Prog.Meets.bind (Q := fun result s' => s' = s.called (.recognize image page.pageNumber job.options
    job.requestId) (.ok result)) (Prog.meets_mapError.mpr ?_) ?_
  · refine call_spec (.recognize image page.pageNumber job.options job.requestId) at_m
      ⟨job, index, page, turn, rfl, rfl, read, last⟩ (fun _ => rfl) (fun _ _ _ => rfl) fun e _ => ?_
    exact .inr ⟨at_m, List.mem_cons_of_mem _ read, rfl, ⟨job, turn.known, running, .refl⟩, rfl, fun _ => rfl⟩
  intro result s₁ same
  subst same
  have grows₁ : s.Grows (s.called (.recognize image page.pageNumber job.options job.requestId) (.ok result)) :=
    .called _
  have at₁ := grows₁.message.trans at_m
  refine Prog.Meets.bind (Prog.meets_mapError.mpr ((reload_spec at₁ turn.known turn.own running turn.own).mono
    (fun _ _ h => h) fun _ _ ends => .inl ends)) ?_
  rintro latest s₂ ⟨onward, known, stays⟩
  have at₂ := onward.message.trans at₁
  by_cases cancelling : latest.state = .cancelRequested
  · rw [if_pos cancelling]
    refine Prog.meets_mapError.mpr ((cancelLatest_spec at₂ cancelling).mono ?_ fun _ _ ends => .inl ends)
    exact fun _ _ ended => .inl (.inl ended)
  · rw [if_neg cancelling]
    have state : latest.state = .running := (stays.state.resolve_right cancelling).trans turn.state
    have read₂ := onward.mem (grows₁.mem read)
    have held : ∃ v, s₂.known = some v ∧ v.state.active = true ∧ job.Stays v :=
      ⟨latest, known, by rw [state]; rfl, stays⟩
    refine Prog.Meets.bind (Prog.meets_mapError.mpr (pageAt_spec.mono (fun _ _ h => h) fun _ _ same => ?_)) ?_
    · subst same
      exact .inr ⟨at₂, read₂, onward.asked, held, rfl, fun _ => rfl⟩
    rintro latestPage s₂ ⟨rfl, at_index⟩
    obtain ⟨old, there, rows⟩ := stays.page at_index
    cases Option.some.inj (turn.found.symm.trans there)
    have number : latestPage.pageNumber = page.pageNumber := congrArg PageRow.pageNumber rows
    have input : latestPage.inputObjectKey = page.inputObjectKey := congrArg PageRow.sourceObjectKey rows
    have unfinished : latestPage.state ≠ .succeeded := by
      rw [show latestPage.state = page.state from congrArg PageRow.status rows]
      exact turn.unfinished
    have turn' : s₂.Turn m latest index latestPage :=
      ⟨known, stays.id.trans turn.own, stays.attempt.trans turn.attempt, state, at_index, unfinished⟩
    have options : latest.options = job.options := congrArg Birth.options stays.birth
    refine Prog.meets_mapError.mpr ((checkpoint_spec at₂ turn' stays.id.symm stays.attempt.symm ?_).mono ?_ ?_)
    · rw [input, number, options]
      exact ⟨image, job.requestId, read₂, onward.mem List.mem_cons_self⟩
    · rintro reply s₃ (ended | ⟨at₃, holds, later, row, done, pages⟩)
      · exact .inl ended
      · exact .inr ⟨at₃, holds, later, row, done, by rw [pages, stays.pages]⟩
    · rintro e s₃ (ends | keeps)
      · exact .inl ends
      · refine .inr ⟨keeps.message.trans at₂, keeps.mem read₂, keeps.asked.trans onward.asked, ?_, ?_, nofun⟩
        · exact ⟨latest, keeps.known.trans known, by rw [state]; rfl, stays⟩
        · exact congrArg PageRow.retryCount rows

/-- A page that is given up fails the job, unless it is cancelled. -/
theorem failPage_spec {lastError : Option Exc} (at_m : s.message = some m) (known : s.known = some v)
    (own : v.id = m.jobId) (active : v.state.active = true) (id : job.id = m.jobId)
    (state : v.state = .running ∨ v.state = .cancelRequested) :
    Follows settings m (failPage job index lastError)
      (fun reply _ => reply.state = .cancelled ∨ reply.state = .failed) (fun _ _ => True) s := by
  refine ((reload_spec at_m known own active id).mono (fun _ _ h => h) fun _ _ _ => trivial).bind ?_
  rintro latest s₁ ⟨onward, -, stays⟩
  have at₁ := onward.message.trans at_m
  refine (pageAt_spec.mono (fun _ _ h => h) fun _ _ _ => trivial).bind ?_
  rintro page _ ⟨rfl, -⟩
  refine ((saveAndEmit_spec .pageFailed at₁ fun s' event _ same _ => ?_).mono (fun _ _ h => h)
    fun _ _ _ => trivial).bind ?_
  · unfold saves
    rw [same]
    change latest.state = .running ∨ latest.state = .cancelRequested
    rcases stays.state with same | asked
    · rw [same]
      exact state
    · exact .inr asked
  · intro failed s₂ saved
    refine (log_spec (saved.message.trans at₁)).bind fun _ s₃ keeps => ?_
    exact fail_spec (keeps.message.trans (saved.message.trans at₁))

/-- A page that is being recognized, with its image. -/
structure Ready (s : Course) (m : JobWorkMessage) (job : Job) (index : Nat) (image : Content) : Prop where
  holds : s.Holds m job
  running : job.state = .running ∨ job.state = .cancelRequested
  page : ∃ page, job.pages[index]? = some page ∧ page.state ≠ .succeeded ∧
    ⟨.getBytes page.inputObjectKey, .ok image⟩ ∈ s.past

/-- `Advanced` looks at the other pages only. -/
theorem PageDone.of_set {job' reply : Job} {row : PageRow} (done : PageDone m job' index reply s)
    (pages : job'.version.pages = job.version.pages.set index row) : PageDone m job index reply s := by
  rcases done with ended | ⟨at_m, holds, running, row', succeeded, advanced⟩
  · exact .inl ended
  · exact .inr ⟨at_m, holds, running, row', succeeded, by rw [advanced, pages, List.set_set]⟩

theorem Turn.saved {job' : Job} {page' : Page} {type : EventType} {data : List (String × Json)}
    (turn : s.Turn m job index page) (saved : Saved s (job.setPage index page') type data job' s')
    (unfinished : page'.state ≠ .succeeded) : s'.Turn m job' index page' := by
  obtain ⟨revision, rfl⟩ := saved.copy
  refine ⟨saved.known, turn.own, turn.attempt, turn.state, ?_, unfinished⟩
  obtain ⟨bound, -⟩ := List.getElem?_eq_some_iff.mp turn.found
  simp [Job.setPage, bound]

theorem Saved.pages {job' : Job} {page' : Page} {type : EventType} {data : List (String × Json)}
    (saved : Saved s (job.setPage index page') type data job' s') :
    job'.version.pages = job.version.pages.set index page'.toRow := by
  obtain ⟨revision, rfl⟩ := saved.copy
  exact List.map_set

/-- `later` is `job` with another note on its page at `index`. -/
structure Noted (job : Job) (index : Nat) (page : Page) (later : Job) (page' : Page) : Prop where
  id : later.id = job.id
  attempt : later.attempt = job.attempt
  state : later.state = job.state
  found : later.pages[index]? = some page'
  pages : later.version.pages = job.version.pages.set index page'.toRow
  status : page'.state = page.state
  number : page'.pageNumber = page.pageNumber
  attempts : page'.processingAttempts = page.processingAttempts
  input : page'.inputObjectKey = page.inputObjectKey

theorem Noted.of_set {code : Nat} {text : Option String} (found : job.pages[index]? = some page) :
    Noted job index page (job.setPage index { page with internalCode := code, errorReason := text })
      { page with internalCode := code, errorReason := text } := by
  obtain ⟨bound, -⟩ := List.getElem?_eq_some_iff.mp found
  exact ⟨rfl, rfl, rfl, by simp [Job.setPage, bound], List.map_set, rfl, rfl, rfl, rfl⟩

theorem Noted.refl (found : job.pages[index]? = some page) : Noted job index page job page := by
  obtain ⟨bound, here⟩ := List.getElem?_eq_some_iff.mp found
  have same : job.pages.set index page = job.pages := by rw [← here, List.set_getElem_self]
  refine ⟨rfl, rfl, rfl, found, ?_, rfl, rfl, rfl, rfl⟩
  rw [Job.version, ← List.map_set, same]

/-- The loop of one page, by induction on its turns: each starts from the
stored version and ends with what it has saved. -/
theorem pageTurns_spec {turns : Nat} {lastError : Option Exc} (at_m : s.message = some m)
    (ready : s.Ready m job index image) :
    Follows settings m (pageTurns settings image index turns job lastError)
      (fun reply s' => PageDone m job index reply s') (fun _ _ => True) s := by
  induction turns generalizing s job lastError with
  | zero => trivial
  | succ turns ih =>
    obtain ⟨holds, running, page₀, found₀, unfinished₀, read₀⟩ := ready
    obtain ⟨v, known, own, attempt, active, stays, state⟩ := holds
    refine ((reload_spec at_m known own active (stays.id.trans own)).mono (fun _ _ h => h)
      fun _ _ _ => trivial).bind ?_
    rintro latest s₁ ⟨onward, known₁, stays₁⟩
    have at₁ := onward.message.trans at_m
    by_cases cancelling : latest.state = .cancelRequested
    · rw [if_pos cancelling]
      refine (cancelLatest_spec at₁ cancelling).mono ?_ fun _ _ _ => trivial
      exact fun _ _ ended => .inl (.inl ended)
    rw [if_neg cancelling]
    have same₁ : latest.state = job.state := (stays₁.state.resolve_right cancelling).trans state.symm
    have running₁ : latest.state = .running := same₁.trans (running.resolve_right (same₁ ▸ cancelling))
    have own₁ := stays₁.id.trans own
    have attempt₁ := stays₁.attempt.trans attempt
    have pages₁ : latest.version.pages = job.version.pages := stays₁.pages.trans stays.pages.symm
    refine (pageAt_spec.mono (fun _ _ h => h) fun _ _ _ => trivial).bind ?_
    rintro page s₁ ⟨rfl, at_index⟩
    have rows : page.toRow = page₀.toRow := by
      have same := congrArg (·[index]?) pages₁
      simp only [Job.version, List.getElem?_map, at_index, found₀, Option.map_some] at same
      exact Option.some.inj same
    have unfinished : page.state ≠ .succeeded := by
      rw [show page.state = page₀.state from congrArg PageRow.status rows]
      exact unfinished₀
    have read : ⟨.getBytes page.inputObjectKey, .ok image⟩ ∈ s₁.past := by
      rw [show page.inputObjectKey = page₀.inputObjectKey from congrArg PageRow.sourceObjectKey rows]
      exact onward.mem read₀
    have turn : s₁.Turn m latest index page := ⟨known₁, own₁, attempt₁, running₁, at_index, unfinished⟩
    by_cases exhausted : settings.maxPageRetries + 1 ≤ page.processingAttempts
    · rw [if_pos exhausted]
      refine (failPage_spec at₁ known₁ own₁ (by rw [running₁]; rfl) own₁ (.inl running₁)).mono ?_
        fun _ _ _ => trivial
      exact fun _ _ ended => .inl ended
    rw [if_neg exhausted]
    have started : page.start.state = .running := by rw [Page.start, if_neg unfinished]
    have input : page.start.inputObjectKey = page.inputObjectKey := by rw [Page.start, if_neg unfinished]
    have counted : 0 < page.start.processingAttempts := by
      rw [Page.start, if_neg unfinished]
      exact Nat.succ_pos _
    refine ((saveAndEmit_spec .pageRunning at₁ fun s' event keeps same data => ?_).mono (fun _ _ h => h)
      fun _ _ _ => trivial).bind ?_
    · unfold saves
      rw [same]
      exact ⟨latest, index, page, turn.keeps keeps, by omega, rfl, data⟩
    intro job₂ s₂ saved
    have at₂ := saved.message.trans at₁
    have turn₂ : s₂.Turn m job₂ index page.start := turn.saved saved (by rw [started]; decide)
    have pages₂ : job₂.version.pages = job.version.pages.set index page.start.toRow := pages₁ ▸ saved.pages
    have read₂ : ⟨.getBytes page.start.inputObjectKey, .ok image⟩ ∈ s₂.past := by
      rw [input]
      exact saved.mem read
    refine Prog.Meets.bind (Q := Prog.Attempted (fun reply s₃ => PageDone m job₂ index reply s₃)
        fun raised s₃ => Ends raised.error ∨ Missed m job₂ page.start image raised s₃)
      (Prog.meets_attempt.mpr ?_) ?_
    · obtain ⟨event, saving, rest, last, type, data⟩ := saved.last
      exact recognizePage_spec at₂ turn₂ read₂ ⟨_, event, saving, rest, last, type, data⟩
    rintro (raised | reply) s₃ outcome
    · dsimp only
      by_cases ends : Ends raised.error
      · rw [if_pos ends]
        trivial
      rw [if_neg ends]
      have missed := outcome.resolve_left ends
      obtain ⟨v₃, known₃, active₃, stays₃⟩ := missed.known
      have state₃ : v₃.state = .running ∨ v₃.state = .cancelRequested :=
        stays₃.state.imp_left fun same => same.trans turn₂.state
      split
      · refine (failPage_spec missed.message known₃ (stays₃.id.trans turn₂.own) active₃ turn₂.own state₃).mono ?_
          fun _ _ _ => trivial
        exact fun _ _ ended => .inl ended
      · generalize chosen : (if raised.ofJob = true then job₂.setPage index { raised.page with
            internalCode := (internalCode raised.error).value, errorReason := some (reason raised.error) }
          else job₂) = job₃
        obtain ⟨page₃, noted⟩ : ∃ page₃, Noted job₂ index page.start job₃ page₃ := by
          rw [← chosen]
          split
          · rename_i ofJob
            rw [missed.own ofJob]
            exact ⟨_, .of_set turn₂.found⟩
          · exact ⟨_, .refl turn₂.found⟩
        have running₃ : job₃.state = .running := noted.state.trans turn₂.state
        refine ((saveAndEmit_spec .pageRetryScheduled missed.message fun s' event _ same _ => ?_).mono
          (fun _ _ h => h) fun _ _ _ => trivial).bind ?_
        · unfold saves
          rw [same]
          exact running₃
        intro job₄ s₄ saved₄
        have at₄ := saved₄.message.trans missed.message
        obtain ⟨revision, copy⟩ := saved₄.copy
        have turn₄ : s₄.Turn m job₄ index page₃ := by
          rw [copy]
          refine ⟨copy ▸ saved₄.known, noted.id.trans turn₂.own, noted.attempt.trans turn₂.attempt, running₃,
            noted.found, ?_⟩
          rw [noted.status, started]
          decide
        have pages₄ : job₄.version.pages = job.version.pages.set index page₃.toRow := by
          rw [copy]
          change job₃.version.pages = _
          rw [noted.pages, pages₂, List.set_set]
        have read₄ : ⟨.getBytes page₃.inputObjectKey, .ok image⟩ ∈ s₄.past := by
          rw [noted.input]
          exact saved₄.mem missed.read
        have delays : backoff settings { raised.page with
            internalCode := (internalCode raised.error).value, errorReason := some (reason raised.error) } =
            backoff settings page₃ := by
          simp only [backoff, missed.attempts, noted.attempts]
        have awaits : s₄.calls settings m (.sleep (backoff settings page₃)) := by
          refine ⟨job₄, index, page₃, turn₄, ?_, ?_, rfl⟩
          · rw [noted.attempts]
            exact counted
          · rw [saved₄.asked, missed.asked, noted.number]
        rw [delays]
        refine Prog.Meets.bind (Q := fun _ s₅ => s₄.Keeps s₅) ((quiet_spec (.sleep _) at₄ awaits
          ⟨fun _ => rfl, fun _ => rfl, fun _ => rfl⟩).mono (fun _ _ h => h.1) fun _ _ _ => trivial) ?_
        intro _ s₅ keeps
        have holds₅ : s₅.Holds m job₄ :=
          .of_known (keeps.known.trans turn₄.known) turn₄.own turn₄.attempt (by rw [turn₄.state]; rfl)
        refine (ih (keeps.message.trans at₄) ⟨holds₅, .inl turn₄.state, page₃, turn₄.found, turn₄.unfinished,
          keeps.mem read₄⟩).mono ?_ fun _ _ _ => trivial
        exact fun _ _ done => done.of_set pages₄
    · exact outcome.of_set pages₂

theorem processPage_spec {turns : Nat} (at_m : s.message = some m) (holds : s.Holds m job)
    (running : job.state = .running ∨ job.state = .cancelRequested) (found : job.pages[index]? = some page)
    (unfinished : page.state ≠ .succeeded) :
    Follows settings m (processPage settings turns job index page)
      (fun reply s' => PageDone m job index reply s') (fun _ _ => True) s := by
  refine ((storage_spec (.getBytes page.inputObjectKey) at_m trivial
    ⟨fun _ => rfl, fun _ => rfl, fun _ => rfl⟩).mono (fun _ _ h => h) fun _ _ _ => trivial).bind ?_
  rintro image s₁ ⟨keeps, read, -⟩
  exact pageTurns_spec (keeps.message.trans at_m) ⟨holds.keeps keeps, running, page, found, unfinished, read⟩

end MonkeyOcr.Course
