import MonkeyOcr.Lifecycle.Memory

namespace MonkeyOcr.OCRWorker

open Calls Memory

variable {s : Memory} {m : JobWorkMessage} {job : Job} {origin : Option Site} {α : Type}
  {Q : α → Memory → Prop} {E : Exc → Memory → Prop}

/-- The call works on the message's job, in the version `job`. -/
def Current (m : JobWorkMessage) (s : Memory) (job : Job) : Prop :=
  job.id = m.jobId ∧ ∃ origin, s.Works origin job

/-- The call has some copy of the message's job at hand. -/
def Held (m : JobWorkMessage) (s : Memory) (job : Job) : Prop := job.id = m.jobId ∧ s.Sees m.jobId

/-- `job` is what the call saved last. -/
def Saved (m : JobWorkMessage) (s : Memory) (job : Job) : Prop :=
  job.id = m.jobId ∧ (none, job) ∈ s.seen

theorem Saved.current (saved : Saved m s job) : Current m s job :=
  ⟨saved.1, none, .inl ⟨saved.2, trivial⟩⟩

theorem Current.sees (current : Current m s job) : s.Sees m.jobId := by
  obtain ⟨id, origin, works⟩ := current
  exact id ▸ works.sees

theorem Current.held (current : Current m s job) : Held m s job := ⟨current.1, current.sees⟩

theorem Saved.held (saved : Saved m s job) : Held m s job := saved.current.held

theorem Saved.settled (saved : Saved m s job)
    (ended : job.state = .cancelled ∨ job.state = .failed ∨ job.state = .succeeded) :
    s.Settled m := by
  refine .inr ⟨none, job, saved.2, saved.1, .inl ?_⟩
  rcases ended with h | h | h <;> simp [Job.terminal, h]

theorem Current.grows {s' : Memory} (current : Current m s job) (grows : s.Grows s') :
    Current m s' job :=
  ⟨current.1, current.2.imp fun _ works => grows.works works⟩

/-- A call that leaves no trace in the memory. -/
theorem quiet_spec (op : Op) (at_m : s.message = some m) (allowed : s.workerCalls m op)
    (quiet : ∀ r, s.next op r = s) :
    (await op).Meets ghost worker (fun _ s' => s' = s) (fun _ s' => s' = s) s := by
  refine ⟨⟨m, at_m, allowed⟩, fun r _ => ?_⟩
  cases r <;> exact quiet _

theorem storage_spec (op : Op) (at_m : s.message = some m) (allowed : s.workerCalls m op)
    (quiet : ∀ r, s.next op r = s) :
    (storage op).Meets ghost worker (fun _ s' => s' = s) (fun _ s' => s' = s) s :=
  Prog.meets_mapError.mpr (quiet_spec op at_m allowed quiet)

theorem utcNow_spec (at_m : s.message = some m) :
    (await .utcNow).Meets ghost worker (fun _ s' => s' = s) (fun _ s' => s' = s) s :=
  quiet_spec .utcNow at_m trivial fun _ => rfl

theorem database_spec (op : Op) (at_m : s.message = some m) (allowed : s.workerCalls m op)
    {Q : op.Val → Memory → Prop} (returns : ∀ a, answer op (.ok a) → Q a (s.next op (.ok a)))
    (raises : ∀ e, E (databaseError e) (s.next op (.error e))) :
    (database op).Meets ghost worker Q E s := by
  refine Prog.meets_mapError.mpr ⟨⟨m, at_m, allowed⟩, fun r reliable => ?_⟩
  cases r with
  | ok a => exact returns a reliable
  | error e => exact raises e

theorem ofExcept_spec {result : Except Exc α} (returns : ∀ a, result = .ok a → Q a s)
    (raises : ∀ e, E e s) : (Prog.ofExcept result).Meets ghost worker Q E s := by
  cases result with
  | ok a => exact returns a rfl
  | error e => exact raises e

theorem saveAndEmit_spec (type : EventType) {data} (at_m : s.message = some m)
    (id : job.id = m.jobId) (derived : s.Derived type job) (ofWorker : type.ofWorker = true) :
    (saveAndEmit job type data).Meets ghost worker
      (fun job' s' => s.Grows s' ∧ Saved m s' job' ∧ ∃ revision, job' = { job with revision })
      (fun _ s' => s.Grows s') s := by
  refine ((utcNow_spec at_m).mono (fun _ _ h => h) fun _ s' same => same ▸ .refl).bind
    fun now s' same => ?_
  subst same
  refine Prog.Meets.bind (Q := fun saved s'' =>
    s'' = { s' with seen := (none, { job with revision := saved.1 }) :: s'.seen })
    (database_spec (.saveWithEvent job _) at_m ⟨id, derived, ⟨rfl, rfl, rfl, rfl⟩, ofWorker⟩
      (fun saved _ => rfl) fun _ => .refl) fun saved s'' eq => ?_
  subst eq
  exact ⟨.cons _, ⟨id, List.mem_cons_self⟩, saved.1, rfl⟩

theorem cancelLatest_spec (at_m : s.message = some m) (id : job.id = m.jobId)
    (works : s.Works origin job) :
    (cancelLatest job).Meets ghost worker
      (fun job' s' => s.Grows s' ∧ Saved m s' job' ∧ job'.state = .cancelled)
      (fun _ s' => s.Grows s') s := by
  refine ((utcNow_spec at_m).mono (fun _ _ h => h) fun _ s' same => same ▸ .refl).bind
    fun now s' same => ?_
  subst same
  refine Prog.Meets.bind (Q := fun job' s'' => s'' = s' ∧ job.cancel now = .ok job')
    (ofExcept_spec (fun _ done => ⟨rfl, done⟩) fun _ => .refl) ?_
  rintro job' s'' ⟨rfl, done⟩
  obtain ⟨edits, state⟩ : job.Edits origin .jobCancelled job' ∧ job'.state = .cancelled :=
    Job.cancel_edits done
  refine (saveAndEmit_spec _ at_m (edits.id.trans id) (works.derived edits) rfl).mono ?_ fun _ _ h => h
  rintro _ _ ⟨grows, saved, revision, rfl⟩
  exact ⟨grows, saved, state⟩

theorem reload_spec {site : Site} (at_m : s.message = some m) (id : job.id = m.jobId)
    (sees : s.Sees m.jobId) (notApi : site ≠ .api) :
    (reload site job).Meets ghost worker
      (fun latest s' => s.Grows s' ∧ latest.id = m.jobId ∧
        ((some site, latest) ∈ s'.seen ∨ s'.Lost m.jobId))
      (fun _ s' => s' = s) s := by
  refine Prog.Meets.bind (Q := fun latest s' => s.Grows s' ∧
      match latest with
      | some latest => latest.id = m.jobId ∧ (some site, latest) ∈ s'.seen
      | none => s'.Lost m.jobId)
    (database_spec (.getJob site job.id) at_m ⟨id, notApi⟩ ?_ fun _ => rfl) ?_
  · intro latest reliable
    cases latest with
    | some latest =>
      exact ⟨.cons _, (show latest.id = job.id from reliable).trans id, List.mem_cons_self⟩
    | none =>
      exact ⟨.absent _ _, id ▸ Sees.lost (id ▸ sees) site⟩
  · rintro (_ | latest) s' ⟨grows, found⟩
    · exact ⟨grows, id, .inr found⟩
    · exact ⟨grows, found.1, .inl found.2⟩

theorem cancelIfRequested_spec (at_m : s.message = some m) (id : job.id = m.jobId) :
    (cancelIfRequested job).Meets ghost worker
      (fun refreshed s' => s.Grows s' ∧
        ∀ latest, refreshed = some latest → Saved m s' latest ∧ latest.state = .cancelled)
      (fun _ s' => s.Grows s') s := by
  refine Prog.Meets.bind (Q := fun latest s' => s.Grows s' ∧
      ∀ job', latest = some job' → job'.id = m.jobId ∧ (some .cancelCheck, job') ∈ s'.seen)
    (database_spec (.getJob .cancelCheck job.id) at_m ⟨id, by simp⟩ ?_ fun _ => .refl) ?_
  · rintro (_ | latest) reliable
    · exact ⟨.absent _ _, by simp⟩
    · refine ⟨.cons _, ?_⟩
      rintro _ ⟨⟩
      exact ⟨(show latest.id = job.id from reliable).trans id, List.mem_cons_self⟩
  · rintro (_ | latest) s' ⟨grows, found⟩
    · exact ⟨grows, by simp⟩
    · obtain ⟨latestId, member⟩ := found latest rfl
      by_cases asked : latest.state = .cancelRequested
      · simp only [asked, if_true]
        refine Prog.Meets.bind ((cancelLatest_spec (grows.message.trans at_m) latestId
          (.inl ⟨member, asked⟩)).mono (fun _ _ h => h) fun _ _ later => grows.trans later) ?_
        rintro latest' s'' ⟨later, saved, state⟩
        refine ⟨grows.trans later, ?_⟩
        rintro _ ⟨⟩
        exact ⟨saved, state⟩
      · simp only [asked, if_false]
        exact ⟨grows, by simp⟩

theorem fail_spec {reason internalCode} (at_m : s.message = some m) (current : Current m s job) :
    (fail job reason internalCode).Meets ghost worker
      (fun job' s' => s.Grows s' ∧ Saved m s' job' ∧ (job'.state = .cancelled ∨ job'.state = .failed))
      (fun _ s' => s.Grows s') s := by
  obtain ⟨id, origin, works⟩ := current
  refine ((utcNow_spec at_m).mono (fun _ _ h => h) fun _ s' same => same ▸ .refl).bind
    fun now s' same => ?_
  subst same
  by_cases asked : job.state = .cancelRequested
  · simp only [asked, if_true]
    refine Prog.Meets.bind (Q := fun job' s'' => s'' = s' ∧ job.cancel now = .ok job')
      (ofExcept_spec (fun _ done => ⟨rfl, done⟩) fun _ => .refl) ?_
    rintro job' s'' ⟨rfl, done⟩
    obtain ⟨edits, state⟩ : job.Edits origin .jobCancelled job' ∧ job'.state = .cancelled :=
    Job.cancel_edits done
    refine (saveAndEmit_spec _ at_m (edits.id.trans id) (works.derived edits) rfl).mono ?_ fun _ _ h => h
    rintro _ _ ⟨grows, saved, revision, rfl⟩
    exact ⟨grows, saved, .inl state⟩
  · simp only [asked, if_false]
    refine Prog.Meets.bind (Q := fun job' s'' => s'' = s' ∧
        job.fail reason internalCode.value now = .ok job')
      (ofExcept_spec (fun _ done => ⟨rfl, done⟩) fun _ => .refl) ?_
    rintro job' s'' ⟨rfl, done⟩
    obtain ⟨edits, state⟩ : job.Edits origin .jobFailed job' ∧ job'.state = .failed :=
      Job.fail_edits asked done
    refine (saveAndEmit_spec _ at_m (edits.id.trans id) (works.derived edits) rfl).mono ?_ fun _ _ h => h
    rintro _ _ ⟨grows, saved, revision, rfl⟩
    exact ⟨grows, saved, .inr state⟩

theorem repairTerminalEvent_spec (at_m : s.message = some m) (id : job.id = m.jobId)
    (member : (some .entry, job) ∈ s.seen) (own : job.attempt = m.attempt) :
    (repairTerminalEvent job).Meets ghost worker (fun _ s' => s' = s) (fun _ s' => s' = s) s := by
  refine (utcNow_spec at_m).bind fun now s' same => ?_
  subst same
  have append : ∀ type data, job.state.terminalEvent? = some type →
      (database (.appendEvent (jobEvent job type data now))).Meets ghost worker
        (fun _ s'' => s'' = s') (fun _ s'' => s'' = s') s' := fun type data terminal =>
    database_spec (.appendEvent _) at_m ⟨job, member, id, own, terminal, rfl, rfl, rfl, rfl⟩ (fun _ _ => rfl)
      fun _ => rfl
  cases state : job.state with
  | cancelled => exact append .jobCancelled _ (by rw [state]; rfl)
  | failed => exact append .jobFailed _ (by rw [state]; rfl)
  | succeeded => exact append .jobSucceeded _ (by rw [state]; rfl)
  | _ => rfl

/-! ### Assembling only reads and writes objects -/

theorem pageTexts_spec {page : Page} :
    (pageTexts page).Meets ghost worker (fun _ s' => s' = s) (fun _ s' => s' = s) s := by
  unfold pageTexts
  split <;> rfl

theorem loadPageResult_spec {page : Page} (at_m : s.message = some m) :
    (loadPageResult page).Meets ghost worker (fun _ s' => s' = s) (fun _ s' => s' = s) s := by
  unfold loadPageResult
  split
  · refine (storage_spec (.getBytes _) at_m trivial fun _ => rfl).bind fun data s' same => ?_
    subst same
    refine Prog.Meets.bind (Q := fun _ s'' => s'' = s') (ofExcept_spec (fun _ _ => rfl) fun _ => rfl)
      fun payload s'' same => ?_
    subst same
    split
    · rfl
    · exact pageTexts_spec
  · exact pageTexts_spec

theorem loadPageResults_spec {pages : List Page} (at_m : s.message = some m) :
    (loadPageResults pages).Meets ghost worker (fun _ s' => s' = s) (fun _ s' => s' = s) s := by
  induction pages with
  | nil => rfl
  | cons page rest ih =>
    refine (loadPageResult_spec at_m).bind fun result s' same => ?_
    subst same
    refine ih.bind fun results s'' same => ?_
    exact same

theorem storedArtifact_spec {kind key pageNumber} (at_m : s.message = some m) :
    (storedArtifact kind key pageNumber).Meets ghost worker (fun _ s' => s' = s)
      (fun _ s' => s' = s) s := by
  refine (storage_spec (.stat key) at_m trivial fun _ => rfl).bind fun info s' same => ?_
  subst same
  cases info with
  | none => rfl
  | some info =>
    dsimp only
    split
    · rfl
    · exact (storage_spec (.getBytes key) at_m trivial fun _ => rfl).bind fun _ _ same => same

theorem visualizationArtifact_spec {page : Page} (at_m : s.message = some m) :
    (visualizationArtifact page).Meets ghost worker (fun _ s' => s' = s) (fun _ s' => s' = s) s := by
  unfold visualizationArtifact
  split
  · exact storedArtifact_spec at_m
  · rfl

theorem pageArtifacts_spec {pages : List Page} (at_m : s.message = some m) :
    (pageArtifacts pages).Meets ghost worker (fun _ s' => s' = s) (fun _ s' => s' = s) s := by
  induction pages with
  | nil => rfl
  | cons page rest ih =>
    refine (storedArtifact_spec at_m).bind fun image s' same => ?_
    subst same
    refine (visualizationArtifact_spec at_m).bind fun visualization s'' same => ?_
    subst same
    exact ih.bind fun _ _ same => same

theorem assemble_spec {upload : Upload} (at_m : s.message = some m) :
    (assemble job upload).Meets ghost worker (fun _ s' => s' = s) (fun _ s' => s' = s) s := by
  refine (loadPageResults_spec at_m).bind fun results s' same => ?_
  subst same
  refine (storage_spec (.putBytes _ _ _) at_m trivial fun _ => rfl).bind fun markdown s'' same => ?_
  subst same
  refine (storage_spec (.putBytes _ _ _) at_m trivial fun _ => rfl).bind fun json s' same => ?_
  subst same
  refine (pageArtifacts_spec at_m).bind fun pages s'' same => ?_
  subst same
  refine (utcNow_spec at_m).bind fun now s' same => ?_
  subst same
  exact (storage_spec (.putBytes _ _ _) at_m trivial fun _ => rfl).bind fun _ _ same => same

/-! ### One page -/

theorem pageAt_spec {index : Nat} :
    (pageAt job index).Meets ghost worker
      (fun page s' => s' = s ∧ job.pages[index]? = some page) (fun _ s' => s' = s) s := by
  unfold pageAt
  split
  · rename_i found
    exact ⟨rfl, found⟩
  · rfl

theorem putVisualization_spec {page : Page} {result : OCRResult} (at_m : s.message = some m) :
    (putVisualization job page result).Meets ghost worker (fun _ s' => s' = s)
      (fun _ s' => s' = s) s := by
  unfold putVisualization
  split
  · rfl
  · exact (storage_spec (.putBytes _ _ _) at_m trivial fun _ => rfl).bind fun _ _ same => same

theorem checkpoint_spec {latest : Job} {index : Nat} {page : Page} {result : OCRResult}
    (at_m : s.message = some m) (id : latest.id = m.jobId)
    (works : s.Works (some (.recognized index)) latest) (active : latest.state ≠ .cancelRequested)
    (found : latest.pages[index]? = some page) :
    (checkpoint job latest index page result).Meets ghost worker
      (fun job' s' => s.Grows s' ∧ Saved m s' job') (fun _ s' => s.Grows s') s := by
  refine ((putVisualization_spec at_m).mono (fun _ _ h => h) fun _ _ same => same ▸ .refl).bind
    fun visualizationKey s' same => ?_
  subst same
  refine ((storage_spec (.putBytes _ _ _) at_m trivial fun _ => rfl).mono (fun _ _ h => h)
    fun _ _ same => same ▸ .refl).bind fun stored s'' same => ?_
  subst same
  refine (saveAndEmit_spec .pageSucceeded at_m (by exact id)
    (works.derived (by exact Job.pageSucceeded_edits active found)) rfl).bind ?_
  rintro _ s' ⟨grows, saved, revision, rfl⟩
  have unasked : ¬ latest.state = .cancelRequested := active
  simp only [Job.setPage, withEngine, unasked, if_false]
  exact ⟨grows, saved⟩

theorem recognizePage_spec {image : Content} {index : Nat} {page : Page}
    (at_m : s.message = some m) (held : Held m s job) :
    (recognizePage image index job page).Meets ghost worker
      (fun job' s' => s.Grows s' ∧ Saved m s' job')
      (fun raised s' => s.Grows s' ∧ (raised.ofJob = true → raised.page = page)) s := by
  refine Prog.Meets.bind (Q := fun _ s' => s' = s) (Prog.meets_mapError.mpr
    ((quiet_spec (.recognize ..) at_m trivial fun _ => rfl).mono (fun _ _ h => h)
      fun _ s' same => ⟨same ▸ .refl, fun _ => rfl⟩)) fun result s' same => ?_
  subst same
  refine Prog.Meets.bind (Prog.meets_mapError.mpr ((reload_spec at_m held.1 held.2 (by simp)).mono
    (fun _ _ h => h) fun _ _ same => ⟨same ▸ .refl, fun _ => rfl⟩)) ?_
  rintro latest s'' ⟨grows, id, found⟩
  have at_m' := grows.message.trans at_m
  have works : s''.Works (some (.recognized index)) latest :=
    found.imp (fun member => ⟨member, trivial⟩) fun lost => id ▸ lost
  by_cases asked : latest.state = .cancelRequested
  · simp only [asked, if_true]
    refine Prog.meets_mapError.mpr ((cancelLatest_spec at_m' id works).mono ?_
      fun _ _ later => ⟨grows.trans later, fun _ => rfl⟩)
    rintro _ _ ⟨later, saved, -⟩
    exact ⟨grows.trans later, saved⟩
  · simp only [asked, if_false]
    refine Prog.Meets.bind (Prog.meets_mapError.mpr (pageAt_spec.mono (fun _ _ h => h)
      fun _ _ same => ⟨same ▸ grows, fun _ => rfl⟩)) ?_
    rintro latestPage _ ⟨rfl, at_index⟩
    refine Prog.meets_mapError.mpr ((checkpoint_spec at_m' id works asked at_index).mono ?_
      fun _ _ later => ⟨grows.trans later, by simp⟩)
    rintro _ _ ⟨later, saved⟩
    exact ⟨grows.trans later, saved⟩

theorem log_spec {level event fields} (at_m : s.message = some m) :
    (await (.log level event fields)).Meets ghost worker (fun _ s' => s' = s) (fun _ s' => s' = s) s :=
  quiet_spec (.log ..) at_m trivial fun _ => rfl

theorem failPage_spec {index : Nat} {lastError : Option Exc} (at_m : s.message = some m)
    (held : Held m s job) :
    (failPage job index lastError).Meets ghost worker
      (fun job' s' => s.Grows s' ∧ Saved m s' job' ∧ (job'.state = .cancelled ∨ job'.state = .failed))
      (fun _ s' => s.Grows s') s := by
  refine ((reload_spec at_m held.1 held.2 (by simp)).mono (fun _ _ h => h)
    fun _ _ same => same ▸ .refl).bind ?_
  rintro latest s' ⟨grows, id, found⟩
  have at_m' := grows.message.trans at_m
  have works : s'.Works (some (.exhausted index)) latest :=
    found.imp (fun member => ⟨member, trivial⟩) fun lost => id ▸ lost
  refine (pageAt_spec.mono (fun _ _ h => h) fun _ _ same => same ▸ grows).bind ?_
  rintro page _ ⟨rfl, at_index⟩
  refine ((saveAndEmit_spec .pageFailed at_m' (by exact id)
    (works.derived (by exact Job.pageFailed_edits at_index)) rfl).mono
    (fun _ _ h => h) fun _ _ later => grows.trans later).bind ?_
  rintro saved s'' ⟨later, kept, -⟩
  have at_m'' := later.message.trans at_m'
  refine ((log_spec at_m'').mono (fun _ _ h => h) fun _ _ same => same ▸ grows.trans later).bind ?_
  rintro _ _ rfl
  refine (fail_spec at_m'' kept.current).mono ?_ fun _ _ last => grows.trans (later.trans last)
  rintro _ _ ⟨last, rest⟩
  exact ⟨grows.trans (later.trans last), rest⟩

/-- The loop of one page, by induction on its turns: each works on what it has
just read and leaves what it has just saved. -/
theorem pageTurns_spec {settings : Settings} {image : Content} {index turns : Nat}
    {lastError : Option Exc} (at_m : s.message = some m) (held : Held m s job) :
    (pageTurns settings image index turns job lastError).Meets ghost worker
      (fun job' s' => s.Grows s' ∧ Saved m s' job') (fun _ s' => s.Grows s') s := by
  induction turns generalizing s job lastError with
  | zero => trivial
  | succ turns ih =>
    refine ((reload_spec at_m held.1 held.2 (by simp)).mono (fun _ _ h => h)
      fun _ _ same => same ▸ .refl).bind ?_
    rintro latest s₁ ⟨grows, id, found⟩
    have at₁ := grows.message.trans at_m
    have works : s₁.Works (some (.pageTurn index)) latest :=
      found.imp (fun member => ⟨member, trivial⟩) fun lost => id ▸ lost
    by_cases asked : latest.state = .cancelRequested
    · simp only [asked, if_true]
      refine (cancelLatest_spec at₁ id works).mono ?_ fun _ _ later => grows.trans later
      rintro _ _ ⟨later, saved, -⟩
      exact ⟨grows.trans later, saved⟩
    · simp only [asked, if_false]
      refine (pageAt_spec.mono (fun _ _ h => h) fun _ _ same => same ▸ grows).bind ?_
      rintro page _ ⟨rfl, at_index⟩
      split
      · refine (failPage_spec at₁ ⟨id, grows.sees held.2⟩).mono ?_ fun _ _ later => grows.trans later
        rintro _ _ ⟨later, saved, -⟩
        exact ⟨grows.trans later, saved⟩
      · refine ((saveAndEmit_spec .pageRunning at₁ (by exact id)
          (works.derived (by exact Job.pageRunning_edits asked at_index)) rfl).mono
          (fun _ _ h => h) fun _ _ later => grows.trans later).bind ?_
        rintro _ s₂ ⟨later, saved, revision, rfl⟩
        have at₂ := later.message.trans at₁
        have grows₂ := grows.trans later
        refine Prog.Meets.bind (Q := Prog.Attempted (fun reply s₃ => s₂.Grows s₃ ∧ Saved m s₃ reply)
            fun (raised : PageRaised) s₃ => s₂.Grows s₃ ∧ (raised.ofJob = true → raised.page = page.start))
          (Prog.meets_attempt.mpr (recognizePage_spec at₂ saved.held)) ?_
        rintro (raised | reply) s₃ h
        · obtain ⟨grows₃, ofJob⟩ := h
          have at₃ := grows₃.message.trans at₂
          have grows₁₃ := grows₂.trans grows₃
          have saved₃ : Saved m s₃ _ := ⟨saved.1, grows₃.seen _ saved.2⟩
          have started : ({ (latest.setPage index page.start) with revision } : Job).pages[index]? =
              some page.start := by
            obtain ⟨bound, -⟩ := List.getElem?_eq_some_iff.mp at_index
            simp [Job.setPage, bound]
          dsimp only
          split
          · exact grows₁₃
          · split
            · refine (failPage_spec at₃ saved₃.held).mono ?_ fun _ _ last => grows₁₃.trans last
              rintro _ _ ⟨last, kept, -⟩
              exact ⟨grows₁₃.trans last, kept⟩
            · obtain ⟨_, origin, works₃⟩ := saved₃.current
              have derived : s₃.Derived .pageRetryScheduled (if raised.ofJob = true then
                  ({ (latest.setPage index page.start) with revision } : Job).setPage index
                    { raised.page with
                      internalCode := (internalCode raised.error).value
                      errorReason := some (reason raised.error) }
                  else { (latest.setPage index page.start) with revision }) := by
                split
                · rename_i own
                  rw [ofJob own]
                  exact works₃.derived (Job.pageRetryScheduled_edits _ _ asked started)
                · exact works₃.derived (Job.pageRetryScheduled_edits_unchanged asked started)
              refine ((saveAndEmit_spec .pageRetryScheduled at₃ (by split <;> exact saved₃.1) derived rfl).mono
                (fun _ _ h => h) fun _ _ last => grows₁₃.trans last).bind ?_
              rintro job₄ s₄ ⟨grows₄, saved₄, -⟩
              have at₄ := grows₄.message.trans at₃
              have grows₁₄ := grows₁₃.trans grows₄
              refine ((quiet_spec (.sleep _) at₄ trivial fun _ => rfl).mono (fun _ _ h => h)
                fun _ _ same => same ▸ grows₁₄).bind ?_
              rintro _ _ rfl
              refine (ih at₄ saved₄.held).mono ?_ fun _ _ last => grows₁₄.trans last
              rintro _ _ ⟨last, kept⟩
              exact ⟨grows₁₄.trans last, kept⟩
        · exact ⟨grows₂.trans h.1, h.2⟩

theorem processPage_spec {settings : Settings} {index turns : Nat} {page : Page}
    (at_m : s.message = some m) (held : Held m s job) :
    (processPage settings turns job index page).Meets ghost worker
      (fun job' s' => s.Grows s' ∧ Saved m s' job') (fun _ s' => s.Grows s') s := by
  refine ((storage_spec (.getBytes _) at_m trivial fun _ => rfl).mono (fun _ _ h => h)
    fun _ _ same => same ▸ .refl).bind ?_
  rintro image _ rfl
  exact pageTurns_spec at_m held

/-! ### One message -/

/-- What holds when the body of `process` raises. -/
def Frame (m : JobWorkMessage) (s : Memory) (raised : Raised) (s' : Memory) : Prop :=
  s.Grows s' ∧ ∀ job, raised.job = some job → job.id = m.jobId ∧ s'.Sees m.jobId

theorem Frame.trans {s' s'' : Memory} {raised : Raised} (grows : s.Grows s')
    (frame : Frame m s' raised s'') : Frame m s raised s'' :=
  ⟨grows.trans frame.1, frame.2⟩

theorem withJob_spec {p : Program α} (id : job.id = m.jobId) (sees : s.Sees m.jobId)
    (spec : p.Meets ghost worker Q (fun _ s' => s.Grows s') s) :
    (withJob job p).Meets ghost worker Q (Frame m s) s := by
  refine Prog.meets_mapError.mpr (spec.mono (fun _ _ h => h) fun e s' grows => ⟨grows, ?_⟩)
  rintro _ ⟨⟩
  exact ⟨id, grows.sees sees⟩

/-- A quiet part of the body. -/
theorem withJob_quiet {p : Program α} (held : Held m s job)
    (spec : p.Meets ghost worker (fun _ s' => s' = s) (fun _ s' => s' = s) s) :
    (withJob job p).Meets ghost worker (fun _ s' => s' = s) (Frame m s) s :=
  withJob_spec held.1 held.2 (spec.mono (fun _ _ h => h) fun _ _ same => same ▸ .refl)

theorem withJob_reload {site : Site} (at_m : s.message = some m) (held : Held m s job)
    (notApi : site ≠ .api) :
    (withJob job (reload site job)).Meets ghost worker
      (fun latest s' => s.Grows s' ∧ latest.id = m.jobId ∧
        ((some site, latest) ∈ s'.seen ∨ s'.Lost m.jobId)) (Frame m s) s :=
  withJob_spec held.1 held.2 ((reload_spec at_m held.1 held.2 notApi).mono (fun _ _ h => h)
    fun _ _ same => same ▸ .refl)

/-- A transition of the domain and its save, before the rest of the body. -/
theorem edit_bind {rest : Job → Prog Sig Raised α} {transition : Time → Except Exc Job}
    {type : EventType} {data} (at_m : s.message = some m) (held : Held m s job)
    (works : ∀ now job', transition now = .ok job' → s.Works origin job)
    (edits : ∀ now job', transition now = .ok job' → job.Edits origin type job')
    (ofWorker : type.ofWorker = true)
    (next : ∀ job₁ now revision s', transition now = .ok job₁ → s.Grows s' →
      Saved m s' { job₁ with revision } →
      (rest { job₁ with revision }).Meets ghost worker Q (Frame m s) s') :
    (withJob job (await .utcNow) >>= fun now => withJob job (Prog.ofExcept (transition now)) >>=
      fun job' => withJob job' (saveAndEmit job' type data) >>= rest).Meets ghost worker Q (Frame m s) s := by
  refine (withJob_quiet held (utcNow_spec at_m)).bind ?_
  rintro now s' rfl
  refine Prog.Meets.bind (Q := fun job' s'' => s'' = s' ∧ transition now = .ok job')
    (withJob_spec held.1 held.2 (ofExcept_spec (fun _ done => ⟨rfl, done⟩) fun _ => .refl)) ?_
  rintro job₁ s'' ⟨rfl, done⟩
  have stem := edits now job₁ done
  have id₁ := stem.id.trans held.1
  refine (withJob_spec id₁ held.2
    (saveAndEmit_spec type at_m id₁ ((works now job₁ done).derived stem) ofWorker)).bind ?_
  rintro _ s'' ⟨grows, saved, revision, rfl⟩
  exact next job₁ now revision s'' done grows saved

theorem startPreprocessing_spec (at_m : s.message = some m) (current : Current m s job) :
    (startPreprocessing job).Meets ghost worker (fun job' s' => s.Grows s' ∧ Current m s' job')
      (fun _ s' => s.Grows s') s := by
  unfold startPreprocessing
  split
  · obtain ⟨id, origin, works⟩ := current
    refine ((utcNow_spec at_m).mono (fun _ _ h => h) fun _ _ same => same ▸ .refl).bind ?_
    rintro now s' rfl
    refine Prog.Meets.bind (Q := fun job' s'' => s'' = s' ∧ job.beginPreprocessing now = .ok job')
      (ofExcept_spec (fun _ done => ⟨rfl, done⟩) fun _ => .refl) ?_
    rintro job' s'' ⟨rfl, done⟩
    have edits : job.Edits origin .jobPreprocessing job' := Job.beginPreprocessing_edits done
    refine (saveAndEmit_spec _ at_m (edits.id.trans id) (works.derived edits) rfl).mono ?_
      fun _ _ h => h
    rintro _ _ ⟨grows, saved, -⟩
    exact ⟨grows, saved.current⟩
  · exact ⟨.refl, current⟩

theorem preparePages_spec {upload : Upload} (at_m : s.message = some m) (current : Current m s job) :
    (preparePages job upload).Meets ghost worker (fun job' s' => s.Grows s' ∧ Current m s' job')
      (fun _ s' => s.Grows s') s := by
  unfold preparePages
  split
  · rename_i none
    split
    · exact .refl
    · obtain ⟨id, origin, works⟩ := current
      refine Prog.Meets.bind (Q := fun prepared s' => s' = s ∧
          prepared.map PreparedPage.pageNumber = List.range' 1 prepared.length)
        ⟨⟨m, at_m, trivial⟩, fun r reliable => ?_⟩ ?_
      · cases r with
        | ok prepared => exact ⟨rfl, reliable⟩
        | error e => exact .refl
      rintro prepared s' ⟨rfl, numbers⟩
      refine ((utcNow_spec at_m).mono (fun _ _ h => h) fun _ _ same => same ▸ .refl).bind ?_
      rintro now s' rfl
      refine Prog.Meets.bind (Q := fun job' s'' => s'' = s' ∧ job.setPages _ now = .ok job')
        (ofExcept_spec (fun _ done => ⟨rfl, done⟩) fun _ => .refl) ?_
      rintro job' s'' ⟨rfl, done⟩
      have edits : job.Edits origin .jobPagesPrepared job' := by
        obtain ⟨state, some, rfl⟩ := Job.setPages_ok done
        have ordered := preparedPages_sorted numbers
        refine ⟨rfl, rfl, rfl, .pagesPrepared state (by simpa [Job.version] using none) ?_ ?_ ?_⟩
        · simpa using some
        · rw [(preparedPages_insertionSort numbers)]
          exact ordered
        · intro row member
          obtain ⟨page, memberPage, rfl⟩ := List.mem_map.mp member
          obtain ⟨item, -, rfl⟩ := List.mem_map.mp memberPage
          exact ⟨rfl, rfl, rfl, rfl⟩
      refine (saveAndEmit_spec _ at_m (edits.id.trans id) (works.derived edits) rfl).mono ?_
        fun _ _ h => h
      rintro _ _ ⟨grows, saved, -⟩
      exact ⟨grows, saved.current⟩
  · exact ⟨.refl, current⟩

/-- What is left to do for the message when a part of the body is through. -/
def FlowPost (m : JobWorkMessage) (s : Memory) : Flow → Memory → Prop
  | .returned _, s' => s.Grows s' ∧ s'.Settled m
  | .goesOn job, s' => s.Grows s' ∧ Current m s' job

theorem cancelIfRequested_settles {refreshed : Option Job} {s' : Memory}
    (h : s.Grows s' ∧ ∀ latest, refreshed = some latest → Saved m s' latest ∧ latest.state = .cancelled)
    {latest : Job} (found : refreshed = some latest) : s'.Settled m :=
  (h.2 latest found).1.settled (.inl (h.2 latest found).2)

theorem finish_spec {upload : Upload} (at_m : s.message = some m) (current : Current m s job) :
    (finish job upload).Meets ghost worker
      (fun flow s' => FlowPost m s flow s' ∧ s'.Settled m) (Frame m s) s := by
  refine (withJob_quiet current.held (assemble_spec at_m)).bind ?_
  rintro artifacts s' rfl
  refine (withJob_spec current.1 current.sees (cancelIfRequested_spec at_m current.1)).bind ?_
  rintro refreshed s₁ check
  cases refreshed with
  | some refreshed =>
    have settled := cancelIfRequested_settles check rfl
    exact ⟨⟨check.1, settled⟩, settled⟩
  | none =>
    have grows₁ := check.1
    have at₁ := grows₁.message.trans at_m
    refine Prog.Meets.mono (Q := fun flow s' => FlowPost m s₁ flow s' ∧ s'.Settled m)
      (E := Frame m s₁) ?_ ?_ fun _ _ frame => frame.trans grows₁
    · refine (withJob_reload at₁ (current.grows grows₁).held (by simp)).bind ?_
      rintro latest s₂ ⟨grows₂, id, found⟩
      have works : ∀ artifacts now job', latest.succeed artifacts now = .ok job' →
          s₂.Works (some .beforeSuccess) latest := fun _ _ _ done =>
        found.imp (fun member => ⟨member, (Job.succeed_ok done).2.1, (Job.succeed_ok done).1⟩)
          fun lost => id ▸ lost
      refine Prog.Meets.mono (E := Frame m s₂) ?_ (fun _ _ h => h) fun _ _ frame => frame.trans grows₂
      refine edit_bind (grows₂.message.trans at₁) ⟨id, grows₂.sees (current.grows grows₁).sees⟩
        (works artifacts)
        (fun _ _ done => (Job.succeed_edits done).1) rfl ?_
      intro job₁ now revision s₃ done grows₃ saved
      exact ⟨⟨grows₂.trans grows₃, saved.current⟩,
        saved.settled (.inr (.inr (by rw [(Job.succeed_ok done).2.2])))⟩
    · rintro (reply | job') s' ⟨⟨grows, rest⟩, settled⟩
      · exact ⟨⟨grows₁.trans grows, rest⟩, settled⟩
      · exact ⟨⟨grows₁.trans grows, rest⟩, settled⟩

theorem pageLoop_spec {settings : Settings} {turns : Nat} {pages : List (Page × Nat)}
    (at_m : s.message = some m) (current : Current m s job) :
    (pageLoop settings turns pages job).Meets ghost worker (FlowPost m s) (Frame m s) s := by
  induction pages generalizing s job with
  | nil => exact ⟨.refl, current⟩
  | cons entry rest ih =>
    obtain ⟨page, index⟩ := entry
    unfold pageLoop
    split
    · exact ih at_m current
    · refine (withJob_spec current.1 current.sees (cancelIfRequested_spec at_m current.1)).bind ?_
      rintro refreshed s₁ check
      cases refreshed with
      | some refreshed => exact ⟨check.1, cancelIfRequested_settles check rfl⟩
      | none =>
        have grows₁ := check.1
        have at₁ := grows₁.message.trans at_m
        refine Prog.Meets.mono (Q := FlowPost m s₁) (E := Frame m s₁) ?_ ?_
          fun _ _ frame => frame.trans grows₁
        · refine (withJob_reload at₁ (current.grows grows₁).held (by simp)).bind ?_
          rintro latest s₂ ⟨grows₂, id, found⟩
          have at₂ := grows₂.message.trans at₁
          have held₂ : Held m s₂ latest := ⟨id, (current.grows (grows₁.trans grows₂)).sees⟩
          refine Prog.Meets.bind (Q := fun _ s' => s' = s₂)
            ((withJob_spec id held₂.2 (pageAt_spec.mono (fun _ _ h => h.1)
              fun _ _ same => same ▸ .refl)).mono (fun _ _ h => h)
              fun _ _ frame => frame.trans grows₂) ?_
          rintro page _ rfl
          refine Prog.Meets.bind ((withJob_spec id held₂.2 (processPage_spec at₂ held₂)).mono
            (fun _ _ h => h) fun _ _ frame => frame.trans grows₂) ?_
          rintro completed s₃ ⟨grows₃, saved⟩
          have grows := grows₂.trans grows₃
          split
          · rename_i ended
            exact ⟨grows, saved.settled (by tauto)⟩
          · refine (ih (grows₃.message.trans at₂) saved.current).mono ?_ fun _ _ frame => frame.trans grows
            rintro (reply | job') s' ⟨last, rest⟩
            · exact ⟨grows.trans last, rest⟩
            · exact ⟨grows.trans last, rest⟩
        · rintro (reply | job') s' ⟨grows, rest⟩
          · exact ⟨grows₁.trans grows, rest⟩
          · exact ⟨grows₁.trans grows, rest⟩

/-- The body of `process`: it returns when nothing is left to do. -/
abbrev BodyMeets (m : JobWorkMessage) (s : Memory) (p : Prog Sig Raised (Option Job)) : Prop :=
  p.Meets ghost worker (fun _ s' => s'.Settled m) (Frame m s) s

theorem BodyMeets.grows {s' : Memory} {p : Prog Sig Raised (Option Job)} (meets : BodyMeets m s' p)
    (grows : s.Grows s') : p.Meets ghost worker (fun _ s' => s'.Settled m) (Frame m s) s' :=
  Prog.Meets.mono meets (fun _ _ h => h) fun _ _ frame => frame.trans grows

theorem recognizePages_spec {settings : Settings} {turns : Nat} {upload : Upload}
    (at_m : s.message = some m) (current : Current m s job) :
    BodyMeets m s (recognizePages settings turns job upload) := by
  refine (pageLoop_spec at_m current).bind ?_
  rintro (reply | job') s₁ ⟨grows₁, rest⟩
  · exact rest
  · obtain ⟨id, origin, works⟩ := rest
    have at₁ := grows₁.message.trans at_m
    refine BodyMeets.grows ?_ grows₁
    refine edit_bind at₁ (Current.held ⟨id, origin, works⟩) (fun _ _ _ => works) (fun _ _ done => Job.beginAssembling_edits done) rfl ?_
    intro job₁ now revision s₂ _ grows₂ saved
    have at₂ := grows₂.message.trans at₁
    refine BodyMeets.grows ?_ grows₂
    refine (finish_spec at₂ saved.current).bind ?_
    rintro (reply | job') s₃ ⟨⟨grows₃, rest⟩, settled⟩
    · exact settled
    · refine Prog.Meets.bind ((withJob_quiet rest.held
        (log_spec (grows₃.message.trans at₂))).mono (fun _ _ h => h)
        fun _ _ frame => frame.trans grows₃) ?_
      rintro _ _ rfl
      exact settled

theorem advance_spec {settings : Settings} {turns : Nat} {upload : Upload}
    (at_m : s.message = some m) (current : Current m s job) :
    BodyMeets m s (advance settings turns job upload) := by
  unfold advance
  split
  · obtain ⟨id, origin, works⟩ := current
    refine edit_bind at_m (Current.held ⟨id, origin, works⟩) (fun _ _ _ => works) (fun _ _ done => Job.beginRunning_edits done) rfl ?_
    intro job₁ now revision s₁ _ grows saved
    exact BodyMeets.grows (recognizePages_spec (grows.message.trans at_m) saved.current) grows
  · split
    · refine (finish_spec at_m current).bind ?_
      rintro (reply | job') s₁ ⟨-, settled⟩
      · exact settled
      · exact settled
    · split
      · exact withJob_spec current.1 current.sees (Q := fun _ s' => s'.Settled m) Grows.refl
      · exact recognizePages_spec at_m current

theorem run_spec {settings : Settings} {turns : Nat} (at_m : s.message = some m)
    (current : Current m s job) : BodyMeets m s (run settings turns job) := by
  refine Prog.Meets.bind (Q := fun _ s' => s' = s) (withJob_spec current.1 current.sees
    (database_spec (.getUpload _) at_m trivial (fun _ _ => rfl) fun _ => .refl)) ?_
  rintro (_ | upload) _ rfl
  · refine (withJob_spec current.1 current.sees (fail_spec at_m current)).bind ?_
    rintro failed s₁ ⟨grows, saved, ended⟩
    exact saved.settled (by tauto)
  · refine (withJob_spec current.1 current.sees (startPreprocessing_spec at_m current)).bind ?_
    rintro job₁ s₁ ⟨grows₁, current₁⟩
    have at₁ := grows₁.message.trans at_m
    refine BodyMeets.grows ?_ grows₁
    refine (withJob_spec current₁.1 current₁.sees (preparePages_spec at₁ current₁)).bind ?_
    rintro job₂ s₂ ⟨grows₂, current₂⟩
    have at₂ := grows₂.message.trans at₁
    refine BodyMeets.grows ?_ grows₂
    refine (withJob_spec current₂.1 current₂.sees (cancelIfRequested_spec at₂ current₂.1)).bind ?_
    rintro refreshed s₃ check
    cases refreshed with
    | some refreshed => exact cancelIfRequested_settles check rfl
    | none =>
      exact BodyMeets.grows (advance_spec (check.1.message.trans at₂) (current₂.grows check.1)) check.1

theorem processBody_spec {settings : Settings} {turns : Nat} (at_m : s.message = some m) :
    BodyMeets m s (processBody settings turns m) := by
  refine Prog.Meets.bind (Q := fun found s' => s.Grows s' ∧
      match found with
      | some job => job.id = m.jobId ∧ (some .entry, job) ∈ s'.seen
      | none => m.jobId ∈ s'.missing)
    (Prog.meets_mapError.mpr (database_spec (.getJob .entry m.jobId) at_m ⟨rfl, by simp⟩ ?_
      fun _ => ⟨.refl, by simp⟩)) ?_
  · rintro (_ | job) reliable
    · exact ⟨.absent _ _, List.mem_cons_self⟩
    · exact ⟨.cons _, reliable, List.mem_cons_self⟩
  · rintro (_ | job) s₁ ⟨grows, found⟩
    · have at₁ := grows.message.trans at_m
      refine Prog.Meets.bind (Q := fun _ s' => s' = s₁) (Prog.meets_mapError.mpr
        ((log_spec at₁).mono (fun _ _ h => h) fun _ _ same => ⟨same ▸ grows, by simp⟩)) ?_
      rintro _ _ rfl
      exact .inl found
    · obtain ⟨id, member⟩ := found
      have at₁ := grows.message.trans at_m
      have sees : s₁.Sees m.jobId := ⟨_, job, member, id⟩
      by_cases other : job.attempt ≠ m.attempt
      · simp only [other, if_true, ne_eq, not_false_eq_true]
        exact .inr ⟨_, job, member, id, .inr other⟩
      · have own : job.attempt = m.attempt := not_not.mp other
        simp only [own, ne_eq, not_true_eq_false, if_false]
        by_cases ended : job.terminal = true
        · simp only [ended, if_true]
          refine Prog.Meets.bind (Q := fun _ s' => s' = s₁) ((withJob_spec id sees
            ((repairTerminalEvent_spec at₁ id member own).mono (fun _ _ h => h)
              fun _ _ same => same ▸ .refl)).mono (fun _ _ h => h)
            fun _ _ frame => frame.trans grows) ?_
          rintro _ _ rfl
          exact .inr ⟨_, job, member, id, .inl ended⟩
        · simp only [ended]
          refine BodyMeets.grows (run_spec at₁ ⟨id, some .entry, .inl ⟨member, ?_⟩⟩) grows
          intro message same
          cases (Option.some.inj (at₁.symm.trans same))
          exact own

theorem resolveConflict_spec (at_m : s.message = some m) :
    (resolveConflict m).Meets ghost worker (fun _ s' => s'.Settled m) (fun _ _ => True) s := by
  refine Prog.Meets.bind (Q := fun found s' => s.Grows s' ∧
      match found with
      | some job => job.id = m.jobId ∧ (some .conflict, job) ∈ s'.seen
      | none => m.jobId ∈ s'.missing)
    (database_spec (.getJob .conflict m.jobId) at_m ⟨rfl, by simp⟩ ?_ fun _ => trivial) ?_
  · rintro (_ | job) reliable
    · exact ⟨.absent _ _, List.mem_cons_self⟩
    · exact ⟨.cons _, reliable, List.mem_cons_self⟩
  · rintro (_ | latest) s₁ ⟨grows, found⟩
    · exact .inl found
    · obtain ⟨id, member⟩ := found
      by_cases asked : latest.state = .cancelRequested
      · simp only [asked, if_true]
        refine ((cancelLatest_spec (grows.message.trans at_m) id (.inl ⟨member, asked⟩)).mono
          (fun _ _ h => h) fun _ _ _ => trivial).bind ?_
        rintro job s₂ ⟨-, saved, state⟩
        exact saved.settled (.inl state)
      · simp only [asked, if_false]
        split
        · rename_i settled
          refine .inr ⟨_, latest, member, id, ?_⟩
          simpa using settled
        · trivial

theorem resolveFailure_spec {raised : Raised} (at_m : s.message = some m)
    (frame : ∀ job, raised.job = some job → job.id = m.jobId ∧ s.Sees m.jobId) :
    (resolveFailure m raised).Meets ghost worker (fun _ s' => s'.Settled m) (fun _ _ => True) s := by
  refine ((log_spec at_m).mono (fun _ _ h => h) fun _ _ _ => trivial).bind ?_
  rintro _ _ rfl
  split
  · trivial
  · split
    · trivial
    · rename_i job held
      obtain ⟨id, sees⟩ := frame job held
      refine ((reload_spec at_m id sees (by simp)).mono (fun _ _ h => h) fun _ _ _ => trivial).bind ?_
      rintro latest s₁ ⟨grows, latestId, found⟩
      have at₁ := grows.message.trans at_m
      have works : latest.terminal = false → s₁.Works (some .failure) latest := fun running =>
        found.imp (fun member => ⟨member, running⟩) fun lost => latestId ▸ lost
      by_cases asked : latest.state = .cancelRequested
      · simp only [asked, if_true]
        refine ((cancelLatest_spec at₁ latestId (works (by simp [Job.terminal, asked]))).mono
          (fun _ _ h => h) fun _ _ _ => trivial).bind ?_
        rintro job s₂ ⟨-, saved, state⟩
        exact saved.settled (.inl state)
      · simp only [asked, if_false]
        by_cases ended : latest.terminal = true
        · simp only [ended, if_true]
          rcases found with member | lost
          · exact .inr ⟨_, latest, member, latestId, .inl ended⟩
          · exact .inl lost.2.1
        · simp only [ended]
          refine ((fail_spec at₁ ⟨latestId, some .failure, works (by simpa using ended)⟩).mono
            (fun _ _ h => h) fun _ _ _ => trivial).bind ?_
          rintro job s₂ ⟨-, saved, state⟩
          exact saved.settled (by tauto)

/-- `process` works on versions of its own job only, saves what is one edit
away from one of them, and returns when nothing is left to do. -/
theorem process_spec {settings : Settings} {turns : Nat} (at_m : s.message = some m) :
    (process settings turns m).Meets ghost worker
      (fun _ s' => m.schemaVersion = 1 → s'.Settled m) (fun _ _ => True) s := by
  unfold process
  by_cases supported : m.schemaVersion = 1
  · simp only [supported, ne_eq, not_true_eq_false, if_false]
    refine Prog.Meets.bind (Q := Prog.Attempted (fun _ (s' : Memory) => s'.Settled m) fun raised s' => Frame m s raised s')
      (Prog.meets_attempt.mpr (processBody_spec at_m)) ?_
    rintro (raised | reply) s' h
    · have at' := h.1.message.trans at_m
      dsimp only
      split
      · exact (resolveConflict_spec at').mono (fun _ _ settled _ => settled) fun _ _ h => h
      · exact (resolveFailure_spec at' h.2).mono (fun _ _ settled _ => settled) fun _ _ h => h
    · exact fun _ => h
  · simp only [ne_eq, supported, not_false_eq_true, if_true]
    refine ((log_spec at_m).mono (fun _ _ h => h) fun _ _ _ => trivial).bind ?_
    rintro _ _ rfl
    exact fun one => one.elim

end MonkeyOcr.OCRWorker
