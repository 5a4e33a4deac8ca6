import MonkeyOcr.Lifecycle.RowChange
import MonkeyOcr.Statements.Clients

namespace MonkeyOcr

open Calls

/-- A save that fails otherwise than by a conflict. -/
def Op.rollsBack (op : Op) (r : Except Exc op.Val) : Bool := op.saved?.isSome && unconfirmed r

namespace Rollbacks

/-- Remembers whether a save has failed otherwise than by a conflict. -/
def ghost : Ghost Sig Bool := ⟨fun failed op r => failed || op.rollsBack r⟩

def answers (op : Op) (r : Except Exc op.Val) : Prop :=
  op.saved?.isSome = true → ∀ e, r = .error e → e = .concurrentJobUpdate ∨ e.isOther = true

/-- No save after such a failure. -/
def contract : Contract Sig Bool where
  allow failed op := op.saved?.isSome = true → failed = false
  answer _ op r := answers op r

variable {α β ε ε' : Type} {raises : ε → Exc}

/-- A part of a client that ends once a save of it has failed: it raises that
the database is not available. -/
abbrev Yields (raises : ε → Exc) (p : Prog Sig ε α) : Prop :=
  p.Meets ghost contract (fun _ failed => failed = false)
    (fun e failed => failed = true → raises e = .databaseUnavailable) false

theorem yields_pure (a : α) : Yields raises (pure a : Prog Sig ε α) := rfl

theorem yields_raise (e : ε) : Yields raises (.raise e : Prog Sig ε α) := nofun

theorem yields_ofExcept (result : Except ε α) : Yields raises (.ofExcept result : Prog Sig ε α) := by
  cases result with
  | ok a => rfl
  | error e => exact nofun

theorem Yields.andThen {p : Prog Sig ε α} {f : α → Prog Sig ε β} (first : Yields raises p)
    (rest : ∀ a, Yields raises (f a)) : Yields raises (p >>= f) := by
  refine Prog.Meets.bind first fun a failed good => ?_
  subst good
  exact rest a

theorem yields_await (op : Op) (quiet : op.saved? = none) : Yields (fun e => e) (await op) := by
  refine ⟨fun saves => by simp [quiet] at saves, fun r _ => ?_⟩
  have stays : ghost.next false op r = false := by simp [ghost, Op.rollsBack, quiet]
  rw [stays]
  cases r with
  | ok a => rfl
  | error e => exact nofun

/-- The exceptions of a part under another class. -/
theorem Yields.raising {p : Program α} {f : Exc → ε} (part : Yields (fun e => e) p)
    (kept : raises (f .databaseUnavailable) = .databaseUnavailable) : Yields raises (p.mapError f) := by
  refine Prog.meets_mapError.mpr (part.mono (fun _ _ good => good) fun e _ ends failed => ?_)
  have down : e = .databaseUnavailable := ends failed
  rw [down]
  exact kept

/-- What is left to do after a `try` depends on whether a save has failed. -/
theorem Yields.attempted {p : Prog Sig ε α} {f : Except ε α → Prog Sig ε' β} {Q : β → Bool → Prop}
    {E : ε' → Bool → Prop} (part : Yields raises p)
    (returned : ∀ a, (f (.ok a)).Meets ghost contract Q E false)
    (raised : ∀ e, raises e ≠ .databaseUnavailable → (f (.error e)).Meets ghost contract Q E false)
    (ended : ∀ e failed, raises e = .databaseUnavailable → (f (.error e)).Meets ghost contract Q E failed) :
    (p.attempt >>= f).Meets ghost contract Q E false := by
  refine Prog.Meets.bind (Q := Prog.Attempted (fun _ failed => failed = false)
    fun e failed => failed = true → raises e = .databaseUnavailable) (Prog.meets_attempt.mpr part) ?_
  intro outcome failed known
  cases outcome with
  | ok a =>
    cases known
    exact returned a
  | error e =>
    by_cases down : raises e = .databaseUnavailable
    · exact ended e failed down
    · have good : failed = false := Bool.eq_false_iff.mpr fun bad => down (known bad)
      rw [good]
      exact raised e down

end Rollbacks

namespace OCRWorker

open Rollbacks

variable {job latest : Job} {index turns : Nat} {page : Page} {upload : Upload} {settings : Settings}
  {message : JobWorkMessage} {α : Type}

theorem database_yields (op : Op) (quiet : op.saved? = none) : Yields (fun e => e) (database op) :=
  (yields_await op quiet).raising rfl

theorem storage_yields (op : Op) (quiet : op.saved? = none) : Yields (fun e => e) (storage op) :=
  (yields_await op quiet).raising rfl

theorem databaseError_of_other {e : Exc} (other : e.isOther = true) : databaseError e = .databaseUnavailable := by
  cases e with
  | other name =>
    refine if_neg fun known => ?_
    rcases known with conflict | dependency
    · cases conflict
    · cases dependency
  | _ => cases other

theorem saveAndEmit_yields (type : EventType) (data : List (String × Codec.Json)) :
    Yields (fun e => e) (saveAndEmit job type data) := by
  refine (yields_await .utcNow rfl).andThen fun now => ?_
  refine Yields.andThen ?_ fun saved => yields_pure _
  refine Prog.meets_mapError.mpr ⟨fun _ => rfl, fun r reliable => ?_⟩
  cases r with
  | ok saved => rfl
  | error e =>
    intro failed
    rcases reliable rfl e rfl with conflict | other
    · rw [conflict] at failed
      cases failed
    · exact databaseError_of_other other

theorem cancelLatest_yields : Yields (fun e => e) (cancelLatest latest) := by
  refine (yields_await .utcNow rfl).andThen fun now => ?_
  exact (yields_ofExcept _).andThen fun cancelled => saveAndEmit_yields ..

theorem reload_yields (site : Site) : Yields (fun e => e) (reload site job) :=
  (database_yields (.getJob site job.id) rfl).andThen fun _ => yields_pure _

theorem cancelIfRequested_yields : Yields (fun e => e) (cancelIfRequested job) := by
  refine (database_yields (.getJob .cancelCheck job.id) rfl).andThen fun latest => ?_
  cases latest with
  | none => exact yields_pure _
  | some latest =>
    dsimp only
    split
    · exact cancelLatest_yields.andThen fun cancelled => yields_pure _
    · exact yields_pure _

theorem fail_yields {why : String} {code : InternalStatusCode} : Yields (fun e => e) (fail job why code) := by
  refine (yields_await .utcNow rfl).andThen fun now => ?_
  split
  · exact (yields_ofExcept _).andThen fun cancelled => saveAndEmit_yields ..
  · exact (yields_ofExcept _).andThen fun failed => saveAndEmit_yields ..

theorem repairTerminalEvent_yields : Yields (fun e => e) (repairTerminalEvent job) := by
  refine (yields_await .utcNow rfl).andThen fun now => ?_
  split
  · exact database_yields _ rfl
  · exact database_yields _ rfl
  · exact database_yields _ rfl
  · exact yields_raise _

theorem pageTexts_yields : Yields (fun e => e) (pageTexts page) := by
  unfold pageTexts
  split
  · exact yields_pure _
  · exact yields_raise _

theorem loadPageResult_yields : Yields (fun e => e) (loadPageResult page) := by
  unfold loadPageResult
  split
  · refine (storage_yields (.getBytes _) rfl).andThen fun data => ?_
    refine (yields_ofExcept _).andThen fun payload => ?_
    split
    · exact yields_pure _
    · exact pageTexts_yields
  · exact pageTexts_yields

theorem loadPageResults_yields (pages : List Page) : Yields (fun e => e) (loadPageResults pages) := by
  induction pages with
  | nil => exact yields_pure _
  | cons page rest ih =>
    exact loadPageResult_yields.andThen fun result => ih.andThen fun results => yields_pure _

theorem storedArtifact_yields {kind : ArtifactKind} {key : ObjectKey} {pageNumber : Nat} :
    Yields (fun e => e) (storedArtifact kind key pageNumber) := by
  refine (storage_yields (.stat key) rfl).andThen fun info => ?_
  cases info with
  | none => exact yields_pure _
  | some info =>
    dsimp only
    split
    · exact yields_pure _
    · exact (storage_yields (.getBytes key) rfl).andThen fun data => yields_pure _

theorem pageArtifacts_yields (pages : List Page) : Yields (fun e => e) (pageArtifacts pages) := by
  induction pages with
  | nil => exact yields_pure _
  | cons page rest ih =>
    refine storedArtifact_yields.andThen fun image => ?_
    refine Yields.andThen ?_ fun visualization => ih.andThen fun artifacts => yields_pure _
    unfold visualizationArtifact
    split
    · exact storedArtifact_yields
    · exact yields_pure _

theorem assemble_yields : Yields (fun e => e) (assemble job upload) := by
  refine (loadPageResults_yields _).andThen fun results => ?_
  refine (storage_yields (.putBytes ..) rfl).andThen fun markdown => ?_
  refine (storage_yields (.putBytes ..) rfl).andThen fun json => ?_
  refine (pageArtifacts_yields _).andThen fun pages => ?_
  refine (yields_await .utcNow rfl).andThen fun now => ?_
  exact (storage_yields (.putBytes ..) rfl).andThen fun manifest => yields_pure _

theorem pageAt_yields : Yields (fun e => e) (pageAt job index) := by
  unfold pageAt
  split
  · exact yields_pure _
  · exact yields_raise _

theorem checkpoint_yields {result : OCRResult} : Yields (fun e => e) (checkpoint job latest index page result) := by
  have visualization : Yields (fun e => e) (putVisualization job page result) := by
    unfold putVisualization
    split
    · exact yields_pure _
    · exact (storage_yields (.putBytes ..) rfl).andThen fun _ => yields_pure _
  refine visualization.andThen fun key => ?_
  refine (storage_yields (.putBytes ..) rfl).andThen fun stored => ?_
  refine (saveAndEmit_yields ..).andThen fun saved => ?_
  split
  · exact cancelLatest_yields
  · exact yields_pure _

theorem recognizePage_yields {image : Content} : Yields PageRaised.error (recognizePage image index job page) := by
  refine ((yields_await (.recognize ..) rfl).raising rfl).andThen fun result => ?_
  refine ((reload_yields _).raising rfl).andThen fun latest => ?_
  split
  · exact cancelLatest_yields.raising rfl
  · refine (pageAt_yields.raising rfl).andThen fun latestPage => ?_
    exact checkpoint_yields.raising rfl

theorem failPage_yields {lastError : Option Exc} : Yields (fun e => e) (failPage job index lastError) := by
  refine (reload_yields _).andThen fun latest => ?_
  refine pageAt_yields.andThen fun page => ?_
  refine (saveAndEmit_yields ..).andThen fun saved => ?_
  exact (yields_await (.log ..) rfl).andThen fun _ => fail_yields

theorem pageTurns_yields {image : Content} {lastError : Option Exc} :
    Yields (fun e => e) (pageTurns settings image index turns job lastError) := by
  induction turns generalizing job lastError with
  | zero => trivial
  | succ turns ih =>
    refine (reload_yields _).andThen fun latest => ?_
    split
    · exact cancelLatest_yields
    · refine pageAt_yields.andThen fun page => ?_
      split
      · exact failPage_yields
      · refine (saveAndEmit_yields ..).andThen fun saved => ?_
        refine recognizePage_yields.attempted (fun reply => yields_pure _) (fun raised up => ?_)
          fun raised failed down => ?_
        · dsimp only
          split
          · exact yields_raise _
          · split
            · exact failPage_yields
            · refine (saveAndEmit_yields ..).andThen fun again => ?_
              exact (yields_await (.sleep _) rfl).andThen fun _ => ih
        · dsimp only
          rw [if_pos (Or.inr down)]
          exact fun _ => down

theorem processPage_yields : Yields (fun e => e) (processPage settings turns job index page) :=
  (storage_yields (.getBytes _) rfl).andThen fun _ => pageTurns_yields

/-! ### One message -/

theorem withJob_yields {p : Program α} (part : Yields (fun e => e) p) : Yields Raised.error (withJob job p) :=
  part.raising rfl

theorem startPreprocessing_yields : Yields (fun e => e) (startPreprocessing job) := by
  unfold startPreprocessing
  split
  · refine (yields_await .utcNow rfl).andThen fun now => ?_
    exact (yields_ofExcept _).andThen fun begun => saveAndEmit_yields ..
  · exact yields_pure _

theorem preparePages_yields : Yields (fun e => e) (preparePages job upload) := by
  unfold preparePages
  split
  · split
    · exact yields_raise _
    · refine (yields_await (.prepare upload job) rfl).andThen fun prepared => ?_
      refine (yields_await .utcNow rfl).andThen fun now => ?_
      exact (yields_ofExcept _).andThen fun paged => saveAndEmit_yields ..
  · exact yields_pure _

theorem finish_yields : Yields Raised.error (finish job upload) := by
  refine (withJob_yields assemble_yields).andThen fun artifacts => ?_
  refine (withJob_yields cancelIfRequested_yields).andThen fun refreshed => ?_
  cases refreshed with
  | some refreshed => exact yields_pure _
  | none =>
    refine (withJob_yields (reload_yields _)).andThen fun latest => ?_
    refine (withJob_yields (yields_await .utcNow rfl)).andThen fun now => ?_
    refine (withJob_yields (yields_ofExcept _)).andThen fun succeeded => ?_
    exact (withJob_yields (saveAndEmit_yields ..)).andThen fun saved => yields_pure _

theorem pageLoop_yields {pages : List (Page × Nat)} : Yields Raised.error (pageLoop settings turns pages job) := by
  induction pages generalizing job with
  | nil => exact yields_pure _
  | cons entry rest ih =>
    obtain ⟨page, index⟩ := entry
    unfold pageLoop
    split
    · exact ih
    · refine (withJob_yields cancelIfRequested_yields).andThen fun refreshed => ?_
      cases refreshed with
      | some refreshed => exact yields_pure _
      | none =>
        refine (withJob_yields (reload_yields _)).andThen fun latest => ?_
        refine (withJob_yields pageAt_yields).andThen fun page => ?_
        refine (withJob_yields processPage_yields).andThen fun completed => ?_
        split
        · exact yields_pure _
        · exact ih

theorem recognizePages_yields : Yields Raised.error (recognizePages settings turns job upload) := by
  refine pageLoop_yields.andThen fun flow => ?_
  cases flow with
  | returned reply => exact yields_pure _
  | goesOn job =>
    refine (withJob_yields (yields_await .utcNow rfl)).andThen fun now => ?_
    refine (withJob_yields (yields_ofExcept _)).andThen fun assembling => ?_
    refine (withJob_yields (saveAndEmit_yields ..)).andThen fun saved => ?_
    refine finish_yields.andThen fun flow => ?_
    cases flow with
    | returned reply => exact yields_pure _
    | goesOn job => exact (withJob_yields (yields_await (.log ..) rfl)).andThen fun _ => yields_pure _

theorem advance_yields : Yields Raised.error (advance settings turns job upload) := by
  unfold advance
  split
  · refine (withJob_yields (yields_await .utcNow rfl)).andThen fun now => ?_
    refine (withJob_yields (yields_ofExcept _)).andThen fun running => ?_
    exact (withJob_yields (saveAndEmit_yields ..)).andThen fun saved => recognizePages_yields
  · split
    · refine finish_yields.andThen fun flow => ?_
      cases flow <;> exact yields_pure _
    · split
      · exact withJob_yields (yields_raise _)
      · exact recognizePages_yields

theorem run_yields : Yields Raised.error (run settings turns job) := by
  refine (withJob_yields (database_yields (.getUpload _) rfl)).andThen fun upload => ?_
  cases upload with
  | none => exact (withJob_yields fail_yields).andThen fun failed => yields_pure _
  | some upload =>
    refine (withJob_yields startPreprocessing_yields).andThen fun started => ?_
    refine (withJob_yields preparePages_yields).andThen fun prepared => ?_
    refine (withJob_yields cancelIfRequested_yields).andThen fun refreshed => ?_
    cases refreshed with
    | some refreshed => exact yields_pure _
    | none => exact advance_yields

theorem processBody_yields : Yields Raised.error (processBody settings turns message) := by
  refine ((database_yields (.getJob .entry message.jobId) rfl).raising rfl).andThen fun found => ?_
  cases found with
  | none => exact ((yields_await (.log ..) rfl).raising rfl).andThen fun _ => yields_pure _
  | some job =>
    dsimp only
    split
    · exact yields_pure _
    · split
      · exact (withJob_yields repairTerminalEvent_yields).andThen fun _ => yields_pure _
      · exact run_yields

theorem resolveConflict_yields : Yields (fun e => e) (resolveConflict message) := by
  refine (database_yields (.getJob .conflict message.jobId) rfl).andThen fun latest => ?_
  cases latest with
  | none => exact yields_pure _
  | some latest =>
    dsimp only
    split
    · exact cancelLatest_yields.andThen fun cancelled => yields_pure _
    · split
      · exact yields_pure _
      · exact yields_raise _

theorem resolveFailure_yields {raised : Raised} : Yields (fun e => e) (resolveFailure message raised) := by
  refine (yields_await (.log ..) rfl).andThen fun _ => ?_
  split
  · exact yields_raise _
  · split
    · exact yields_raise _
    · refine (reload_yields _).andThen fun latest => ?_
      split
      · exact cancelLatest_yields.andThen fun cancelled => yields_pure _
      · split
        · exact yields_pure _
        · exact fail_yields.andThen fun failed => yields_pure _

theorem process_ends :
    (process settings turns message).Meets ghost contract (fun _ _ => True) (fun _ _ => True) false := by
  unfold process
  split
  · refine ((yields_await (.log ..) rfl).andThen fun _ => yields_pure _).mono ?_ ?_ <;> exact fun _ _ _ => trivial
  · refine processBody_yields.attempted (fun reply => trivial) (fun raised up => ?_) fun raised failed down => ?_
    · dsimp only
      split
      · exact resolveConflict_yields.mono (fun _ _ _ => trivial) fun _ _ _ => trivial
      · exact resolveFailure_yields.mono (fun _ _ _ => trivial) fun _ _ _ => trivial
    · -- Nothing is saved any more: the failure is logged and raised again.
      dsimp only
      rw [down, if_neg (by decide)]
      refine ⟨nofun, fun r _ => ?_⟩
      cases r with
      | ok _ =>
        rw [down, if_pos rfl]
        trivial
      | error e => trivial

end OCRWorker

namespace OCRApplicationService

open Rollbacks

variable {job : Job} {jobId ownerId : Id} {requestId : String}

theorem database_yields (op : Op) (quiet : op.saved? = none) : Yields (fun e => e) (database op) :=
  (yields_await op quiet).raising rfl

theorem databaseError_of_other {e : Exc} (other : e.isOther = true) : databaseError e = .databaseUnavailable := by
  cases e with
  | other name =>
    have plain : ¬ (Exc.other name).isDependencyError = true := Bool.false_ne_true
    simp only [databaseError, if_neg plain]
  | _ => cases other

/-- A save, and what is returned of it. -/
theorem save_yields {α : Type} (op : Op) (f : op.Val → α) :
    Yields (fun e => e) (database op >>= fun saved => pure (f saved)) := by
  refine Yields.andThen ?_ fun saved => yields_pure _
  refine Prog.meets_mapError.mpr ⟨fun _ => rfl, fun r reliable => ?_⟩
  cases r with
  | ok saved => simp [ghost, Op.rollsBack, unconfirmed]
  | error e =>
    intro failed
    simp only [ghost, Op.rollsBack, unconfirmed, Bool.false_or, Bool.and_eq_true, decide_eq_true_eq] at failed
    rcases reliable failed.1 e rfl with conflict | other
    · exact absurd conflict failed.2
    · exact databaseError_of_other other

theorem ownedJob_yields {site : Site} : Yields (fun e => e) (ownedJob site jobId ownerId) := by
  refine (database_yields (.getJob site jobId) rfl).andThen fun found => ?_
  cases found with
  | none => exact yields_raise _
  | some job =>
    dsimp only
    split
    · exact yields_raise _
    · exact yields_pure _

theorem toJobDto_yields : Yields (fun e => e) (toJobDto job) :=
  (database_yields (.getUpload job.uploadId) rfl).andThen fun _ => yields_pure _

theorem cancelAttempts_yields {left : Nat} : Yields (fun e => e) (cancelAttempts jobId ownerId requestId left) := by
  induction left with
  | zero => exact yields_raise _
  | succ left ih =>
    refine ownedJob_yields.andThen fun job => ?_
    split
    · exact yields_raise _
    · split
      · exact toJobDto_yields
      · have requests : Yields (fun e => e) (requestCancel job requestId) := by
          refine (yields_await .utcNow rfl).andThen fun now => ?_
          refine (yields_ofExcept _).andThen fun requested => ?_
          exact (yields_await .utcNow rfl).andThen fun now => save_yields _ _
        refine requests.attempted (fun saved => toJobDto_yields) (fun e up => ?_) fun e failed down => ?_
        · split
          · rename_i same
            cases same
          · split
            · exact yields_raise _
            · exact ih
          · exact yields_raise _
          · exact yields_raise _
        · have same : e = .databaseUnavailable := down
          subst same
          exact fun _ => rfl

theorem retryAttempts_yields {attempted left : Nat} :
    Yields (fun e => e) (retryAttempts jobId ownerId requestId attempted left) := by
  induction left generalizing attempted with
  | zero => exact yields_raise _
  | succ left ih =>
    refine ownedJob_yields.andThen fun job => ?_
    refine (yields_await .utcNow rfl).andThen fun now => ?_
    split
    · split
      · exact toJobDto_yields
      · exact yields_raise _
    · rename_i retried _
      have saves : Yields (fun e => e) (saveRetry retried requestId) := by
        refine (yields_await .uuid7 rfl).andThen fun outboxId => ?_
        exact (yields_await .utcNow rfl).andThen fun now => save_yields _ _
      refine saves.attempted (fun saved => toJobDto_yields) (fun e up => ?_) fun e failed down => ?_
      · split
        · rename_i same
          cases same
        · split
          · exact yields_raise _
          · exact ih
        · exact yields_raise _
      · have same : e = .databaseUnavailable := down
        subst same
        exact fun _ => rfl

theorem findByIdempotencyKey_yields {key : String} : Yields (fun e => e) (findByIdempotencyKey ownerId key) := by
  refine (database_yields (.findIdByIdempotencyKey ownerId key) rfl).andThen fun id => ?_
  cases id with
  | none => exact yields_pure _
  | some id => exact database_yields (.getJob .api id) rfl

theorem replayed_yields {existing : Job} {upload : Upload} {request : CreateJobRequest} :
    Yields (fun e => e) (replayed existing upload request) := by
  unfold replayed
  split
  · exact yields_raise _
  · exact toJobDto_yields

theorem insertJob_yields {request : CreateJobRequest} {upload : Upload} {key : Option String} :
    Yields (fun e => e) (insertJob request upload ownerId requestId key) := by
  refine (yields_await .uuid7 rfl).andThen fun id => ?_
  refine (yields_await .utcNow rfl).andThen fun now => ?_
  refine (yields_await .uuid7 rfl).andThen fun outboxId => ?_
  refine (yields_await .utcNow rfl).andThen fun later => ?_
  refine (database_yields (.addWithOutboxAndEvent ..) rfl).attempted (fun event => toJobDto_yields) (fun e up => ?_)
    fun e failed down => ?_
  · split
    · rename_i same
      cases same
    · split
      · exact yields_raise _
      · refine findByIdempotencyKey_yields.andThen fun existing => ?_
        cases existing with
        | none => exact yields_raise _
        | some existing => exact replayed_yields
    · exact yields_raise _
  · have same : e = .databaseUnavailable := down
    subst same
    exact fun _ => rfl

theorem createJob_yields {request : CreateJobRequest} {key : Option String} :
    Yields (fun e => e) (createJob request ownerId requestId key) := by
  have owned : Yields (fun e => e) (ownedUpload request.uploadId ownerId) := by
    refine (database_yields (.getUpload _) rfl).andThen fun upload => ?_
    cases upload with
    | none => exact yields_raise _
    | some upload =>
      dsimp only
      split
      · exact yields_raise _
      · exact yields_pure _
  refine owned.andThen fun upload => ?_
  split
  · exact yields_raise _
  · split
    · exact insertJob_yields
    · refine findByIdempotencyKey_yields.andThen fun existing => ?_
      cases existing with
      | none => exact insertJob_yields
      | some existing => exact replayed_yields

end OCRApplicationService
end MonkeyOcr
