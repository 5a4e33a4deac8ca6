import MonkeyOcr.Lifecycle.Work

namespace MonkeyOcr

open Calls

/-- What a delivery remembers of the objects of its job: the documents it has
put, the objects it has asked the size of, and what it has read of those. -/
structure Hashes where
  puts : List (ObjectKey × Content) := []
  stats : List (ObjectKey × ObjectInfo) := []
  reads : List (ObjectKey × Content) := []

namespace Hashes

def next (m : Hashes) : (op : Op) → Except Exc op.Val → Hashes
  | .putBytes (.document job attempt file) data _, .ok _ =>
    { m with puts := (.document job attempt file, data) :: m.puts }
  | .stat key, .ok (some info) => { m with stats := (key, info) :: m.stats }
  | .getBytes key, .ok data =>
    if m.stats.any fun entry => entry.1 = key then { m with reads := (key, data) :: m.reads } else m
  | _, _ => m

def ghost : Ghost Sig Hashes := ⟨next⟩

/-- The delivery has taken the hash and the size of an artifact from its object. -/
inductive Took (m : Hashes) (artifact : Artifact) : Prop
  | put {data : Content} (put : (artifact.objectKey, data) ∈ m.puts) (sha256 : artifact.sha256 = data.sha256)
      (size : artifact.sizeBytes = data.sizeBytes)
  | recorded {info : ObjectInfo} (seen : (artifact.objectKey, info) ∈ m.stats)
      (sha256 : info.sha256 = some artifact.sha256) (filled : artifact.sha256 ≠ "")
      (size : artifact.sizeBytes = info.sizeBytes)
  | read {info : ObjectInfo} {data : Content} (seen : (artifact.objectKey, info) ∈ m.stats)
      (read : (artifact.objectKey, data) ∈ m.reads) (sha256 : artifact.sha256 = data.sha256)
      (size : artifact.sizeBytes = info.sizeBytes)

/-- The success of a job is saved with artifacts that were all taken from their
objects. -/
def Publishes (m : Hashes) (type : EventType) (job : Job) : Prop :=
  type = .jobSucceeded → job.artifacts ≠ [] ∧ ∀ artifact ∈ job.artifacts, m.Took artifact

/-- The calls of a delivery of a message of the job: it puts objects under the
prefix of the job only. -/
def delivers (id : Id) (m : Hashes) : Op → Prop
  | .putBytes key _ _ => key.job? = some id
  | .prepare _ job => job.id = id
  | .saveWithEvent job event => job.id = id ∧ m.Publishes event.eventType job
  | .getJob .. | .appendEvent _ | .getUpload _ | .getBytes _ | .stat _ | .recognize .. | .utcNow | .sleep _
  | .log .. => True
  | _ => False

def answers : (op : Op) → Except Exc op.Val → Prop
  | .getJob _ id, .ok (some job) => job.id = id
  | .putBytes key data _, .ok stored =>
    stored.objectKey = key ∧ stored.sha256 = data.sha256 ∧ stored.sizeBytes = data.sizeBytes
  | .stat key, .ok (some info) => info.objectKey = key
  | _, _ => True

def delivery (id : Id) : Contract Sig Hashes := ⟨delivers id, fun _ op r => answers op r⟩

/-- A delivery forgets nothing. -/
structure Grows (m m' : Hashes) : Prop where
  puts : m.puts ⊆ m'.puts
  stats : m.stats ⊆ m'.stats
  reads : m.reads ⊆ m'.reads

theorem Grows.refl {m : Hashes} : m.Grows m := ⟨fun _ h => h, fun _ h => h, fun _ h => h⟩

theorem Grows.trans {m m' m'' : Hashes} (first : m.Grows m') (rest : m'.Grows m'') : m.Grows m'' :=
  ⟨fun _ h => rest.puts (first.puts h), fun _ h => rest.stats (first.stats h), fun _ h => rest.reads (first.reads h)⟩

theorem grows_next (m : Hashes) (op : Op) (r : Except Exc op.Val) : m.Grows (m.next op r) := by
  cases op with
  | putBytes key data type =>
    cases key with
    | document =>
      cases r with
      | error e => exact .refl
      | ok => exact ⟨fun _ h => List.mem_cons_of_mem _ h, fun _ h => h, fun _ h => h⟩
    | _ => exact .refl
  | stat key =>
    rcases r with e | _ | info
    · exact .refl
    · exact .refl
    · exact ⟨fun _ h => h, fun _ h => List.mem_cons_of_mem _ h, fun _ h => h⟩
  | getBytes key =>
    cases r with
    | error e => exact .refl
    | ok data =>
      simp only [next]
      split
      · exact ⟨fun _ h => h, fun _ h => h, fun _ h => List.mem_cons_of_mem _ h⟩
      · exact .refl
  | _ => exact .refl

theorem Took.grows {m m' : Hashes} {artifact : Artifact} (took : m.Took artifact) (grows : m.Grows m') :
    m'.Took artifact := by
  cases took with
  | put put sha256 size => exact .put (grows.puts put) sha256 size
  | recorded seen sha256 filled size => exact .recorded (grows.stats seen) sha256 filled size
  | read seen read sha256 size => exact .read (grows.stats seen) (grows.reads read) sha256 size

end Hashes

namespace OCRWorker

open Hashes

variable {id : Id} {m : Hashes} {α β ε : Type} {job : Job}

/-- A part of a delivery. -/
abbrev Delivers (id : Id) (p : Prog Sig ε α) (Q : α → Hashes → Prop) (E : ε → Hashes → Prop) (m : Hashes) : Prop :=
  p.Meets ghost (delivery id) Q E m

/-- A part of a delivery; nothing is promised of how it fails. -/
abbrev Part (id : Id) (p : Program α) (Q : α → Hashes → Prop) (m : Hashes) : Prop :=
  Delivers id p Q (fun _ _ => True) m

theorem Part.andThen {p : Program α} {f : α → Program β} {Q : α → Hashes → Prop} {R : β → Hashes → Prop}
    (first : Part id p Q m) (rest : ∀ a m', m.Grows m' → Q a m' → Part id (f a) R m') :
    Part id (p >>= f) R m := by
  have kept := Prog.Meets.stable (P := fun m' => m.Grows m') first
    (fun m' op r _ grows => grows.trans (grows_next m' op r)) .refl
  refine Prog.Meets.bind (kept.mono (fun _ _ done => done) fun _ _ _ => trivial) ?_
  intro a m' ⟨done, grows⟩
  exact rest a m' grows done

theorem await_delivers (op : Op) (allowed : delivers id m op) :
    Part id (await op) (fun a m' => m' = m.next op (.ok a) ∧ answers op (.ok a)) m :=
  ⟨allowed, fun r reliable => by cases r with
    | ok a => exact ⟨rfl, reliable⟩
    | error e => trivial⟩

theorem database_delivers (op : Op) (allowed : delivers id m op) :
    Part id (database op) (fun a m' => m' = m.next op (.ok a) ∧ answers op (.ok a)) m :=
  Prog.meets_mapError.mpr (await_delivers op allowed)

theorem storage_delivers (op : Op) (allowed : delivers id m op) :
    Part id (storage op) (fun a m' => m' = m.next op (.ok a) ∧ answers op (.ok a)) m :=
  Prog.meets_mapError.mpr (await_delivers op allowed)

theorem ofExcept_delivers {result : Except Exc α} :
    Part id (Prog.ofExcept result) (fun a m' => m' = m ∧ result = .ok a) m := by
  cases result with
  | ok a => exact ⟨rfl, rfl⟩
  | error e => trivial

theorem saveAndEmit_delivers (type : EventType) {data : List (String × Codec.Json)} (own : job.id = id)
    (publishes : m.Publishes type job) : Part id (saveAndEmit job type data) (fun saved _ => saved.id = id) m := by
  refine (await_delivers .utcNow trivial).andThen fun now m₁ _ ⟨same, _⟩ => ?_
  subst same
  refine (database_delivers (.saveWithEvent job _) ⟨own, publishes⟩).andThen fun saved m₂ _ _ => ?_
  exact own

theorem cancelLatest_delivers (own : job.id = id) : Part id (cancelLatest job) (fun saved _ => saved.id = id) m := by
  refine (await_delivers .utcNow trivial).andThen fun now m₁ _ _ => ?_
  refine ofExcept_delivers.andThen fun cancelled m₂ _ ⟨_, done⟩ => ?_
  obtain ⟨-, rfl⟩ := Job.cancel_ok done
  exact saveAndEmit_delivers .jobCancelled own nofun

theorem reload_delivers {site : Site} (own : job.id = id) :
    Part id (reload site job) (fun latest _ => latest.id = id) m := by
  refine (database_delivers (.getJob site job.id) trivial).andThen fun latest m₁ _ ⟨_, reliable⟩ => ?_
  cases latest with
  | none => exact own
  | some latest => exact (show latest.id = job.id from reliable).trans own

theorem cancelIfRequested_delivers (own : job.id = id) :
    Part id (cancelIfRequested job) (fun refreshed _ => ∀ latest, refreshed = some latest → latest.id = id) m := by
  refine (database_delivers (.getJob .cancelCheck job.id) trivial).andThen fun latest m₁ _ ⟨_, reliable⟩ => ?_
  cases latest with
  | none => exact fun latest none => by cases none
  | some latest =>
    have same : latest.id = id := (show latest.id = job.id from reliable).trans own
    dsimp only
    split
    · refine (cancelLatest_delivers same).andThen fun saved m₂ _ is latest found => ?_
      cases found
      exact is
    · exact fun latest none => by cases none

theorem fail_delivers {why : String} {code : InternalStatusCode} (own : job.id = id) :
    Part id (fail job why code) (fun failed _ => failed.id = id) m := by
  refine (await_delivers .utcNow trivial).andThen fun now m₁ _ _ => ?_
  split
  · refine ofExcept_delivers.andThen fun cancelled m₂ _ ⟨_, done⟩ => ?_
    obtain ⟨-, rfl⟩ := Job.cancel_ok done
    exact saveAndEmit_delivers .jobCancelled own nofun
  · refine ofExcept_delivers.andThen fun failed m₂ _ ⟨_, done⟩ => ?_
    obtain ⟨-, rfl⟩ := Job.fail_ok done
    exact saveAndEmit_delivers .jobFailed own nofun

theorem repairTerminalEvent_delivers : Part id (repairTerminalEvent job) (fun _ _ => True) m := by
  refine (await_delivers .utcNow trivial).andThen fun now m₁ _ _ => ?_
  split
  · exact (database_delivers (.appendEvent _) trivial).mono (fun _ _ _ => trivial) fun _ _ _ => trivial
  · exact (database_delivers (.appendEvent _) trivial).mono (fun _ _ _ => trivial) fun _ _ _ => trivial
  · exact (database_delivers (.appendEvent _) trivial).mono (fun _ _ _ => trivial) fun _ _ _ => trivial
  · trivial

/-! ### Assembling the documents -/

theorem pageTexts_delivers {page : Page} : Part id (pageTexts page) (fun _ _ => True) m := by
  unfold pageTexts
  split <;> trivial

theorem loadPageResult_delivers {page : Page} : Part id (loadPageResult page) (fun _ _ => True) m := by
  unfold loadPageResult
  split
  · refine (storage_delivers (.getBytes _) trivial).andThen fun data m₁ _ _ => ?_
    refine ofExcept_delivers.andThen fun payload m₂ _ _ => ?_
    split
    · trivial
    · exact pageTexts_delivers
  · exact pageTexts_delivers

theorem loadPageResults_delivers {pages : List Page} : Part id (loadPageResults pages) (fun _ _ => True) m := by
  induction pages generalizing m with
  | nil => trivial
  | cons page rest ih => exact loadPageResult_delivers.andThen fun _ _ _ _ => ih.andThen fun _ _ _ _ => trivial

/-- The artifact of a stored object tells the hash that is recorded with the
object, or that of its bytes. -/
theorem storedArtifact_delivers {kind : ArtifactKind} {key : ObjectKey} {pageNumber : Nat} :
    Part id (storedArtifact kind key pageNumber) (fun artifacts m' => ∀ artifact ∈ artifacts, m'.Took artifact) m := by
  refine (storage_delivers (.stat key) trivial).andThen fun info m₁ _ ⟨same, reliable⟩ => ?_
  cases info with
  | none => exact fun artifact member => by cases member
  | some info =>
    have named : info.objectKey = key := reliable
    have seen : (key, info) ∈ m₁.stats := same ▸ List.mem_cons_self
    dsimp only
    split
    · rename_i sha256 found
      obtain ⟨recorded, filled⟩ := Option.filter_eq_some_iff.mp found
      intro artifact member
      cases List.mem_singleton.mp member
      exact .recorded (named ▸ seen) recorded (by simpa using filled) rfl
    · refine (storage_delivers (.getBytes key) trivial).andThen fun data m₂ grows ⟨same₂, _⟩ => ?_
      intro artifact member
      cases List.mem_singleton.mp member
      have any : (m₁.stats.any fun entry => decide (entry.1 = key)) = true :=
        List.any_eq_true.mpr ⟨_, seen, decide_eq_true rfl⟩
      have read : (key, data) ∈ m₂.reads := by
        rw [same₂]
        simp only [Hashes.next, any, if_true]
        exact List.mem_cons_self
      exact .read (named ▸ grows.stats seen) (named ▸ read) rfl rfl

theorem pageArtifacts_delivers {pages : List Page} :
    Part id (pageArtifacts pages) (fun artifacts m' => ∀ artifact ∈ artifacts, m'.Took artifact) m := by
  induction pages generalizing m with
  | nil => exact fun artifact member => by cases member
  | cons page rest ih =>
    refine storedArtifact_delivers.andThen fun image m₁ _ tookImage => ?_
    have visualization : Part id (visualizationArtifact page)
        (fun artifacts m' => ∀ artifact ∈ artifacts, m'.Took artifact) m₁ := by
      unfold visualizationArtifact
      split
      · exact storedArtifact_delivers
      · exact fun artifact member => by cases member
    refine visualization.andThen fun visualization m₂ grows₂ tookVisualization => ?_
    refine ih.andThen fun artifacts m₃ grows₃ tookRest => ?_
    intro artifact member
    rcases List.mem_append.mp member with member | member
    · rcases List.mem_append.mp member with member | member
      · exact (tookImage artifact member).grows (grows₂.trans grows₃)
      · exact (tookVisualization artifact member).grows grows₃
    · exact tookRest artifact member

/-- The artifact of a document that was just put. -/
theorem put_took {job : Id} {attempt : Nat} {file : DocumentFile} {data : Content} {type : String}
    {kind : ArtifactKind} {stored : StoredObject} {m' : Hashes}
    (same : m' = m.next (.putBytes (.document job attempt file) data type) (.ok stored))
    (reliable : answers (.putBytes (.document job attempt file) data type) (.ok stored)) :
    m'.Took (artifact kind stored) := by
  obtain ⟨key, sha256, size⟩ := reliable
  have put : (ObjectKey.document job attempt file, data) ∈ m'.puts := same ▸ List.mem_cons_self
  have own : ((artifact kind stored).objectKey, data) ∈ m'.puts := by
    rw [← key] at put
    exact put
  exact .put own sha256 size

theorem assemble_delivers {upload : Upload} (own : job.id = id) :
    Part id (assemble job upload)
      (fun artifacts m' => artifacts ≠ [] ∧ ∀ artifact ∈ artifacts, m'.Took artifact) m := by
  have under : ∀ file, (ObjectKey.document job.id job.attempt file).job? = some id := fun _ => congrArg some own
  refine loadPageResults_delivers.andThen fun results m₁ _ _ => ?_
  refine (storage_delivers (.putBytes (.document job.id job.attempt .markdown) _ _) (under _)).andThen ?_
  intro markdown m₂ _ ⟨same₂, reliable₂⟩
  refine (storage_delivers (.putBytes (.document job.id job.attempt .json) _ _) (under _)).andThen ?_
  intro json m₃ grows₃ ⟨same₃, reliable₃⟩
  refine pageArtifacts_delivers.andThen fun pages m₄ grows₄ tookPages => ?_
  refine (await_delivers .utcNow trivial).andThen fun now m₅ grows₅ _ => ?_
  refine (storage_delivers (.putBytes (.document job.id job.attempt .manifest) _ _) (under _)).andThen ?_
  intro manifest m₆ grows₆ ⟨same₆, reliable₆⟩
  refine ⟨by simp, fun artifact member => ?_⟩
  rcases List.mem_append.mp member with member | member
  · rcases List.mem_cons.mp member with rfl | member
    · exact (put_took same₂ reliable₂).grows (((grows₃.trans grows₄).trans grows₅).trans grows₆)
    · rcases List.mem_cons.mp member with rfl | member
      · exact (put_took same₃ reliable₃).grows ((grows₄.trans grows₅).trans grows₆)
      · exact (tookPages artifact member).grows (grows₅.trans grows₆)
  · cases List.mem_singleton.mp member
    exact put_took same₆ reliable₆

/-! ### One page -/

theorem pageAt_delivers {index : Nat} : Part id (pageAt job index) (fun _ _ => True) m := by
  unfold pageAt
  split <;> trivial

theorem putVisualization_delivers {page : Page} {result : OCRResult} (own : job.id = id) :
    Part id (putVisualization job page result) (fun _ _ => True) m := by
  unfold putVisualization
  split
  · trivial
  · exact (storage_delivers (.putBytes (visualizationKey job page result) _ _) (congrArg some own)).andThen
      fun _ _ _ _ => trivial

theorem checkpoint_delivers {latest : Job} {index : Nat} {page : Page} {result : OCRResult} (own : job.id = id)
    (ownLatest : latest.id = id) :
    Part id (checkpoint job latest index page result) (fun saved _ => saved.id = id) m := by
  refine (putVisualization_delivers own).andThen fun key m₁ _ _ => ?_
  refine (storage_delivers (.putBytes (resultKey job page) _ _) (congrArg some own)).andThen fun stored m₂ _ _ => ?_
  refine (saveAndEmit_delivers .pageSucceeded (by exact ownLatest) nofun).andThen fun saved m₃ _ is => ?_
  split
  · exact cancelLatest_delivers is
  · exact is

/-- A part of a delivery under another class of exceptions. -/
theorem Part.raising {p : Program α} {Q : α → Hashes → Prop} {f : Exc → ε} (part : Part id p Q m) :
    Delivers id (p.mapError f) Q (fun _ _ => True) m :=
  Prog.meets_mapError.mpr part

theorem recognizePage_delivers {image : Content} {index : Nat} {page : Page} (own : job.id = id) :
    Delivers id (recognizePage image index job page) (fun saved _ => saved.id = id) (fun _ _ => True) m := by
  refine Prog.Meets.bind (Part.raising (await_delivers (.recognize ..) trivial)) fun result m₁ _ => ?_
  refine Prog.Meets.bind (Part.raising (reload_delivers own)) fun latest m₂ is => ?_
  split
  · exact Part.raising (cancelLatest_delivers is)
  · refine Prog.Meets.bind (Part.raising pageAt_delivers) fun latestPage m₃ _ => ?_
    exact Part.raising (checkpoint_delivers own is)

theorem failPage_delivers {index : Nat} {lastError : Option Exc} (own : job.id = id) :
    Part id (failPage job index lastError) (fun failed _ => failed.id = id) m := by
  refine (reload_delivers own).andThen fun latest m₁ _ is => ?_
  refine pageAt_delivers.andThen fun page m₂ _ _ => ?_
  refine (saveAndEmit_delivers .pageFailed (by exact is) nofun).andThen fun saved m₃ _ isSaved => ?_
  refine (await_delivers (.log ..) trivial).andThen fun _ m₄ _ _ => ?_
  exact fail_delivers isSaved

theorem pageTurns_delivers {settings : Settings} {image : Content} {index turns : Nat} {lastError : Option Exc}
    (own : job.id = id) :
    Part id (pageTurns settings image index turns job lastError) (fun done _ => done.id = id) m := by
  induction turns generalizing m job lastError with
  | zero => trivial
  | succ turns ih =>
    refine (reload_delivers own).andThen fun latest m₁ _ is => ?_
    split
    · exact cancelLatest_delivers is
    · refine pageAt_delivers.andThen fun page m₂ _ _ => ?_
      split
      · exact failPage_delivers is
      · refine (saveAndEmit_delivers .pageRunning (by exact is) nofun).andThen ?_
        intro saved m₃ _ isSaved
        refine Prog.Meets.bind (Q := fun outcome _ => ∀ reply, outcome = .ok reply → reply.id = id)
          (Prog.meets_attempt.mpr ((recognizePage_delivers isSaved).mono ?_ ?_)) fun outcome m₄ replied => ?_
        · intro reply _ is other same
          cases same
          exact is
        · intro raised _ _ other same
          cases same
        · cases outcome with
          | ok reply => exact replied reply rfl
          | error raised =>
            dsimp only
            split
            · trivial
            · split
              · exact failPage_delivers isSaved
              · refine (saveAndEmit_delivers .pageRetryScheduled ?_ nofun).andThen fun again m₅ _ isAgain => ?_
                · split
                  · exact isSaved
                  · exact isSaved
                · exact (await_delivers (.sleep _) trivial).andThen fun _ _ _ _ => ih isAgain

theorem processPage_delivers {settings : Settings} {index turns : Nat} {page : Page} (own : job.id = id) :
    Part id (processPage settings turns job index page) (fun done _ => done.id = id) m :=
  (storage_delivers (.getBytes _) trivial).andThen fun _ _ _ _ => pageTurns_delivers own

/-! ### One message -/

/-- The job of the frame is the job of the message. -/
abbrev RaisedOwn (id : Id) (raised : Raised) (_ : Hashes) : Prop := ∀ job, raised.job = some job → job.id = id

/-- A part of `process` in a frame with a job. -/
theorem Part.withJob {p : Program α} {Q : α → Hashes → Prop} (own : job.id = id) (part : Part id p Q m) :
    Delivers id (withJob job p) Q (RaisedOwn id) m := by
  refine Prog.meets_mapError.mpr (part.mono (fun _ _ done => done) fun _ _ _ other same => ?_)
  cases same
  exact own

theorem startPreprocessing_delivers (own : job.id = id) :
    Part id (startPreprocessing job) (fun started _ => started.id = id) m := by
  unfold startPreprocessing
  split
  · refine (await_delivers .utcNow trivial).andThen fun now m₁ _ _ => ?_
    refine ofExcept_delivers.andThen fun begun m₂ _ ⟨_, done⟩ => ?_
    have edits : job.Edits none .jobPreprocessing begun := Job.beginPreprocessing_edits done
    exact saveAndEmit_delivers .jobPreprocessing (edits.id.trans own) nofun
  · exact own

theorem preparePages_delivers {upload : Upload} (own : job.id = id) :
    Part id (preparePages job upload) (fun prepared _ => prepared.id = id) m := by
  unfold preparePages
  split
  · split
    · trivial
    · refine (await_delivers (.prepare upload job) own).andThen fun prepared m₁ _ _ => ?_
      refine (await_delivers .utcNow trivial).andThen fun now m₂ _ _ => ?_
      refine ofExcept_delivers.andThen fun paged m₃ _ ⟨_, done⟩ => ?_
      obtain ⟨-, -, rfl⟩ := Job.setPages_ok done
      exact saveAndEmit_delivers .jobPagesPrepared own nofun
  · exact own

/-- How a part of `process` that may return ends. -/
abbrev FlowOwn (id : Id) : Flow → Hashes → Prop
  | .returned _, _ => True
  | .goesOn job, _ => job.id = id

theorem finish_delivers {upload : Upload} (own : job.id = id) :
    Delivers id (finish job upload) (FlowOwn id) (RaisedOwn id) m := by
  refine Prog.Meets.bind (Part.withJob own (assemble_delivers own)) fun artifacts m₁ ⟨filled, took⟩ => ?_
  have kept : ∀ {β : Type} {p : Program β} {Q : β → Hashes → Prop} {m₂ : Hashes}, m₁.Grows m₂ → Part id p Q m₂ →
      Part id p (fun b m₃ => Q b m₃ ∧ m₁.Grows m₃) m₂ := by
    intro β p Q m₂ grows part
    exact (Prog.Meets.stable (P := fun m₃ => m₁.Grows m₃) part
      (fun m₃ op r _ later => later.trans (grows_next m₃ op r)) grows).mono (fun _ _ done => done) fun _ _ _ => trivial
  refine Prog.Meets.bind (Part.withJob own (kept .refl (cancelIfRequested_delivers own))) ?_
  intro refreshed m₂ ⟨_, grows₂⟩
  cases refreshed with
  | some refreshed => trivial
  | none =>
    refine Prog.Meets.bind (Part.withJob own (kept grows₂ (reload_delivers own))) fun latest m₃ ⟨is, grows₃⟩ => ?_
    refine Prog.Meets.bind (Part.withJob is (kept grows₃ (await_delivers .utcNow trivial))) fun now m₄ ⟨_, grows₄⟩ => ?_
    refine Prog.Meets.bind (Part.withJob is (kept grows₄ ofExcept_delivers)) fun done m₅ ⟨⟨_, succeeded⟩, grows₅⟩ => ?_
    obtain ⟨-, -, rfl⟩ := Job.succeed_ok succeeded
    refine Prog.Meets.bind (Part.withJob is (saveAndEmit_delivers .jobSucceeded is ?_)) fun saved m₆ isSaved => isSaved
    exact fun _ => ⟨filled, fun artifact member => (took artifact member).grows grows₅⟩

theorem pageLoop_delivers {settings : Settings} {turns : Nat} {pages : List (Page × Nat)} (own : job.id = id) :
    Delivers id (pageLoop settings turns pages job) (FlowOwn id) (RaisedOwn id) m := by
  induction pages generalizing m job with
  | nil => exact own
  | cons entry rest ih =>
    obtain ⟨page, index⟩ := entry
    unfold pageLoop
    split
    · exact ih own
    · refine Prog.Meets.bind (Part.withJob own (cancelIfRequested_delivers own)) fun refreshed m₁ _ => ?_
      cases refreshed with
      | some refreshed => trivial
      | none =>
        refine Prog.Meets.bind (Part.withJob own (reload_delivers own)) fun latest m₂ is => ?_
        refine Prog.Meets.bind (Part.withJob is pageAt_delivers) fun page m₃ _ => ?_
        refine Prog.Meets.bind (Part.withJob is (processPage_delivers is)) fun completed m₄ isCompleted => ?_
        split
        · trivial
        · exact ih isCompleted

theorem recognizePages_delivers {settings : Settings} {turns : Nat} {upload : Upload} (own : job.id = id) :
    Delivers id (recognizePages settings turns job upload) (fun _ _ => True) (RaisedOwn id) m := by
  refine Prog.Meets.bind (pageLoop_delivers own) fun flow m₁ flows => ?_
  cases flow with
  | returned reply => trivial
  | goesOn job =>
    have is : job.id = id := flows
    refine Prog.Meets.bind (Part.withJob is (await_delivers .utcNow trivial)) fun now m₂ _ => ?_
    refine Prog.Meets.bind (Part.withJob is ofExcept_delivers) fun assembling m₃ ⟨_, done⟩ => ?_
    have edits : job.Edits none .jobAssembling assembling := Job.beginAssembling_edits done
    have same := edits.id.trans is
    refine Prog.Meets.bind (Part.withJob same (saveAndEmit_delivers .jobAssembling same nofun)) ?_
    intro saved m₄ isSaved
    refine Prog.Meets.bind (finish_delivers isSaved) fun flow m₅ flows => ?_
    cases flow with
    | returned reply => trivial
    | goesOn job =>
      exact Prog.Meets.bind (Part.withJob flows (await_delivers (.log ..) trivial)) fun _ _ _ => trivial

theorem advance_delivers {settings : Settings} {turns : Nat} {upload : Upload} (own : job.id = id) :
    Delivers id (advance settings turns job upload) (fun _ _ => True) (RaisedOwn id) m := by
  unfold advance
  split
  · refine Prog.Meets.bind (Part.withJob own (await_delivers .utcNow trivial)) fun now m₁ _ => ?_
    refine Prog.Meets.bind (Part.withJob own ofExcept_delivers) fun running m₂ ⟨_, done⟩ => ?_
    have edits : job.Edits none .jobRunning running := Job.beginRunning_edits done
    have same := edits.id.trans own
    refine Prog.Meets.bind (Part.withJob same (saveAndEmit_delivers .jobRunning same nofun)) fun saved m₃ is => ?_
    exact recognizePages_delivers is
  · split
    · refine Prog.Meets.bind (finish_delivers own) fun flow m₁ _ => ?_
      cases flow <;> trivial
    · split
      · exact Part.withJob own (p := .raise _) trivial
      · exact recognizePages_delivers own

theorem run_delivers {settings : Settings} {turns : Nat} (own : job.id = id) :
    Delivers id (run settings turns job) (fun _ _ => True) (RaisedOwn id) m := by
  refine Prog.Meets.bind (Part.withJob own (database_delivers (.getUpload _) trivial)) fun upload m₁ _ => ?_
  cases upload with
  | none => exact Prog.Meets.bind (Part.withJob own (fail_delivers own)) fun _ _ _ => trivial
  | some upload =>
    refine Prog.Meets.bind (Part.withJob own (startPreprocessing_delivers own)) fun started m₂ isStarted => ?_
    refine Prog.Meets.bind (Part.withJob isStarted (preparePages_delivers isStarted)) fun prepared m₃ is => ?_
    refine Prog.Meets.bind (Part.withJob is (cancelIfRequested_delivers is)) fun refreshed m₄ _ => ?_
    cases refreshed with
    | some refreshed => trivial
    | none => exact advance_delivers is

theorem processBody_delivers {settings : Settings} {turns : Nat} {message : JobWorkMessage} (own : message.jobId = id) :
    Delivers id (processBody settings turns message) (fun _ _ => True) (RaisedOwn id) m := by
  have framed : ∀ {α : Type} {p : Program α} {Q : α → Hashes → Prop} {m : Hashes}, Part id p Q m →
      Delivers id (p.mapError (⟨·, none⟩)) Q (RaisedOwn id) m := by
    intro α p Q m part
    exact Prog.meets_mapError.mpr (part.mono (fun _ _ done => done) fun _ _ _ other none => by cases none)
  refine Prog.Meets.bind (framed (database_delivers (.getJob .entry message.jobId) trivial)) ?_
  intro found m₁ ⟨_, reliable⟩
  cases found with
  | none => exact Prog.Meets.bind (framed (await_delivers (.log ..) trivial)) fun _ _ _ => trivial
  | some job =>
    have is : job.id = id := (show job.id = message.jobId from reliable).trans own
    dsimp only
    split
    · trivial
    · split
      · exact Prog.Meets.bind (Part.withJob is repairTerminalEvent_delivers) fun _ _ _ => trivial
      · exact run_delivers is

theorem resolveConflict_delivers {message : JobWorkMessage} (own : message.jobId = id) :
    Part id (resolveConflict message) (fun _ _ => True) m := by
  refine (database_delivers (.getJob .conflict message.jobId) trivial).andThen fun latest m₁ _ ⟨_, reliable⟩ => ?_
  cases latest with
  | none => trivial
  | some latest =>
    have is : latest.id = id := (show latest.id = message.jobId from reliable).trans own
    dsimp only
    split
    · exact (cancelLatest_delivers is).andThen fun _ _ _ _ => trivial
    · split <;> trivial

theorem resolveFailure_delivers {message : JobWorkMessage} {raised : Raised}
    (own : ∀ job, raised.job = some job → job.id = id) :
    Part id (resolveFailure message raised) (fun _ _ => True) m := by
  refine (await_delivers (.log ..) trivial).andThen fun _ m₁ _ _ => ?_
  split
  · trivial
  · split
    · trivial
    · rename_i job bound
      refine (reload_delivers (own job bound)).andThen fun latest m₂ _ is => ?_
      split
      · exact (cancelLatest_delivers is).andThen fun _ _ _ _ => trivial
      · split
        · trivial
        · exact (fail_delivers is).andThen fun _ _ _ _ => trivial

theorem process_delivers {settings : Settings} {turns : Nat} {message : JobWorkMessage} :
    Part message.jobId (process settings turns message) (fun _ _ => True) m := by
  unfold process
  split
  · exact (await_delivers (.log ..) trivial).andThen fun _ _ _ _ => trivial
  · refine Prog.Meets.bind (Q := fun outcome _ => ∀ raised, outcome = .error raised →
      ∀ job, raised.job = some job → job.id = message.jobId)
      (Prog.meets_attempt.mpr ((processBody_delivers rfl).mono ?_ ?_)) fun outcome m₁ known => ?_
    · intro reply _ _ raised same
      cases same
    · intro raised _ own other same
      cases same
      exact own
    · cases outcome with
      | ok reply => trivial
      | error raised =>
        dsimp only
        split
        · exact resolveConflict_delivers rfl
        · exact resolveFailure_delivers (known raised rfl)

end OCRWorker
end MonkeyOcr
