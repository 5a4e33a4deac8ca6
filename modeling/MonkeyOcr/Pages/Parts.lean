import MonkeyOcr.Pages.Turns

namespace MonkeyOcr

open Calls

theorem Turns.Still.plain {op : Op} (still : Turns.Still op) : Turns.Plain op := by
  cases op with
  | getJob site id =>
    cases site with
    | pageTurn => exact still.elim
    | _ => trivial
  | recognize => exact still.elim
  | getMany => exact still.elim
  | _ => trivial

namespace OCRWorker

open Turns (Plain Still)

variable {P : Op → Prop} {α : Type} {job latest : Job} {index : Nat}

theorem await_makes (op : Op) (kind : P op) : (await op).Makes P := ⟨kind, fun _ => trivial⟩

theorem database_makes (op : Op) (kind : P op) : (database op).Makes P := (await_makes op kind).mapError

theorem storage_makes (op : Op) (kind : P op) : (storage op).Makes P := (await_makes op kind).mapError

theorem withJob_makes {p : Program α} (makes : p.Makes P) : (withJob job p).Makes P := makes.mapError

/-! ### The parts of a turn -/

theorem saveAndEmit_still {type : EventType} {data : List (String × Codec.Json)} (other : type ≠ .pageRunning) :
    (saveAndEmit job type data).Makes Still :=
  (await_makes .utcNow trivial).bind fun _ => (database_makes (.saveWithEvent _ _) other).bind fun _ => trivial

theorem cancelLatest_still : (cancelLatest latest).Makes Still :=
  (await_makes .utcNow trivial).bind fun now => by
    cases latest.cancel now with
    | error e => trivial
    | ok cancelled => exact saveAndEmit_still EventType.noConfusion

theorem reload_still (site : Site) (other : Still (.getJob site job.id)) : (reload site job).Makes Still :=
  (database_makes (.getJob site job.id) other).bind fun _ => trivial

theorem pageAt_still : (pageAt job index).Makes Still := by
  unfold pageAt
  split <;> trivial

theorem putVisualization_still {page : Page} {result : OCRResult} : (putVisualization job page result).Makes Still := by
  unfold putVisualization
  split
  · trivial
  · exact (storage_makes (.putBytes ..) trivial).bind fun _ => trivial

theorem checkpoint_still {page : Page} {result : OCRResult} :
    (checkpoint job latest index page result).Makes Still := by
  refine putVisualization_still.bind fun key => (storage_makes (.putBytes ..) trivial).bind fun stored => ?_
  refine (saveAndEmit_still EventType.noConfusion).bind fun saved => ?_
  split
  · exact cancelLatest_still
  · trivial

/-! ### The parts around the loop -/

theorem saveAndEmit_plain {type : EventType} {data : List (String × Codec.Json)} :
    (saveAndEmit job type data).Makes Plain :=
  (await_makes .utcNow trivial).bind fun _ => (database_makes (.saveWithEvent _ _) trivial).bind fun _ => trivial

theorem cancelLatest_plain : (cancelLatest latest).Makes Plain :=
  cancelLatest_still.mono fun _ => Turns.Still.plain

theorem reload_plain (site : Site) (other : Still (.getJob site job.id)) : (reload site job).Makes Plain :=
  (reload_still site other).mono fun _ => Turns.Still.plain

theorem pageAt_plain : (pageAt job index).Makes Plain := pageAt_still.mono fun _ => Turns.Still.plain

theorem cancelIfRequested_plain : (cancelIfRequested job).Makes Plain := by
  refine (database_makes (.getJob _ _) trivial).bind fun latest => ?_
  cases latest with
  | none => trivial
  | some latest =>
    dsimp only
    split
    · exact cancelLatest_plain.bind fun _ => trivial
    · trivial

theorem fail_plain {reason : String} {code : InternalStatusCode} : (fail job reason code).Makes Plain := by
  refine (await_makes .utcNow trivial).bind fun now => ?_
  split
  · cases job.cancel now with
    | error e => trivial
    | ok cancelled => exact saveAndEmit_plain
  · cases job.fail reason code.value now with
    | error e => trivial
    | ok failed => exact saveAndEmit_plain

theorem failPage_plain {lastError : Option Exc} : (failPage job index lastError).Makes Plain := by
  refine (reload_plain (.exhausted index) trivial).bind fun latest => pageAt_plain.bind fun page => ?_
  exact saveAndEmit_plain.bind fun _ => (await_makes (.log ..) trivial).bind fun _ => fail_plain

theorem repairTerminalEvent_plain : (repairTerminalEvent job).Makes Plain := by
  refine (await_makes .utcNow trivial).bind fun now => ?_
  split
  · exact database_makes (.appendEvent _) trivial
  · exact database_makes (.appendEvent _) trivial
  · exact database_makes (.appendEvent _) trivial
  · trivial

theorem pageTexts_plain {page : Page} : (pageTexts page).Makes Plain := by
  unfold pageTexts
  split <;> trivial

theorem loadPageResult_plain {page : Page} : (loadPageResult page).Makes Plain := by
  unfold loadPageResult
  split
  · refine (storage_makes (.getBytes _) trivial).bind fun data => ?_
    cases loadsJson data with
    | error e => trivial
    | ok payload =>
      refine Prog.Makes.bind trivial fun payload => ?_
      split
      · trivial
      · exact pageTexts_plain
  · exact pageTexts_plain

theorem loadPageResults_plain (pages : List Page) : (loadPageResults pages).Makes Plain := by
  induction pages with
  | nil => trivial
  | cons page rest ih => exact loadPageResult_plain.bind fun _ => ih.bind fun _ => trivial

theorem storedArtifact_plain {kind : ArtifactKind} {key : ObjectKey} {pageNumber : Nat} :
    (storedArtifact kind key pageNumber).Makes Plain := by
  refine (storage_makes (.stat _) trivial).bind fun info => ?_
  cases info with
  | none => trivial
  | some info =>
    dsimp only
    split
    · trivial
    · exact (storage_makes (.getBytes _) trivial).bind fun _ => trivial

theorem pageArtifacts_plain (pages : List Page) : (pageArtifacts pages).Makes Plain := by
  induction pages with
  | nil => trivial
  | cons page rest ih =>
    refine storedArtifact_plain.bind fun _ => Prog.Makes.bind ?_ fun _ => ih.bind fun _ => trivial
    unfold visualizationArtifact
    split
    · exact storedArtifact_plain
    · trivial

theorem assemble_plain {upload : Upload} : (assemble job upload).Makes Plain := by
  refine (loadPageResults_plain job.pages).bind fun results => ?_
  refine (storage_makes (.putBytes ..) trivial).bind fun _ => (storage_makes (.putBytes ..) trivial).bind fun _ => ?_
  refine (pageArtifacts_plain job.pages).bind fun _ => (await_makes .utcNow trivial).bind fun _ => ?_
  exact (storage_makes (.putBytes ..) trivial).bind fun _ => trivial

theorem startPreprocessing_plain : (startPreprocessing job).Makes Plain := by
  unfold startPreprocessing
  split
  · refine (await_makes .utcNow trivial).bind fun now => ?_
    cases job.beginPreprocessing now with
    | error e => trivial
    | ok begun => exact saveAndEmit_plain
  · trivial

theorem preparePages_plain {upload : Upload} : (preparePages job upload).Makes Plain := by
  unfold preparePages
  split
  · split
    · trivial
    · refine (await_makes (.prepare ..) trivial).bind fun prepared => (await_makes .utcNow trivial).bind fun now => ?_
      generalize job.setPages _ now = result
      cases result with
      | error e => trivial
      | ok paged => exact saveAndEmit_plain
  · trivial

theorem finish_plain {upload : Upload} : (finish job upload).Makes Plain := by
  refine (withJob_makes assemble_plain).bind fun artifacts => ?_
  refine (withJob_makes cancelIfRequested_plain).bind fun refreshed => ?_
  cases refreshed with
  | some refreshed => trivial
  | none =>
    refine (withJob_makes (reload_plain .beforeSuccess trivial)).bind fun latest => ?_
    refine (withJob_makes (await_makes .utcNow trivial)).bind fun now => ?_
    cases latest.succeed artifacts now with
    | error e => trivial
    | ok done => exact (withJob_makes saveAndEmit_plain).bind fun _ => trivial

theorem resolveConflict_plain {message : JobWorkMessage} : (resolveConflict message).Makes Plain := by
  refine (database_makes (.getJob _ _) trivial).bind fun latest => ?_
  cases latest with
  | none => trivial
  | some latest =>
    dsimp only
    split
    · exact cancelLatest_plain.bind fun _ => trivial
    · split <;> trivial

theorem resolveFailure_plain {message : JobWorkMessage} {raised : Raised} :
    (resolveFailure message raised).Makes Plain := by
  refine (await_makes (.log ..) trivial).bind fun _ => ?_
  split
  · trivial
  · split
    · trivial
    · refine (reload_plain .failure trivial).bind fun latest => ?_
      split
      · exact cancelLatest_plain.bind fun _ => trivial
      · split
        · trivial
        · exact fail_plain.bind fun _ => trivial

end OCRWorker

end MonkeyOcr
