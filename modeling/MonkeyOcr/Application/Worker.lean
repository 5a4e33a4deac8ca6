import MonkeyOcr.Codec.Repr
import MonkeyOcr.Infrastructure.Execution

namespace MonkeyOcr

open Calls
open Codec (Json)

/-- How a part of `process` that may `return` from the middle ends. -/
inductive Flow
  | returned (reply : Job)
  | goesOn (job : Job)

/-- An exception together with the `job` its frame holds, if it is bound. -/
structure Raised where
  error : Exc
  job : Option Job

/-- An exception inside the `try` of `_process_page`, with the `page` of the
frame, and whether it still is the page of `job` and not of `latest`. -/
structure PageRaised where
  error : Exc
  page : Page
  ofJob : Bool

structure PageResult where
  markdown : String
  structured : List (String × Json)
  engineMetadata : Json

namespace OCRWorker

def database (op : Op) : Program op.Val := (await op).mapError databaseError

def storage (op : Op) : Program op.Val := (await op).mapError storageError

def snake (name : List Char) : List Char :=
  name.zipIdx.flatMap fun (char, index) =>
    if char.isUpper ∧ index ≠ 0 then ['_', char.toLower] else [char.toLower]

def removeSuffix (suffix chars : List Char) : List Char :=
  if suffix.isSuffixOf chars then chars.take (chars.length - suffix.length) else chars

/-- `_reason` -/
def reason (e : Exc) : String :=
  if e.isDependencyError then e.errorReason
  else String.ofList (removeSuffix "_error".toList (snake e.className.toList))

/-- `_internal_code` -/
def internalCode (e : Exc) : InternalStatusCode :=
  if e.isDependencyError then e.internalCode else .jobProcessingFailed

/-- `_metadata_text` -/
def metadataText (value : Option Json) (maxLength : Nat) : Option String :=
  match value with
  | none | some .null => none
  | some value =>
    let normalized := Codec.strip value.pyStr
    if normalized = "" then none else some (String.ofList (normalized.toList.take maxLength))

/-- `_job_event` -/
def jobEvent (job : Job) (eventType : EventType) (data : List (String × Json)) (now : Time) :
    JobEvent where
  jobId := job.id
  eventType
  state := job.state
  progress := job.progress
  requestId := job.requestId
  attempt := job.attempt
  data
  occurredAt := now

/-- `_save_and_emit`; the job is returned with its new revision. -/
def saveAndEmit (job : Job) (eventType : EventType) (data : List (String × Json) := []) :
    Program Job := do
  let now ← await .utcNow
  let saved ← database (.saveWithEvent job (jobEvent job eventType data now))
  return { job with revision := saved.1 }

/-- `latest.cancel()` and its save, written out at every cancel check. -/
def cancelLatest (latest : Job) : Program Job := do
  let now ← await .utcNow
  let latest ← Prog.ofExcept (latest.cancel now)
  saveAndEmit latest .jobCancelled

/-- `await self._database(self.jobs.get(job.id)) or job` -/
def reload (site : Site) (job : Job) : Program Job := do
  let latest ← database (.getJob site job.id)
  return latest.getD job

/-- `_cancel_if_requested` -/
def cancelIfRequested (job : Job) : Program (Option Job) := do
  let latest ← database (.getJob .cancelCheck job.id)
  match latest with
  | some latest =>
    if latest.state = .cancelRequested then
      let latest ← cancelLatest latest
      return some latest
    else return none
  | none => return none

/-- `_fail` -/
def fail (job : Job) (reason : String)
    (internalCode : InternalStatusCode := .jobProcessingFailed) : Program Job := do
  let now ← await .utcNow
  if job.state = .cancelRequested then
    let job ← Prog.ofExcept (job.cancel now)
    saveAndEmit job .jobCancelled [("internal_code", .nat 0), ("error_reason", .str reason)]
  else
    let job ← Prog.ofExcept (job.fail reason internalCode.value now)
    saveAndEmit job .jobFailed
      [("internal_code", .nat internalCode.value), ("error_reason", .str reason)]

/-- `_repair_terminal_event`, with the `_emit` it ends in. -/
def repairTerminalEvent (job : Job) : Program JobEvent := do
  let now ← await .utcNow
  match job.state with
  | .cancelled => database (.appendEvent (jobEvent job .jobCancelled [] now))
  | .failed => database (.appendEvent (jobEvent job .jobFailed
      [("internal_code", .nat job.internalCode), ("error_reason", .str
        (match job.errorReason with
        | some reason => if reason = "" then "job_processing_failed" else reason
        | none => "job_processing_failed"))] now))
  | .succeeded => database (.appendEvent (jobEvent job .jobSucceeded
      [("artifact_count", .nat job.artifacts.length)] now))
  | _ => .raise (.other "KeyError")

/-! ### Assembling the documents -/

def loadsJson : Content → Except Exc Json
  | .json value => .ok value
  | _ => .error (.other "JSONDecodeError")

/-- What `_load_page_result` takes from the stored result of a page. -/
def pageResult? (payload : Json) : Option PageResult :=
  match payload with
  | .obj members =>
    match Json.get? members "markdown", Json.get? members "structured" with
    | some (.str markdown), some (.obj structured) =>
      let metadata := (Json.get? members "engine_metadata").getD .null
      some ⟨markdown, structured, if metadata.truthy then metadata else .obj []⟩
    | _, _ => none
  | _ => none

/-- The end of `_load_page_result`, without a usable stored result. -/
def pageTexts (page : Page) : Program PageResult :=
  match page.markdown, page.structured with
  | some markdown, some structured =>
    pure ⟨markdown, structured, (Json.get? structured "engine_metadata").getD (.obj [])⟩
  | _, _ => .raise (.runtimeError s!"page {page.pageNumber} checkpoint is missing")

/-- `_load_page_result` -/
def loadPageResult (page : Page) : Program PageResult :=
  match page.resultObjectKey with
  | some key => do
    let data ← storage (.getBytes key)
    let payload ← Prog.ofExcept (loadsJson data)
    match pageResult? payload with
    | some result => return result
    | none => pageTexts page
  | none => pageTexts page

def loadPageResults : List Page → Program (List PageResult)
  | [] => return []
  | page :: rest => do
    let result ← loadPageResult page
    let results ← loadPageResults rest
    return result :: results

/-- `_artifact` -/
def artifact (kind : ArtifactKind) (stored : StoredObject) : Artifact where
  kind
  objectKey := stored.objectKey
  sha256 := stored.sha256
  sizeBytes := stored.sizeBytes
  contentType := stored.contentType

/-- The artifact of an object that is already stored, if it is there: the same
lines for the image and for the visualization of a page. -/
def storedArtifact (kind : ArtifactKind) (key : ObjectKey) (pageNumber : Nat) :
    Program (List Artifact) := do
  let info ← storage (.stat key)
  match info with
  | none => return []
  | some info =>
    match info.sha256.filter (· ≠ "") with
    | some sha256 =>
      return [⟨kind, info.objectKey, sha256, info.sizeBytes, info.contentType, some pageNumber⟩]
    | none => do
      let data ← storage (.getBytes key)
      return [⟨kind, info.objectKey, data.sha256, info.sizeBytes, info.contentType, some pageNumber⟩]

def visualizationArtifact (page : Page) : Program (List Artifact) :=
  match page.visualizationObjectKey with
  | some key => storedArtifact .visualization key page.pageNumber
  | none => return []

def pageArtifacts : List Page → Program (List Artifact)
  | [] => return []
  | page :: rest => do
    let image ← storedArtifact .pageImage page.inputObjectKey page.pageNumber
    let visualization ← visualizationArtifact page
    let artifacts ← pageArtifacts rest
    return image ++ visualization ++ artifacts

def documentMarkdown (results : List PageResult) : Content :=
  .text ("\n\n".intercalate (results.map PageResult.markdown))

def documentJson (job : Job) (results : List PageResult) : Content :=
  .json (.obj [("job_id", .str (textOf job.id)), ("attempt", .nat job.attempt), ("pages", .arr
    ((job.pages.zip results).map fun (page, result) =>
      .obj [("page_number", .nat page.pageNumber), ("markdown", .str result.markdown),
        ("blocks", .obj result.structured)]))])

def manifest (job : Job) (upload : Upload) (results : List PageResult) (artifacts : List Artifact)
    (now : Time) : Content :=
  .json (.obj [("schema_version", .nat 1), ("job_id", .str (textOf job.id)),
    ("upload_id", .str (textOf job.uploadId)), ("attempt", .nat job.attempt),
    ("page_count", .nat job.totalPages), ("generated_at", .str (toString now)),
    ("input", .obj [("sha256", .str upload.sha256), ("size_bytes", .nat upload.sizeBytes),
      ("content_type", .str (upload.detectedContentType.getD upload.contentType))]),
    ("engines", .arr (results.map PageResult.engineMetadata)),
    ("artifacts", .arr (artifacts.map fun artifact =>
      .obj [("kind", .str artifact.kind.text), ("object_key", .str artifact.objectKey.text),
        ("sha256", .str artifact.sha256), ("size_bytes", .nat artifact.sizeBytes),
        ("content_type", .str artifact.contentType),
        ("page_number", Json.ofOption Json.nat artifact.pageNumber)]))])

/-- `_assemble` -/
def assemble (job : Job) (upload : Upload) : Program (List Artifact) := do
  let results ← loadPageResults job.pages
  let markdownObject ← storage (.putBytes (.document job.id job.attempt .markdown)
    (documentMarkdown results) "text/markdown; charset=utf-8")
  let jsonObject ← storage (.putBytes (.document job.id job.attempt .json)
    (documentJson job results) "application/json")
  let pages ← pageArtifacts job.pages
  let artifacts := artifact .markdown markdownObject :: artifact .json jsonObject :: pages
  let now ← await .utcNow
  let manifestObject ← storage (.putBytes (.document job.id job.attempt .manifest)
    (manifest job upload results artifacts now) "application/json")
  return artifacts ++ [artifact .manifest manifestObject]

/-! ### One page -/

/-- `job.pages[page_index]` -/
def pageAt (job : Job) (index : Nat) : Program Page :=
  match job.pages[index]? with
  | some page => pure page
  | none => .raise (.other "IndexError")

def zeroPadded (width n : Nat) : String :=
  let digits := (toString n).toList
  String.ofList (List.replicate (width - digits.length) '0' ++ digits)

def visualizationExtension (contentType : String) : String :=
  if contentType = "image/jpeg" then "jpg"
  else if contentType = "image/png" then "png"
  else if contentType = "image/webp" then "webp"
  else "bin"

def visualizationKey (job : Job) (page : Page) (result : OCRResult) : ObjectKey :=
  .page job.id job.attempt
    s!"{zeroPadded 6 page.pageNumber}.visualization.{visualizationExtension result.visualizationContentType}"

def resultKey (job : Job) (page : Page) : ObjectKey :=
  .page job.id job.attempt s!"{zeroPadded 6 page.pageNumber}.json"

def resultPayload (page : Page) (result : OCRResult) : Content :=
  .json (.obj [("schema_version", .nat 1), ("page_number", .nat page.pageNumber),
    ("markdown", .str result.markdown), ("structured", .obj result.structured),
    ("engine_metadata", .obj result.engineMetadata)])

/-- The visualization of a result, put before the result itself. -/
def putVisualization (job : Job) (page : Page) (result : OCRResult) : Program (Option ObjectKey) :=
  match result.visualization with
  | none => return none
  | some bytes => do
    let _ ← storage (.putBytes (visualizationKey job page result) (.raw bytes)
      result.visualizationContentType)
    return some (visualizationKey job page result)

def withEngine (job : Job) (result : OCRResult) : Job :=
  { job with
    engineName := metadataText (Json.get? result.engineMetadata "engine") 80
    engineVersion := metadataText (Json.get? result.engineMetadata "version") 80
    modelName := metadataText (Json.get? result.engineMetadata "model") 160 }

/-- The checkpoint of a recognized page: its objects under the keys of `job`,
its row from `latest`. -/
def checkpoint (job latest : Job) (index : Nat) (page : Page) (result : OCRResult) : Program Job := do
  let latest := withEngine latest result
  let visualizationKey ← putVisualization job page result
  let stored ← storage (.putBytes (resultKey job page) (resultPayload page result) "application/json")
  let page := page.succeed result.markdown
    (Json.set result.structured "engine_metadata" (.obj result.engineMetadata))
    stored.objectKey stored.sha256 visualizationKey
  let latest := latest.setPage index page
  let latest ← saveAndEmit latest .pageSucceeded
    [("page_number", .nat page.pageNumber), ("completed_pages", .nat latest.completedPages),
      ("total_pages", .nat latest.totalPages)]
  if latest.state = .cancelRequested then cancelLatest latest else return latest

/-- The body of the `try` in `_process_page`. -/
def recognizePage (image : Content) (index : Nat) (job : Job) (page : Page) :
    Prog Sig PageRaised Job := do
  let result ← (await (.recognize image page.pageNumber job.options job.requestId)).mapError
    (⟨·, page, true⟩)
  let latest ← (reload (.recognized index) job).mapError (⟨·, page, true⟩)
  if latest.state = .cancelRequested then (cancelLatest latest).mapError (⟨·, page, true⟩)
  else
    let latestPage ← (pageAt latest index).mapError (⟨·, page, true⟩)
    (checkpoint job latest index latestPage result).mapError (⟨·, latestPage, false⟩)

/-- What follows the loop of `_process_page`. -/
def failPage (job : Job) (index : Nat) (lastError : Option Exc) : Program Job := do
  let latest ← reload (.exhausted index) job
  let page ← pageAt latest index
  let reason :=
    match lastError with
    | some e => reason e
    | none => (page.errorReason.filter (· ≠ "")).getD "engine_retry_budget_exhausted"
  let internalCode := internalCode (lastError.getD (.runtimeError "engine retry budget exhausted"))
  let page := page.fail reason internalCode.value
  let latest ← saveAndEmit (latest.setPage index page) .pageFailed
    [("page_number", .nat page.pageNumber), ("internal_code", .nat internalCode.value),
      ("error_reason", .str reason)]
  logError "ocr_job_failed"
    [("job_id", .str (textOf latest.id)), ("attempt", .nat latest.attempt),
      ("request_id", .str latest.requestId), ("page_number", .nat page.pageNumber),
      ("internal_code", .nat internalCode.value), ("internal_status_name", .str internalCode.name),
      ("error_reason", .str reason),
      ("error_type", .str (lastError.elim "RuntimeError" Exc.className))]
  fail latest reason internalCode

/-- `retry_base_seconds * 2 ** (processing_attempts - 1)` -/
def backoff (settings : Settings) (page : Page) : Rat :=
  settings.retryBaseSeconds * 2 ^ page.processingAttempts / 2

/-- The loop of `_process_page`, with the number of turns it may still take. -/
def pageTurns (settings : Settings) (image : Content) (index : Nat) :
    Nat → Job → Option Exc → Program Job
  | 0, _, _ => .halt
  | turns + 1, job, lastError => do
    let latest ← reload (.pageTurn index) job
    if latest.state = .cancelRequested then cancelLatest latest
    else
      let job := latest
      let page ← pageAt job index
      if settings.maxPageRetries + 1 ≤ page.processingAttempts then failPage job index lastError
      else
        let page := page.start
        let job ← saveAndEmit (job.setPage index page) .pageRunning
          [("page_number", .nat page.pageNumber), ("processing_attempt", .nat page.processingAttempts)]
        let outcome ← (recognizePage image index job page).attempt
        match outcome with
        | .ok reply => return reply
        | .error raised =>
          let e := raised.error
          if e = .concurrentJobUpdate ∨ e = .databaseUnavailable then .raise e
          else
            let page := { raised.page with
              internalCode := (internalCode e).value, errorReason := some (reason e) }
            if !e.isTransientEngineError || settings.maxPageRetries + 1 ≤ page.processingAttempts then
              failPage job index (some e)
            else
              let job := if raised.ofJob then job.setPage index page else job
              let job ← saveAndEmit job .pageRetryScheduled
                [("page_number", .nat page.pageNumber),
                  ("processing_attempt", .nat page.processingAttempts),
                  ("retry_number", .nat page.processingAttempts),
                  ("internal_code", .nat (internalCode e).value), ("error_reason", .str (reason e))]
              await (.sleep (backoff settings page))
              pageTurns settings image index turns job (some e)

/-- `_process_page` -/
def processPage (settings : Settings) (turns : Nat) (job : Job) (index : Nat) (page : Page) :
    Program Job := do
  let image ← storage (.getBytes page.inputObjectKey)
  pageTurns settings image index turns job none

/-! ### One message -/

/-- A part of `process` during which `job` is the job of its frame. -/
def withJob {α : Type} (job : Job) (p : Program α) : Prog Sig Raised α := p.mapError (⟨·, some job⟩)

def startPreprocessing (job : Job) : Program Job :=
  if job.state = .queued ∨ job.state = .retrying then do
    let now ← await .utcNow
    let job ← Prog.ofExcept (job.beginPreprocessing now)
    saveAndEmit job .jobPreprocessing
  else pure job

def preparePages (job : Job) (upload : Upload) : Program Job :=
  if job.pages.isEmpty then
    if job.state ≠ .preprocessing then .raise (.runtimeError "job checkpoint has no prepared pages")
    else do
      let prepared ← await (.prepare upload job)
      let ordered := prepared.insertionSort fun a b => a.pageNumber ≤ b.pageNumber
      let now ← await .utcNow
      let job ← Prog.ofExcept (job.setPages
        (ordered.map fun page => { pageNumber := page.pageNumber, inputObjectKey := page.objectKey }) now)
      saveAndEmit job .jobPagesPrepared [("total_pages", .nat job.totalPages)]
  else pure job

/-- The end of a recovered and of a fresh assembly alike. -/
def finish (job : Job) (upload : Upload) : Prog Sig Raised Flow := do
  let artifacts ← withJob job (assemble job upload)
  let refreshed ← withJob job (cancelIfRequested job)
  match refreshed with
  | some refreshed => return .returned refreshed
  | none =>
    let job ← withJob job (reload .beforeSuccess job)
    let now ← withJob job (await .utcNow)
    let job ← withJob job (Prog.ofExcept (job.succeed artifacts now))
    let job ← withJob job (saveAndEmit job .jobSucceeded [("artifact_count", .nat artifacts.length)])
    return .goesOn job

/-- The loop over the pages the job had when it began. -/
def pageLoop (settings : Settings) (turns : Nat) : List (Page × Nat) → Job → Prog Sig Raised Flow
  | [], job => return .goesOn job
  | (page, index) :: rest, job =>
    if page.state = .succeeded then pageLoop settings turns rest job
    else do
      let refreshed ← withJob job (cancelIfRequested job)
      match refreshed with
      | some refreshed => return .returned refreshed
      | none =>
        let job ← withJob job (reload .pageLoop job)
        let page ← withJob job (pageAt job index)
        let completed ← withJob job (processPage settings turns job index page)
        if completed.state = .failed ∨ completed.state = .cancelled then return .returned completed
        else pageLoop settings turns rest completed

def recognizePages (settings : Settings) (turns : Nat) (job : Job) (upload : Upload) :
    Prog Sig Raised (Option Job) := do
  let flow ← pageLoop settings turns job.pages.zipIdx job
  match flow with
  | .returned reply => return some reply
  | .goesOn job =>
    let now ← withJob job (await .utcNow)
    let job ← withJob job (Prog.ofExcept (job.beginAssembling now))
    let job ← withJob job (saveAndEmit job .jobAssembling)
    let flow ← finish job upload
    match flow with
    | .returned reply => return some reply
    | .goesOn job =>
      withJob job (logInfo "ocr_job_succeeded"
        [("job_id", .str (textOf job.id)), ("attempt", .nat job.attempt),
          ("request_id", .str job.requestId), ("total_pages", .nat job.totalPages)])
      return some job

/-- From where the pages are prepared to the end of the `try`. -/
def advance (settings : Settings) (turns : Nat) (job : Job) (upload : Upload) :
    Prog Sig Raised (Option Job) :=
  if job.state = .preprocessing then do
    let now ← withJob job (await .utcNow)
    let job ← withJob job (Prog.ofExcept (job.beginRunning now))
    let job ← withJob job (saveAndEmit job .jobRunning)
    recognizePages settings turns job upload
  else if job.state = .assembling then do
    let flow ← finish job upload
    match flow with
    | .returned reply => return some reply
    | .goesOn job => return some job
  else if job.state ≠ .running then
    withJob job (.raise (.runtimeError s!"cannot recover job from {job.state.text}"))
  else recognizePages settings turns job upload

/-- A job of the message's attempt that is not terminal. -/
def run (settings : Settings) (turns : Nat) (job : Job) : Prog Sig Raised (Option Job) := do
  let upload ← withJob job (database (.getUpload job.uploadId))
  match upload with
  | none =>
    let failed ← withJob job (fail job "upload_not_found")
    return some failed
  | some upload =>
    let job ← withJob job (startPreprocessing job)
    let job ← withJob job (preparePages job upload)
    let refreshed ← withJob job (cancelIfRequested job)
    match refreshed with
    | some refreshed => return some refreshed
    | none => advance settings turns job upload

/-- The body of the `try` in `process`. -/
def processBody (settings : Settings) (turns : Nat) (message : JobWorkMessage) :
    Prog Sig Raised (Option Job) := do
  let job ← (database (.getJob .entry message.jobId)).mapError (⟨·, none⟩)
  match job with
  | none =>
    (logError "ocr_job_missing" [("job_id", .str (textOf message.jobId)),
      ("request_id", .str message.requestId)]).mapError (⟨·, none⟩)
    return none
  | some job =>
    if job.attempt ≠ message.attempt then return some job
    else if job.terminal then
      let _ ← withJob job (repairTerminalEvent job)
      return some job
    else run settings turns job

/-- `except ConcurrentJobUpdateError` -/
def resolveConflict (message : JobWorkMessage) : Program (Option Job) := do
  let latest ← database (.getJob .conflict message.jobId)
  match latest with
  | none => return none
  | some latest =>
    if latest.state = .cancelRequested then
      let latest ← cancelLatest latest
      return some latest
    else if latest.terminal || latest.attempt ≠ message.attempt then return some latest
    else .raise .databaseUnavailable

/-- `except Exception` -/
def resolveFailure (message : JobWorkMessage) (raised : Raised) : Program (Option Job) := do
  let e := raised.error
  logError "ocr_job_failed"
    [("job_id", .str (textOf message.jobId)), ("attempt", .nat message.attempt),
      ("request_id", .str message.requestId), ("internal_code", .nat (internalCode e).value),
      ("internal_status_name", .str (internalCode e).name), ("error_reason", .str (reason e)),
      ("error_type", .str e.className)]
  if e = .databaseUnavailable then .raise e
  else
    match raised.job with
    | none => .raise (.other "UnboundLocalError")
    | some job =>
      let latest ← reload .failure job
      if latest.state = .cancelRequested then
        let latest ← cancelLatest latest
        return some latest
      else if latest.terminal then return some latest
      else
        let failed ← fail latest (reason e) (internalCode e)
        return some failed

/-- `OCRWorker.process` -/
def process (settings : Settings) (turns : Nat) (message : JobWorkMessage) : Program (Option Job) :=
  if message.schemaVersion ≠ 1 then do
    logError "ocr_job_schema_unsupported"
      [("job_id", .str (textOf message.jobId)), ("schema_version", .nat message.schemaVersion),
        ("request_id", .str message.requestId)]
    return none
  else do
    let outcome ← (processBody settings turns message).attempt
    match outcome with
    | .ok reply => return reply
    | .error raised =>
      if raised.error = .concurrentJobUpdate then resolveConflict message
      else resolveFailure message raised

end OCRWorker
end MonkeyOcr
