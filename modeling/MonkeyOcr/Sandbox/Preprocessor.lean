import MonkeyOcr.Application.Ports
import MonkeyOcr.Sandbox.Daemon

namespace MonkeyOcr

namespace Sandbox

open Calls Codec

/-- `DirectorySandboxPreprocessor`. -/
structure Preprocessor where
  timeout : Nat := 300
  maxPages : Int := 500
  maxPixels : Int := 100000000
  dpi : Int := 180

namespace Preprocessor

/-- The request for the daemon. -/
def request (settings : Preprocessor) (upload : Upload) (job : Job) : Json :=
  .obj [("input", .str "input"), ("sha256", .str upload.sha256), ("max_pages", .int settings.maxPages),
    ("max_pixels", .int settings.maxPixels), ("dpi", .int settings.dpi), ("request_id", .str job.requestId)]

/-- Wait for a file to be there. -/
def awaitFile (path : Path) (deadline : Nat) : Nat → Program Unit
  | 0 => .halt
  | turns + 1 => do
    if ← await (.exists_ path) then return ()
    else
      let now ← await .loopTime
      if deadline ≤ now then .raise (.preprocessing "sandbox preprocessor timed out")
      else
        await .sleep
        awaitFile path deadline turns

/-- An `OSError`, or a `JSONDecodeError`. -/
def noManifest : Raised → Bool
  | .fileNotFound _ => true
  | .exception className _ =>
    className ∈ ["FileExistsError", "NotADirectoryError", "IsADirectoryError", "OSError", "JSONDecodeError"]
  | _ => false

def readJson (path : Path) : Program Json := do
  let text ← readText path
  match Json.loads text with
  | some value => return value
  | none => .raise (.exception "JSONDecodeError" (PyStr.ofString "Expecting value: line 1 column 1 (char 0)"))

/-- `f"{number:06d}"`. -/
def sixDigits (number : Nat) : String :=
  let digits := toString number
  String.ofList (List.replicate (6 - digits.length) '0') ++ digits

/-- The file of a page becomes an object. -/
def storePage (pagePath : Path) (job : Job) (number : Nat) : Program PreparedPage := do
  let handle ← await (.openRead pagePath)
  let data ← await (.readAll handle)
  if data = [] then .raise (.preprocessing "sandbox produced an empty page")
  else
    let objectKey := ObjectKey.page job.id job.attempt (sixDigits number ++ ".png")
    await (.putBytes objectKey data)
    return ⟨number, objectKey⟩

/-- One turn of the loop of `_upload_pages`. -/
def uploadPage (outputDir : Path) (job : Job) (number : Nat) (descriptor : Json) : Program PreparedPage :=
  match descriptor with
  | .obj members => do
    let given ← integer members "page_number" number
    if given ≠ number then .raise (.preprocessing "sandbox pages must be contiguous and one-based")
    else
      match Json.get? members "path" with
      | some (.str relativePath) =>
        match (resolve outputDir relativePath).filter (inParents outputDir) with
        | none => .raise (.preprocessing "sandbox page path escapes output directory")
        | some pagePath => storePage pagePath job number
      | _ => .raise (.preprocessing "sandbox page path is missing")
  | _ => .raise (.preprocessing "sandbox page descriptor is invalid")

def uploadEach (outputDir : Path) (job : Job) (number : Nat) : List Json → Program (List PreparedPage)
  | [] => return []
  | descriptor :: rest => do
    let page ← uploadPage outputDir job number descriptor
    let pages ← uploadEach outputDir job (number + 1) rest
    return page :: pages

/-- `manifest.get("pages") if isinstance(manifest, dict) else None`. -/
def pagesOf : Json → Option Json
  | .obj members => Json.get? members "pages"
  | _ => none

/-- `_upload_pages`. -/
def uploadPages (settings : Preprocessor) (outputDir : Path) (job : Job) : Program (List PreparedPage) := do
  let manifest ← (readJson ("manifest.json" :: outputDir)).catchError fun e =>
    if noManifest e then .raise (.preprocessing "sandbox did not produce a valid manifest") else .raise e
  match pagesOf manifest with
  | some (.arr descriptors) =>
    if 1 ≤ descriptors.length ∧ descriptors.length ≤ settings.maxPages then uploadEach outputDir job 1 descriptors
    else .raise (.preprocessing "sandbox page count is invalid")
  | _ => .raise (.preprocessing "sandbox page count is invalid")

/-- What the client makes of a response. -/
def acceptResponse (response : Json) : Program Unit :=
  match response with
  | .obj members =>
    if ((Json.get? members "ok").map Json.truthy).getD false then return ()
    else
      let given := (Json.get? members "error_reason").getD .null
      let reason := if given.truthy then given.pyStr else "sandbox_failed"
      .raise (.preprocessing ("sandbox preprocessor rejected input: " ++ String.ofList (reason.toList.take 160)))
  | _ => .raise (.exception "AttributeError" (PyStr.ofString "object has no attribute 'get'"))

/-- The body of the `try` of `prepare`. -/
def exchange (settings : Preprocessor) (turns : Nat) (requestDir : Path) (upload : Upload) (job : Job) :
    Program (List PreparedPage) := do
  await (.mkdir requestDir)
  let source ← await (.getBytes upload.objectKey)
  writeBytes ("input" :: requestDir) source
  let temporary := "request.tmp" :: requestDir
  writeText temporary (some (settings.request upload job).dumps)
  await (.rename temporary ("request.json" :: requestDir))
  let responsePath := "response.json" :: requestDir
  let start ← await .loopTime
  awaitFile responsePath (start + settings.timeout) turns
  let response ← readJson responsePath
  acceptResponse response
  settings.uploadPages ("output" :: requestDir) job

/-- `shutil.rmtree(path, ignore_errors=True)`, of a tree of so many levels. -/
def rmtree : Nat → Path → Program Unit
  | 0, _ => return ()
  | depth + 1, path => do
    match ← (await (.scandir path)).attempt with
    | .error _ => return ()
    | .ok entries =>
      entries.forM fun (name, isDir) => do
        if isDir then rmtree depth (name :: path)
        else
          let _ ← (await (.unlink (name :: path))).attempt
      let _ ← (await (.rmdir path)).attempt

/-- `raise PreprocessingError("sandbox exchange failed") from exc`. -/
def exchangeFailed : Raised → Raised
  | .preprocessing text => .preprocessing text
  | .exit className => .exit className
  | _ => .preprocessing "sandbox exchange failed"

def requestName (job : Job) (hex : String) : String := s!"{job.id}-{job.attempt}-" ++ hex

/-- `prepare`. The directory of a request holds files and directories of files. -/
def prepare (settings : Preprocessor) (turns : Nat) (upload : Upload) (job : Job) : Program (List PreparedPage) := do
  let hex ← await .uuid4
  let requestDir := [requestName job hex]
  let result ← ((settings.exchange turns requestDir upload job).mapError exchangeFailed).attempt
  rmtree 2 requestDir
  .ofExcept result

end Preprocessor

end Sandbox

end MonkeyOcr
