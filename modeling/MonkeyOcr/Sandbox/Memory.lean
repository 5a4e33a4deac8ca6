import MonkeyOcr.Sandbox.Exchange

namespace MonkeyOcr

namespace Sandbox

open Calls Codec

/-- A call of `validate_and_render` for a request directory. -/
structure Render where
  dir : String
  source : Path
  expectedSha256 : String
  maxPages : Int
  maxPixels : Int
  dpi : Int

/-- What a call remembers: the directory of a client, with the request it has published and
the responses it has read; the directories a daemon has claimed, with the request it reads,
what it has rendered and what it has answered; the files both have open. `raised` tells
whether the `try` of `process_request` has raised. -/
structure Memory where
  stem : String := ""
  dir : Option String := none
  published : Option (List (BitVec 8)) := none
  responses : List (List (BitVec 8)) := []
  claimed : List String := []
  raised : Bool := false
  request : Option Json := none
  renders : List Render := []
  returned : List String := []
  answered : List (String × List (BitVec 8)) := []
  file : Option (Path × Nat × List (BitVec 8)) := none
  reading : Option (Path × Nat) := none

namespace Memory

/-- After a rename. -/
def renamed (m : Memory) : Path → Memory
  | [name, d] =>
    if name = "request.json" then { m with published := m.file.map (·.2.2), file := none }
    else if name = "processing.json" then
      { m with claimed := d :: m.claimed, raised := false, request := none, file := none }
    else { m with answered := (d, (m.file.map (·.2.2)).getD []) :: m.answered, file := none }
  | _ => m

/-- After the content of a file has been read. -/
def hasRead (m : Memory) (data : List (BitVec 8)) : Memory :=
  match m.reading with
  | some ([name, _], _) =>
    if name = "response.json" then { m with responses := data :: m.responses }
    else { m with request := (decode data).bind Json.loads }
  | _ => m

def next (m : Memory) : (op : Op) → Except Raised op.Val → Memory
  | .uuid4, .ok hex => { m with dir := some (m.stem ++ hex) }
  | .openWrite path, .ok handle => { m with file := some (path, handle, []) }
  | .openWrite _, .error _ => { m with raised := true }
  | .write _ data, .ok count => { m with file := m.file.map fun (path, handle, done) => (path, handle, done ++ data.take count) }
  | .rename _ dst, .ok _ => m.renamed dst
  | .rename .., .error _ => { m with raised := true }
  | .openRead path, .ok handle => { m with reading := some (path, handle) }
  | .openRead _, .error _ => { m with raised := true }
  | .readAll _, .ok data => m.hasRead data
  | .render source [_, d] sha256 maxPages maxPixels dpi, .ok _ =>
    { m with renders := ⟨d, source, sha256, maxPages, maxPixels, dpi⟩ :: m.renders }
  | .rendering [_, d], .ok true => { m with returned := d :: m.returned }
  | .rendering _, .error _ => { m with raised := true }
  | _, _ => m

def ghost : Ghost Sig Memory := ⟨next⟩

theorem renamed_dir (m : Memory) (dst : Path) : (m.renamed dst).dir = m.dir := by
  unfold renamed
  split
  · split
    · rfl
    · split <;> rfl
  · rfl

theorem hasRead_eq (m : Memory) (data : List (BitVec 8)) :
    ∃ responses request, m.hasRead data = { m with responses, request } := by
  unfold hasRead
  split
  · split
    · exact ⟨_, m.request, rfl⟩
    · exact ⟨m.responses, _, rfl⟩
  · exact ⟨m.responses, m.request, rfl⟩

theorem next_dir (m : Memory) {op : Op} (r : Except Raised op.Val) (other : op ≠ .uuid4) :
    (m.next op r).dir = m.dir := by
  unfold next
  split
  · exact absurd rfl other
  · rfl
  · rfl
  · rfl
  · exact m.renamed_dir _
  · rfl
  · rfl
  · rfl
  · obtain ⟨responses, request, same⟩ := m.hasRead_eq _
    rw [same]
  all_goals rfl

end Memory

/-- What a request asks for. -/
structure Request where
  sha256 : String
  maxPages : Int
  maxPixels : Int
  dpi : Int
  requestId : String

def Request.members (request : Request) : List (String × Json) :=
  [("input", .str "input"), ("sha256", .str request.sha256), ("max_pages", .int request.maxPages),
    ("max_pixels", .int request.maxPixels), ("dpi", .int request.dpi), ("request_id", .str request.requestId)]

def Request.json (request : Request) : Json := .obj request.members

def Request.bytes (request : Request) : List (BitVec 8) := Bytes.utf8 request.json.dumps

/-- The call that the request makes of `validate_and_render`. -/
def Request.render (request : Request) (d : String) : Render :=
  ⟨d, ["input", d], request.sha256, request.maxPages, request.maxPixels, request.dpi⟩

/-- The request of a call of `prepare`. -/
def Preprocessor.requested (settings : Preprocessor) (upload : Upload) (job : Job) : Request :=
  ⟨upload.sha256, settings.maxPages, settings.maxPixels, settings.dpi, job.requestId⟩

/-- A complete response about the directory. -/
def Memory.Complete (m : Memory) (d : String) (bytes : List (BitVec 8)) : Prop :=
  bytes = Bytes.utf8 okPayload.dumps ∧ d ∈ m.returned ∨ ∃ reason, bytes = Bytes.utf8 (failedPayload reason).dumps

/-- The calls of `prepare`: it stays in its own directory, publishes its request once, when
it is complete, and writes nothing later. -/
def clientCalls (request : Request) (m : Memory) : Op → Prop
  | .uuid4 => m.dir = none
  | .mkdir path => ∃ d, m.dir = some d ∧ path = [d]
  | .openWrite path => ∃ d, m.dir = some d ∧ m.published = none ∧ (path = ["input", d] ∨ path = ["request.tmp", d])
  | .write handle _ => ∃ path done, m.file = some (path, handle, done)
  | .rename src dst => ∃ d handle, m.dir = some d ∧ m.published = none ∧ src = ["request.tmp", d] ∧
      dst = ["request.json", d] ∧ m.file = some (src, handle, request.bytes)
  | .openRead path => ∀ d, path = ["response.json", d] → m.dir = some d
  | .readAll handle => ∃ path, m.reading = some (path, handle) ∧ ∀ d, path = ["response.json", d] → m.dir = some d
  | .unlink _ | .rmdir _ | .exists_ _ | .scandir _ | .getBytes _ | .putBytes .. | .loopTime | .sleep => True
  | _ => False

/-- The calls of the daemon: it claims requests, renders what it has claimed once, and
answers in the directory of the request it has claimed last. -/
def daemonCalls (m : Memory) : Op → Prop
  | .scandir path => path = []
  | .exists_ _ | .pause => True
  | .openRead path => ∃ d, m.claimed.head? = some d ∧ path = ["processing.json", d]
  | .readAll handle => ∃ d, m.claimed.head? = some d ∧ m.reading = some (["processing.json", d], handle)
  | .rename src dst => (∃ d, src = ["request.json", d] ∧ dst = ["processing.json", d]) ∨
      ∃ d handle bytes, m.claimed.head? = some d ∧ src = ["response.tmp", d] ∧ dst = ["response.json", d] ∧
        m.file = some (src, handle, bytes) ∧ m.Complete d bytes
  | .openWrite path => ∃ d, m.claimed.head? = some d ∧ path = ["response.tmp", d]
  | .write handle _ => ∃ path done, m.file = some (path, handle, done)
  | .render source output sha256 maxPages maxPixels dpi => ∃ d request, m.claimed.head? = some d ∧
      (∀ render ∈ m.renders, render.dir ≠ d) ∧ m.request = some (Request.json request) ∧ output = ["output", d] ∧
      (⟨d, source, sha256, maxPages, maxPixels, dpi⟩ : Render) = request.render d
  | .rendering output => ∃ d, m.claimed.head? = some d ∧ output = ["output", d] ∧ ∃ render ∈ m.renders, render.dir = d
  | _ => False

/-- What the daemon may rely on. `strict` is about a run in which its handler can write. -/
def daemonAnswers (strict : Prop) (m : Memory) : (op : Op) → Except Raised op.Val → Prop
  | .scandir _, r => ∃ entries, r = .ok entries
  | .exists_ _, r | .pause, r | .render .., r => ∃ a, r = .ok a
  | .write .., r => ∃ count, r = .ok count ∧ 1 ≤ count
  | .readAll _, r => ∃ bytes, r = .ok bytes ∧
      ∀ d handle, m.reading = some (["processing.json", d], handle) → ∃ request : Request, bytes = request.bytes
  | .rename _ dst, .ok _ => ∀ d, dst = ["processing.json", d] → d ∉ m.claimed
  | .rename src _, .error e => (∀ d, src = ["request.json", d] → ∃ text, e = .fileNotFound text) ∧
      (∀ d, src = ["response.tmp", d] → e.Reportable ∧ (strict → m.raised = false))
  | .openWrite _, .error e => e.Reportable ∧ (strict → m.raised = false)
  | .openRead _, .error e => e.Reportable
  | .rendering _, .error e => strict → e.Reportable
  | _, _ => True

def client (request : Request) : Contract Sig Memory where
  allow := clientCalls request
  answer _ op r :=
    match op, r with
    | .write .., r => ∃ count, r = .ok count ∧ 1 ≤ count
    | .uuid4, r => ∃ hex, r = .ok hex
    | _, _ => True

def daemon (strict : Prop) : Contract Sig Memory where
  allow := daemonCalls
  answer := daemonAnswers strict

/-- The memory a call starts with. -/
def Task.memory : Task → Memory
  | .prepare _ _ job => { stem := Preprocessor.requestName job "" }
  | .main .. => {}

def Task.contract (settings : Preprocessor) (strict : Prop) : Task → Contract Sig Memory
  | .prepare _ upload job => client (settings.requested upload job)
  | .main .. => daemon strict

end Sandbox

end MonkeyOcr
