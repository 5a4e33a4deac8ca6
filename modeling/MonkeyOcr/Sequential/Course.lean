import MonkeyOcr.Lifecycle.Births

namespace MonkeyOcr

open Calls
open Codec (Json)

/-- The states in which a job is its delivery's alone, but for a request to
cancel it. -/
def JobState.active : JobState → Bool
  | preprocessing | running | assembling | cancelRequested => true
  | _ => false

/-- `found` is the version `v`, or `v` asked to be cancelled. -/
structure Job.Stays (v found : Job) : Prop where
  id : found.id = v.id
  birth : found.birth = v.birth
  attempt : found.attempt = v.attempt
  pages : found.version.pages = v.version.pages
  state : found.state = v.state ∨ found.state = .cancelRequested

theorem Job.Stays.refl {v : Job} : v.Stays v := ⟨rfl, rfl, rfl, rfl, .inl rfl⟩

theorem Job.Stays.trans {v found later : Job} (first : v.Stays found) (rest : found.Stays later) :
    v.Stays later := by
  refine ⟨rest.id.trans first.id, rest.birth.trans first.birth, rest.attempt.trans first.attempt,
    rest.pages.trans first.pages, ?_⟩
  rcases rest.state with same | asked
  · exact first.state.imp same.trans same.trans
  · exact .inr asked

/-- A page of one version is a page of the other, but for its texts. -/
theorem Job.Stays.page {v found : Job} (stays : v.Stays found) {index : Nat} {page : Page}
    (at_index : found.pages[index]? = some page) :
    ∃ old, v.pages[index]? = some old ∧ page.toRow = old.toRow := by
  have rows := congrArg (·[index]?) stays.pages
  simp only [Job.version, List.getElem?_map, at_index, Option.map_some] at rows
  obtain ⟨old, there, same⟩ := Option.map_eq_some_iff.mp rows.symm
  exact ⟨old, there, same.symm⟩

/-- What a delivery remembers of its message: the version of the job it has
read or saved last, unless a save has failed since, and all its calls. What a
worker does between two messages makes it forget the version. -/
structure Course where
  message : Option JobWorkMessage := none
  known : Option Job := none
  past : List ((op : Op) × Except Exc op.Val) := []

namespace Course

def knownAfter (s : Course) : (op : Op) → Except Exc op.Val → Option Job
  | .getJob .., .ok found => found
  | .saveWithEvent job _, .ok saved => some { job with revision := saved.1 }
  | .saveWithEvent .., .error _ => none
  | .stopRequested, _ | .getMany, _ | .commit .., _ => none
  | _, _ => s.known

def called (s : Course) (op : Op) (r : Except Exc op.Val) : Course :=
  { s with known := s.knownAfter op r, past := ⟨op, r⟩ :: s.past }

def next (s : Course) : (op : Op) → Except Exc op.Val → Course
  | .getMany, .ok (some record) => { message := (decodeJobMessage record.value).toOption }
  | op, r => s.called op r

def ghost : Ghost Sig Course := ⟨next⟩

/-- The number of the page that was recognized last. -/
def asked (s : Course) : Option Nat :=
  s.past.findSome? fun done =>
    match done with
    | ⟨.recognize _ number _ _, _⟩ => some number
    | _ => none

/-- The delivery is at a page of its job that is not finished. -/
structure Turn (s : Course) (m : JobWorkMessage) (v : Job) (index : Nat) (page : Page) : Prop where
  known : s.known = some v
  own : v.id = m.jobId
  attempt : v.attempt = m.attempt
  state : v.state = .running
  found : v.pages[index]? = some page
  unfinished : page.state ≠ .succeeded

/-- The result of a page that was put together with its image, as the engine
returned it. -/
structure Recognized (s : Course) (v : Job) (page : Page) (result : OCRResult) : Prop where
  engine : ∃ image requestId, ⟨.getBytes page.inputObjectKey, .ok image⟩ ∈ s.past ∧
    ⟨.recognize image page.pageNumber v.options requestId, .ok result⟩ ∈ s.past
  stored : ∃ stored, ⟨.putBytes (OCRWorker.resultKey v page) (OCRWorker.resultPayload page result)
    "application/json", .ok stored⟩ ∈ s.past ∧ stored.objectKey = OCRWorker.resultKey v page

/-- The result that assembling takes for a page, if one is stored. -/
def Loaded (s : Course) (page : Page) (result : PageResult) : Prop :=
  ∀ key, page.resultObjectKey = some key → ∃ data, ⟨.getBytes key, .ok data⟩ ∈ s.past ∧
    ∀ payload, data = .json payload → ∀ found, OCRWorker.pageResult? payload = some found → found = result

/-- The documents of the pages were put. -/
structure Assembled (s : Course) (job : Job) (results : List PageResult) : Prop where
  loaded : List.Forall₂ s.Loaded job.pages results
  markdown : ∃ type stored, ⟨.putBytes (.document job.id job.attempt .markdown)
    (OCRWorker.documentMarkdown results) type, .ok stored⟩ ∈ s.past
  json : ∃ type stored, ⟨.putBytes (.document job.id job.attempt .json)
    (OCRWorker.documentJson job results) type, .ok stored⟩ ∈ s.past

/-- The payload of `page.running`. -/
def startedData (page : Page) : List (String × Json) :=
  [("page_number", .nat page.pageNumber), ("processing_attempt", .nat page.processingAttempts)]

/-- What each kind of save of a delivery stands for. -/
def saves (settings : Settings) (s : Course) (m : JobWorkMessage) (job : Job) (event : JobEvent) : Prop :=
  match event.eventType with
  | .jobPagesPrepared => ∃ v upload prepared, s.known = some v ∧ v.id = m.jobId ∧ v.attempt = m.attempt ∧
      ⟨.getUpload v.uploadId, .ok (some upload)⟩ ∈ s.past ∧ (∃ sent, v.Stays sent ∧
        ⟨.prepare upload sent, .ok prepared⟩ ∈ s.past) ∧
      job.pages = (prepared.insertionSort fun a b => a.pageNumber ≤ b.pageNumber).map fun page =>
        { pageNumber := page.pageNumber, inputObjectKey := page.objectKey }
  | .jobRunning => job.pages ≠ []
  | .pageRunning => ∃ v index page, s.Turn m v index page ∧
      page.processingAttempts < settings.maxPageRetries + 1 ∧ job = v.setPage index page.start ∧
      event.data = startedData page.start
  | .pageRetryScheduled => job.state = .running
  | .pageSucceeded => ∃ v index page result visualizationKey sha256, s.Turn m v index page ∧
      s.Recognized v page result ∧
      job = (OCRWorker.withEngine v result).setPage index (page.succeed result.markdown
        (Json.set result.structured "engine_metadata" (.obj result.engineMetadata))
        (OCRWorker.resultKey v page) sha256 visualizationKey)
  | .pageFailed => job.state = .running ∨ job.state = .cancelRequested
  | .jobAssembling => job.pages ≠ [] ∧ ∀ page ∈ job.pages, page.state = .succeeded
  | .jobSucceeded => ∃ sent results, sent.id = job.id ∧ sent.attempt = job.attempt ∧
      sent.version.pages = job.version.pages ∧ s.Assembled sent results
  | _ => True

/-- The calls of a delivery, where other contracts leave more open. -/
def calls (settings : Settings) (s : Course) (m : JobWorkMessage) : Op → Prop
  | .saveWithEvent job event => s.saves settings m job event
  | .recognize image number options _ => ∃ v index page, s.Turn m v index page ∧ page.pageNumber = number ∧
      v.options = options ∧ ⟨.getBytes page.inputObjectKey, .ok image⟩ ∈ s.past ∧
      ∃ job event saved rest, s.past = ⟨.saveWithEvent job event, .ok saved⟩ :: rest ∧
        event.eventType = .pageRunning ∧ event.data = startedData page
  | .sleep delay => ∃ v index page, s.Turn m v index page ∧ 0 < page.processingAttempts ∧
      s.asked = some page.pageNumber ∧ delay = OCRWorker.backoff settings page
  | _ => True

/-- What a delivery may rely on while no other one works on the job. -/
def relies (s : Course) (m : JobWorkMessage) : (op : Op) → Except Exc op.Val → Prop
  | .getJob _ id, .ok found => id = m.jobId → ∀ v, s.known = some v → v.id = m.jobId → v.state.active = true →
      ∃ job, found = some job ∧ v.Stays job
  | .getJob .., .error e => e.isOther = true
  | .saveWithEvent .., .error e => e = .concurrentJobUpdate ∨ e.isOther = true
  | .putBytes key _ _, .ok stored => stored.objectKey = key
  | .utcNow, .error _ | .log .., .error _ | .sleep _, .error _ => False
  | _, _ => True

/-- The delivery of one message, which polls no other. -/
def delivery (settings : Settings) (m : JobWorkMessage) : Contract Sig Course where
  allow s op := s.message = some m ∧ s.calls settings m op ∧ ∀ r, s.next op r = s.called op r
  answer s op r := Memory.answer op r ∧ (s.message = some m → s.relies m op r)

/-- What is asked of the deliveries of one job. -/
def contract (settings : Settings) (id : Id) : Contract Sig Course where
  allow s op := ∀ m, s.message = some m → m.jobId = id → s.calls settings m op
  answer s op r := Memory.answer op r ∧ ∀ m, s.message = some m → m.jobId = id → s.relies m op r

/-- A later moment of the same delivery. -/
structure Grows (s s' : Course) : Prop where
  message : s'.message = s.message
  past : s.past <:+ s'.past

/-- No page was recognized in between. -/
structure Onward (s s' : Course) : Prop extends s.Grows s' where
  asked : s'.asked = s.asked

/-- The job was not read or saved in between either. -/
structure Keeps (s s' : Course) : Prop extends s.Onward s' where
  known : s'.known = s.known

/-- The delivery works on `job`, which is what it knows, but for texts. -/
def Holds (s : Course) (m : JobWorkMessage) (job : Job) : Prop :=
  ∃ v, s.known = some v ∧ v.id = m.jobId ∧ v.attempt = m.attempt ∧ v.state.active = true ∧
    v.Stays job ∧ job.state = v.state

variable {s s' s'' : Course} {m : JobWorkMessage} {job job' : Job} {op : Op}

theorem Grows.refl : s.Grows s := ⟨rfl, List.suffix_rfl⟩

theorem Grows.trans (first : s.Grows s') (rest : s'.Grows s'') : s.Grows s'' :=
  ⟨rest.message.trans first.message, first.past.trans rest.past⟩

theorem Grows.mem (grows : s.Grows s') {done : (op : Op) × Except Exc op.Val} (member : done ∈ s.past) :
    done ∈ s'.past := grows.past.mem member

theorem Grows.called (r : Except Exc op.Val) : s.Grows (s.called op r) :=
  ⟨rfl, List.suffix_cons _ _⟩

theorem Onward.refl : s.Onward s := ⟨.refl, rfl⟩

theorem Onward.trans (first : s.Onward s') (rest : s'.Onward s'') : s.Onward s'' :=
  ⟨first.toGrows.trans rest.toGrows, rest.asked.trans first.asked⟩

theorem Onward.called {r : Except Exc op.Val} (unasked : (s.called op r).asked = s.asked) :
    s.Onward (s.called op r) := ⟨.called r, unasked⟩

theorem Keeps.refl : s.Keeps s := ⟨.refl, rfl⟩

theorem Keeps.trans (first : s.Keeps s') (rest : s'.Keeps s'') : s.Keeps s'' :=
  ⟨first.toOnward.trans rest.toOnward, rest.known.trans first.known⟩

theorem Holds.keeps (holds : s.Holds m job) (keeps : s.Keeps s') : s'.Holds m job := by
  obtain ⟨v, known, rest⟩ := holds
  exact ⟨v, keeps.known.trans known, rest⟩

theorem Loaded.grows {page : Page} {result : PageResult} (loaded : s.Loaded page result) (grows : s.Grows s') :
    s'.Loaded page result := by
  intro key stored
  obtain ⟨data, read, decoded⟩ := loaded key stored
  exact ⟨data, grows.mem read, decoded⟩

theorem Assembled.grows {results : List PageResult} (assembled : s.Assembled job results) (grows : s.Grows s') :
    s'.Assembled job results := by
  obtain ⟨loaded, ⟨type, stored, put⟩, ⟨type', stored', put'⟩⟩ := assembled
  exact ⟨loaded.imp fun _ _ one => one.grows grows, ⟨type, stored, grows.mem put⟩,
    ⟨type', stored', grows.mem put'⟩⟩

/-- What is saved is what is known. -/
theorem Holds.of_known (known : s.known = some job) (own : job.id = m.jobId) (attempt : job.attempt = m.attempt)
    (active : job.state.active = true) : s.Holds m job :=
  ⟨job, known, own, attempt, active, .refl, rfl⟩

theorem Holds.id (holds : s.Holds m job) : job.id = m.jobId := by
  obtain ⟨v, -, own, -, -, stays, -⟩ := holds
  exact stays.id.trans own

theorem Holds.attempt (holds : s.Holds m job) : job.attempt = m.attempt := by
  obtain ⟨v, -, -, attempt, -, stays, -⟩ := holds
  exact stays.attempt.trans attempt

theorem Holds.active (holds : s.Holds m job) : job.state.active = true := by
  obtain ⟨v, -, -, -, active, -, state⟩ := holds
  exact state ▸ active

end Course
end MonkeyOcr
