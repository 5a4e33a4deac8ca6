import MonkeyOcr.Calls.Substitution
import MonkeyOcr.System

namespace MonkeyOcr

open Calls

/-- What a client sends to the outside: the three queries of a read of a job,
and everything that is one statement or one transaction. -/
inductive Statement
  | selectJob (site : Site) (jobId : Id)
  | selectPages (jobId : Id) (attempt : Nat)
  | selectArtifacts (jobId : Id) (attempt : Nat)
  | other (op : Op)

/-- The first query returns the columns of a job without pages and artifacts. -/
abbrev Statement.Val : Statement → Type
  | selectJob _ _ => Option Job
  | selectPages _ _ => List PageRow
  | selectArtifacts _ _ => List Artifact
  | other op => op.Val

def StatementSig : Signature := ⟨Statement, fun statement => Except Exc statement.Val⟩

def send (statement : Statement) : Prog StatementSig Exc statement.Val :=
  .call statement fun result => .ofExcept result

/-- The columns of the job row and of its attempt. -/
def Job.head (job : Job) : Job := { job with pages := [], artifacts := [] }

namespace AsyncpgJobRepository

/-- `_from_rows` -/
def fromRows (row : Job) (pages : List PageRow) (artifacts : List Artifact) : Job :=
  { row with pages := pages.map PageRow.toPage, artifacts }

/-- `get` -/
def get (site : Site) (jobId : Id) : Prog StatementSig Exc (Option Job) := do
  let row ← send (.selectJob site jobId)
  match row with
  | none => return none
  | some row =>
    let pages ← send (.selectPages jobId row.attempt)
    let artifacts ← send (.selectArtifacts jobId row.attempt)
    return some (fromRows row pages artifacts)

end AsyncpgJobRepository

/-- The statements of each call. -/
def statements : (op : Op) → Prog StatementSig Exc (Except Exc op.Val)
  | .getJob site jobId => (AsyncpgJobRepository.get site jobId).attempt
  | op => .call (.other op) fun result => .ret (.ok result)

/-- The database and the object store, and for each client the revisions that
its job objects were given by transactions that were not confirmed to it. -/
structure Shared where
  world : World
  raised : Nat → List (Id × Nat) := fun _ => []

namespace World

/-- `SELECT j.*, a.… WHERE j.id=$1 AND j.retention_claim_token IS NULL` -/
def selectJob (w : World) (jobId : Id) : Option Job := (w.getJob jobId).map Job.head

/-- `SELECT * FROM ocr_job_pages WHERE job_id=$1 AND attempt=$2` -/
def selectPages (w : World) (jobId : Id) (attempt : Nat) : List PageRow :=
  (w.jobs jobId).elim [] fun row => row.pages attempt

/-- `SELECT * FROM ocr_artifacts WHERE job_id=$1 AND attempt=$2` -/
def selectArtifacts (w : World) (jobId : Id) (attempt : Nat) : List Artifact :=
  (w.jobs jobId).elim [] fun row => (row.artifacts attempt).insertionSort fun a b => a.before b

end World

/-- What a statement leaves open; a save may be one of an object that an
earlier transaction of the client has raised to the revision `raised`. -/
structure StatementChoice where
  choice : Choice := {}
  raised : Option Nat := none

/-- A query, which may fail. -/
def Choice.query {α : Type} (choice : Choice) (rows : α) : Option (Except Exc α) :=
  match choice.failure with
  | .none => some (.ok rows)
  | .before e | .after e => if e.isOther then some (.error e) else none

/-- The transaction failed, but not by its compare-and-swap: it may have raised
the revision of the job object before. -/
def unconfirmed {α : Type} : Except Exc α → Bool
  | .ok _ => false
  | .error e => e ≠ .concurrentJobUpdate

namespace Shared

/-- The client may hold an object of the job with this revision. -/
def holds (s : Shared) (client : Nat) (job : Job) (raised : Option Nat) : Bool :=
  raised.all fun revision => (job.id, revision) ∈ s.raised client

/-- `job.revision = int(revision)`, in a transaction that is not confirmed. -/
def afterSave {α : Type} (s : Shared) (client : Nat) (job : Job) (r : Except Exc α) (w : World) : Shared where
  world := w
  raised :=
    if unconfirmed r then Function.update s.raised client ((job.id, job.revision + 1) :: s.raised client)
    else s.raised

/-- The object that is saved, as it is in memory. -/
def inMemory (job : Job) (raised : Option Nat) : Job := { job with revision := raised.getD job.revision }

/-- One statement or transaction of a client. -/
def execute (settings : Settings) (client : Nat) :
    (statement : Statement) → StatementChoice → Shared → Option (Except Exc statement.Val × Shared)
  | .selectJob _ jobId, choice, s => (choice.choice.query (s.world.selectJob jobId)).map fun r => (r, s)
  | .selectPages jobId attempt, choice, s =>
    (choice.choice.query (s.world.selectPages jobId attempt)).map fun r => (r, s)
  | .selectArtifacts jobId attempt, choice, s =>
    (choice.choice.query (s.world.selectArtifacts jobId attempt)).map fun r => (r, s)
  | .other (.getJob ..), _, _ => none
  | .other (.saveWithEvent job event), choice, s =>
    if s.holds client job choice.raised then
      let job := inMemory job choice.raised
      (s.world.exec settings client (.saveWithEvent job event) choice.choice).map
        fun (r, w) => (r, s.afterSave client job r w)
    else none
  | .other (.saveWithOutboxAndEvent job outboxEvent event), choice, s =>
    if s.holds client job choice.raised then
      let job := inMemory job choice.raised
      (s.world.exec settings client (.saveWithOutboxAndEvent job outboxEvent event) choice.choice).map
        fun (r, w) => (r, s.afterSave client job r w)
    else none
  | .other op, choice, s =>
    (s.world.exec settings client op choice.choice).map fun (r, w) => (r, { s with world := w })

end Shared

/-- The clients of the job table that save. -/
inductive Client
  | process (turns : Nat) (message : JobWorkMessage)
  | createJob (request : CreateJobRequest) (ownerId : Id) (requestId : String)
      (idempotencyKey : Option String)
  | cancelJob (jobId ownerId : Id) (requestId : String)
  | retryJob (jobId ownerId : Id) (requestId : String)

def Client.task : Client → Task
  | .process turns message => .process turns message
  | .createJob request ownerId requestId idempotencyKey => .createJob request ownerId requestId idempotencyKey
  | .cancelJob jobId ownerId requestId => .cancelJob jobId ownerId requestId
  | .retryJob jobId ownerId requestId => .retryJob jobId ownerId requestId

abbrev ClientState := Sys StatementSig Shared Client Exc Reply

abbrev ClientStep := Action Client StatementChoice Empty

abbrev ClientCall := Call StatementSig Client Exc Reply

/-- Every interleaving of any number of clients, at the granularity of single
statements. -/
def clients (settings : Settings) : Machine StatementSig Shared Client StatementChoice Empty Exc Reply where
  program client := (program settings client.task).substitute statements
  exec := Shared.execute settings
  env event _ := event.elim

/-- A deployment before its first job, which no client uses yet. -/
structure Idle (s : ClientState) : Prop where
  world : s.world.world.Initial
  raised : ∀ client, s.world.raised client = []
  calls : s.calls = []

end MonkeyOcr
