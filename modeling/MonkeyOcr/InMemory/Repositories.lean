import Mathlib
import MonkeyOcr.Infrastructure.Execution

namespace MonkeyOcr

/-- The dictionaries of `InMemoryJobRepository`, in the order of insertion, and of
`InMemoryJobEventRepository`. Objects are copied in and out. -/
structure InMemory where
  items : List Job := []
  events : Id → List JobEvent := fun _ => []

namespace InMemory

variable (m : InMemory)

/-- `self._items.get(job_id)` -/
def get (jobId : Id) : Option Job := m.items.find? (·.id = jobId)

/-- `InMemoryJobEventRepository.append` -/
def append (event : JobEvent) : JobEvent × InMemory :=
  let existing := if event.eventType.terminal then
    (m.events event.jobId).find? fun item => item.eventType = event.eventType ∧ item.attempt = event.attempt
    else none
  match existing with
  | some existing => (existing, m)
  | none =>
    let stored := event.withSequence ((m.events event.jobId).length + 1)
    (stored, { m with events := Function.update m.events event.jobId (m.events event.jobId ++ [stored]) })

/-- `list_after` -/
def listAfter (jobId : Id) (sequence : Nat) : List JobEvent :=
  (m.events jobId).filter fun event => sequence < event.sequence

/-- `add` -/
def add (job : Job) : Except Exc InMemory :=
  if (m.get job.id).isSome then .error (.valueError "duplicate job")
  else if (job.idempotencyKey.filter (· ≠ "")).any fun key =>
      m.items.any fun item => item.ownerId = job.ownerId ∧ item.idempotencyKey = some key then
    .error .duplicateIdempotencyKey
  else .ok { m with items := m.items ++ [job] }

/-- `save_with_event`, with the revision that the job is given. -/
def saveWithEvent (job : Job) (event : JobEvent) : Except Exc ((Nat × JobEvent) × InMemory) :=
  match m.get job.id with
  | none => .error (.valueError "job not found")
  | some stored =>
    if stored.revision ≠ job.revision then .error .concurrentJobUpdate
    else
      let candidate := { job with revision := job.revision + 1 }
      let items := m.items.map fun item => if item.id = job.id then candidate else item
      let (savedEvent, m) := { m with items }.append event
      .ok ((candidate.revision, savedEvent), m)

/-- `add_with_outbox_and_event`, but for the outbox. -/
def addWithOutboxAndEvent (job : Job) (jobEvent : JobEvent) : Except Exc (JobEvent × InMemory) :=
  (m.add job).map fun m => m.append jobEvent

/-- `find_by_idempotency_key` -/
def findByIdempotencyKey (ownerId : Id) (key : String) : Option Job :=
  m.items.find? fun item => item.ownerId = ownerId ∧ item.idempotencyKey = some key

/-- `list` -/
def list (ownerId : Id) (offset limit : Nat) : List Job × Nat :=
  let items := (m.items.filter (·.ownerId = ownerId)).insertionSort fun a b => b.createdAt ≤ a.createdAt
  ((items.drop offset).take limit, items.length)

def transact {α : Type} (result : Except Exc (α × InMemory)) : Except Exc α × InMemory :=
  match result with
  | .ok (a, m) => (.ok a, m)
  | .error e => (.error e, m)

/-- The calls of the two repositories. The queries of one `find_by_idempotency_key` or
`list` of the other adapter are answered by what this one returns for them. -/
def perform : (op : Op) → Option (Except Exc op.Val × InMemory)
  | .getJob _ jobId => some (.ok (m.get jobId), m)
  | .saveWithEvent job event => some (m.transact (m.saveWithEvent job event))
  | .saveWithOutboxAndEvent job _ event => some (m.transact (m.saveWithEvent job event))
  | .addWithOutboxAndEvent job _ event => some (m.transact (m.addWithOutboxAndEvent job event))
  | .findIdByIdempotencyKey ownerId key => some (.ok ((m.findByIdempotencyKey ownerId key).map Job.id), m)
  | .listIds ownerId offset limit => some (.ok ((m.list ownerId offset limit).1.map Job.id), m)
  | .countJobs ownerId => some (.ok (m.list ownerId 0 0).2, m)
  | .appendEvent event =>
    let (saved, m) := m.append event
    some (.ok saved, m)
  | .listAfter jobId sequence => some (.ok (m.listAfter jobId sequence), m)
  | _ => none

end InMemory

end MonkeyOcr
