import MonkeyOcr.Logging.Redaction

namespace MonkeyOcr

namespace Logging

variable {τ : Type}

/-- `Config`, as it is given. -/
structure Config where
  queueSize : Int
  maxBatchSize : Int

def Config.capacity (config : Config) : Nat := if config.queueSize ≤ 0 then 1024 else config.queueSize.toNat

def Config.batchSize (config : Config) : Nat := if config.maxBatchSize ≤ 0 then 256 else config.maxBatchSize.toNat

/-- What `Ingest` does to one event. `eventId` is what `NewEventID` would return. -/
def prepareEvent (tables : CaseTables) (isZero : τ → Bool) (event : LogEvent τ) (eventId : Except String String) :
    Except String (LogEvent τ) := do
  let event := redactEvent tables event
  let event := { event with metadata := some (event.metadata.getD []) }
  let event ← if event.eventId = "" then eventId.map fun id => { event with eventId := id } else .ok event
  validateEvent isZero event
  return event

/-- `Ingest` up to the lock: the copied events. -/
def prepare (tables : CaseTables) (isZero : τ → Bool) (events : List (LogEvent τ))
    (eventIds : Nat → Except String String) : Except String (List (LogEvent τ)) :=
  if events.length = 0 then .error "at least one event is required"
  else events.zipIdx.mapM fun (event, index) => prepareEvent tables isZero event (eventIds index)

/-- Where a call of `Ingest` is. It holds the lock for reading from `check` on. -/
inductive IngestPoint where
  | lock
  | check
  | select
  | unlock (error : Option String)
  | returned (error : Option String)
  deriving DecidableEq

/-- A call of `Ingest` with the events it was given, what `NewEventID` would return for
each, and the copies it made. -/
structure IngestCall (τ : Type) where
  events : List (LogEvent τ)
  eventIds : Nat → Except String String
  copied : List (LogEvent τ)
  point : IngestPoint

/-- Where a call of `closeQueue` is. It holds the lock from `check` to `unlock`. -/
inductive ClosePoint where
  | lock
  | check
  | close
  | unlock
  | closed
  | returned (error : Option String)
  deriving DecidableEq

/-- Where `run` is. Its own call of `closeQueue` has a number. -/
inductive RunPoint where
  | notStarted
  | select
  | appended (draining : Bool)
  | closing (call : Nat)
  | drain
  | lastFlush
  | returned
  deriving DecidableEq

/-- `Service` with the calls on it. The `Shutdown` calls and the one of `run` are the
calls of `closeQueue`. `sends` are the calls of `Ingest` that sent, in order, and
`written` the batches passed to `writeBatch`. `panicked` is a send on the closed
channel, or a second close. -/
structure Service (τ : Type) where
  queue : List (List (LogEvent τ))
  queueClosed : Bool
  closed : Bool
  ingests : List (IngestCall τ)
  closers : List ClosePoint
  run : RunPoint
  pending : List (LogEvent τ)
  written : List (List (LogEvent τ))
  sends : List Nat
  panicked : Bool

def Service.new : Service τ where
  queue := []
  queueClosed := false
  closed := false
  ingests := []
  closers := []
  run := .notStarted
  pending := []
  written := []
  sends := []
  panicked := false

def IngestPoint.holds : IngestPoint → Bool
  | .check | .select | .unlock _ => true
  | _ => false

def ClosePoint.holds : ClosePoint → Bool
  | .check | .close | .unlock => true
  | _ => false

/-- What a `select` takes when several cases are ready. -/
inductive Choice where
  | send
  | contextDone
  | default

inductive RunChoice where
  | receive
  | tick
  | contextDone

inductive ServiceAction (τ : Type) where
  | start
  | ingest (events : List (LogEvent τ)) (eventIds : Nat → Except String String)
  | resumeIngest (i : Nat) (choice : Choice)
  | shutdown
  | resumeClose (i : Nat) (contextDone : Bool)
  | resumeRun (choice : RunChoice)

namespace Service

def setIngest (s : Service τ) (i : Nat) (call : IngestCall τ) (point : IngestPoint) : Service τ :=
  { s with ingests := s.ingests.set i { call with point } }

def setCloser (s : Service τ) (i : Nat) (point : ClosePoint) : Service τ :=
  { s with closers := s.closers.set i point }

/-- `flush` of `run`. -/
def flush (s : Service τ) : Service τ :=
  if s.pending.length = 0 then s else { s with pending := [], written := s.written ++ [s.pending] }

variable (config : Config)

/-- The rest of `Ingest`. A case of its `select` is ready when it does not block, and
the default case is for when none is. -/
def resumeIngest (s : Service τ) (i : Nat) (choice : Choice) : Option (Service τ) := do
  let call ← s.ingests[i]?
  match call.point with
  | .lock => if s.closers.any ClosePoint.holds then none else some (s.setIngest i call .check)
  | .check =>
    if s.closed then some (s.setIngest i call (.unlock (some "logging service is shutting down")))
    else some (s.setIngest i call .select)
  | .select =>
    match choice with
    | .send =>
      if s.queueClosed then some { s with panicked := true }
      else if s.queue.length < config.capacity then
        some { s.setIngest i call (.unlock none) with queue := s.queue ++ [call.copied], sends := s.sends ++ [i] }
      else none
    | .contextDone => some (s.setIngest i call (.unlock (some "context canceled")))
    | .default =>
      if s.queueClosed ∨ s.queue.length < config.capacity then none
      else some (s.setIngest i call (.unlock (some "logging queue is full")))
  | .unlock error => some (s.setIngest i call (.returned error))
  | .returned _ => none

/-- `closeQueue`, and what `Shutdown` waits for after it. -/
def resumeClose (s : Service τ) (i : Nat) (contextDone : Bool) : Option (Service τ) := do
  let point ← s.closers[i]?
  match point with
  | .lock =>
    if s.closers.any ClosePoint.holds ∨ s.ingests.any fun call => call.point.holds then none
    else some (s.setCloser i .check)
  | .check =>
    if s.closed then some (s.setCloser i .unlock) else some { s.setCloser i .close with closed := true }
  | .close =>
    if s.queueClosed then some { s with panicked := true }
    else some { s.setCloser i .unlock with queueClosed := true }
  | .unlock => some (s.setCloser i .closed)
  | .closed =>
    if s.run = .closing i then none
    else if contextDone then some (s.setCloser i (.returned (some "context canceled")))
    else if s.run = .returned then some (s.setCloser i (.returned none))
    else none
  | .returned _ => none

/-- `run` -/
def resumeRun (s : Service τ) (choice : RunChoice) : Option (Service τ) :=
  match s.run with
  | .notStarted => none
  | .select =>
    match choice with
    | .receive =>
      match s.queue with
      | events :: rest => some { s with queue := rest, pending := s.pending ++ events, run := .appended false }
      | [] => if s.queueClosed then some { s.flush with run := .returned } else none
    | .tick => some s.flush
    | .contextDone => some { s with closers := s.closers ++ [.lock], run := .closing s.closers.length }
  | .appended draining =>
    let s := if config.batchSize ≤ s.pending.length then s.flush else s
    some { s with run := if draining then .drain else .select }
  | .closing call =>
    if s.closers[call]? = some .closed then some { s.setCloser call (.returned none) with run := .drain } else none
  | .drain =>
    match s.queue with
    | events :: rest => some { s with queue := rest, pending := s.pending ++ events, run := .appended true }
    | [] => if s.queueClosed then some { s with run := .lastFlush } else none
  | .lastFlush => some { s.flush with run := .returned }
  | .returned => none

/-- One step of one of the goroutines, or a new call. -/
def step (tables : CaseTables) (isZero : τ → Bool) (s : Service τ) : ServiceAction τ → Option (Service τ)
  | .start => if s.run = .notStarted then some { s with run := .select } else none
  | .ingest events eventIds =>
    match prepare tables isZero events eventIds with
    | .error e => some { s with ingests := s.ingests ++ [⟨events, eventIds, [], .returned (some e)⟩] }
    | .ok copied => some { s with ingests := s.ingests ++ [⟨events, eventIds, copied, .lock⟩] }
  | .resumeIngest i choice => s.resumeIngest config i choice
  | .shutdown => some { s with closers := s.closers ++ [.lock] }
  | .resumeClose i contextDone => s.resumeClose i contextDone
  | .resumeRun choice => s.resumeRun config choice

/-- The state after these steps. -/
def replay (tables : CaseTables) (isZero : τ → Bool) (s : Service τ) : List (ServiceAction τ) → Option (Service τ)
  | [] => some s
  | action :: rest => (s.step config tables isZero action).bind fun s => replay tables isZero s rest

/-- The states of a service under any schedule. -/
inductive Reachable (tables : CaseTables) (isZero : τ → Bool) : Service τ → Prop where
  | start : Reachable tables isZero .new
  | next {s s' : Service τ} {action : ServiceAction τ} : Reachable tables isZero s →
      s.step config tables isZero action = some s' → Reachable tables isZero s'

/-- The copies of a call of `Ingest`. -/
def copiedOf (s : Service τ) (i : Nat) : List (LogEvent τ) := (s.ingests[i]?.map IngestCall.copied).getD []

/-- The copies that were sent, in the order of the sends. -/
def accepted (s : Service τ) : List (LogEvent τ) := s.sends.flatMap s.copiedOf

/-- The events that the calls which sent were given, in the order of the sends. -/
def given (s : Service τ) : List (LogEvent τ) :=
  s.sends.flatMap fun i => (s.ingests[i]?.map IngestCall.events).getD []

end Service

/-- A copy is the event itself, redacted, with metadata, and with a new id where it has none. -/
def Copies (tables : CaseTables) (eventId : Except String String) (event copy : LogEvent τ) : Prop :=
  ∃ id, (if event.eventId = "" then eventId = .ok id else id = event.eventId) ∧
    copy = { event with eventId := id, metadata := some ((event.metadata.map (redactMap tables)).getD []) }

/-- A call has copied all its events, in their order. -/
structure IngestCall.Copied (tables : CaseTables) (call : IngestCall τ) : Prop where
  length : call.copied.length = call.events.length
  each : ∀ k event copy, call.events[k]? = some event → call.copied[k]? = some copy →
    Copies tables (call.eventIds k) event copy

end Logging

end MonkeyOcr
