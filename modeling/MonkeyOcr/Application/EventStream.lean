import MonkeyOcr.Application.Services

namespace MonkeyOcr.EventStream

open Calls

/-- The loop of `wait_after`, with the number of turns it may take: poll until
there are events or the deadline has passed. -/
def waitUntil (jobId : Id) (sequence : Nat) (deadline : Time) : Nat → Program (List JobEvent)
  | 0 => .halt
  | turns + 1 => do
    let now ← await .loopTime
    if now < deadline then
      let events ← await (.listAfter jobId sequence)
      if events.isEmpty then
        let now ← await .loopTime
        await (.sleep (min (1 / 4) (max 0 (((deadline - now : Nat) : Rat) / 1000000))))
        waitUntil jobId sequence deadline turns
      else return events
    else return []

def waitAfter (jobId : Id) (sequence : Nat) (timeout : Time) (turns : Nat) :
    Program (List JobEvent) := do
  let start ← await .loopTime
  waitUntil jobId sequence (start + timeout) turns

/-- The events to send next, after a heartbeat interval without any. -/
def pendingEvents (settings : Settings) (jobId : Id) (sequence turns : Nat) :
    Program (List JobEvent) := do
  let listed ← await (.listAfter jobId sequence)
  if listed.isEmpty then waitAfter jobId sequence settings.sseHeartbeat turns else return listed

def yieldEach : List JobEvent → Nat → Program Nat
  | [], sequence => return sequence
  | event :: rest, _ => do
    await (.yieldEvent event)
    yieldEach rest event.sequence

/-- The loop of `generate`. -/
def generate (settings : Settings) (jobId ownerId : Id) : Nat → Nat → Program Unit
  | 0, _ => .halt
  | turns + 1, sequence => do
    let pending ← pendingEvents settings jobId sequence turns
    match pending.getLast? with
    | none =>
      let disconnected ← await .isDisconnected
      if disconnected then return ()
      else
        let latest ← OCRApplicationService.getJobDomain (.stream true) jobId ownerId
        if latest.terminal then return ()
        else
          await .yieldHeartbeat
          generate settings jobId ownerId turns sequence
    | some last =>
      let sequence ← yieldEach pending sequence
      let latest ← OCRApplicationService.getJobDomain (.stream false) jobId ownerId
      if latest.terminal ∧ last.state = latest.state ∧ last.attempt = latest.attempt then return ()
      else generate settings jobId ownerId turns sequence

/-- `int(last_event_id or 0)`, which must not be negative. -/
def parseLastEventId (lastEventId : Option String) : Except Exc Nat :=
  match lastEventId.filter (· ≠ "") with
  | none => .ok 0
  | some text =>
    match Codec.int? text with
    | some (.ofNat n) => .ok n
    | _ => .error (.business .commonInvalidArgument "invalid_last_event_id")

/-- `stream_job_events` -/
def streamJobEvents (settings : Settings) (turns : Nat) (jobId ownerId : Id)
    (lastEventId : Option String) : Program Unit := do
  let _ ← OCRApplicationService.getJobDomain .api jobId ownerId
  let sequence ← Prog.ofExcept (parseLastEventId lastEventId)
  generate settings jobId ownerId turns sequence

end MonkeyOcr.EventStream
