import MonkeyOcr.Application.Services
import MonkeyOcr.Application.Worker

namespace MonkeyOcr

open Calls
open Codec (Json)

namespace KafkaJobPublisher

/-- The value of the record a message is published as. -/
def encode (message : JobWorkMessage) : Json :=
  .obj [("schema_version", .nat message.schemaVersion), ("job_id", .str (textOf message.jobId)),
    ("attempt", .nat message.attempt), ("request_id", .str message.requestId)]

def publish (message : JobWorkMessage) : Program Unit :=
  (await (.sendAndWait (textOf message.jobId) (encode message))).mapError fun e =>
    if e.isDependencyError then e else .queueUnavailable

end KafkaJobPublisher

/-- `UUID(str(value))` -/
def parseId (value : Json) : Except Exc Id :=
  let digits := value.pyStr.toList
  if digits ≠ [] ∧ digits.all Char.isDigit then .ok (Nat.ofDigitChars 10 digits 0)
  else .error (.valueError "badly formed hexadecimal UUID string")

/-- `int(value)`, for the counters of a message. -/
def parseNat (value : Json) : Except Exc Nat :=
  match value.toInt? with
  | some (.ofNat n) => .ok n
  | _ => .error (.valueError "invalid literal for int()")

/-- `payload[key]` -/
def member (payload : List (String × Json)) (key : String) : Except Exc Json :=
  match Json.get? payload key with
  | some value => .ok value
  | none => .error (.other "KeyError")

/-- The message in the payload of an outbox row or of a record. -/
def messageOf (payload : List (String × Json)) : Except Exc JobWorkMessage := do
  let jobId ← parseId (← member payload "job_id")
  let attempt ← parseNat (← member payload "attempt")
  let requestId ← member payload "request_id"
  let schemaVersion ← parseNat ((Json.get? payload "schema_version").getD (.nat 1))
  return { jobId, attempt, requestId := requestId.pyStr, schemaVersion }

/-- `decode_job_message` -/
def decodeJobMessage (value : Json) : Except Exc JobWorkMessage :=
  match value with
  | .obj payload => messageOf payload
  | _ => .error (.valueError "job message must be an object")

namespace OutboxDispatcher

/-- `_database` as `dispatch_once` writes it around its two calls. -/
def database (op : Op) : Program op.Val :=
  (await op).mapError fun e => if e.isDependencyError then e else .databaseUnavailable

def dispatchEach : List OutboxEvent → Nat → Program Nat
  | [], published => return published
  | event :: rest, published =>
    if event.eventType ≠ OCRApplicationService.ocrJobRequested then dispatchEach rest published
    else do
      let message ← Prog.ofExcept (messageOf event.payload)
      KafkaJobPublisher.publish message
      database (.markPublished event.id)
      dispatchEach rest (published + 1)

def dispatchOnce (limit : Nat) : Program Nat := do
  let events ← database (.pendingOutbox limit)
  dispatchEach events 0

end OutboxDispatcher

namespace WorkerMain

/-- `process_record` -/
def processRecord (settings : Settings) (turns : Nat) (record : Record) : Program Unit :=
  match decodeJobMessage record.value with
  | .error e => do
    logError "ocr_job_message_invalid"
      [("error_type", .str e.className), ("partition", .nat record.partition),
        ("offset", .nat record.offset)]
    await (.sendToDlq record.key record.value)
  | .ok message => do
    let _ ← OCRWorker.process settings turns message
    return ()

/-- The loop of `run_worker`, with the number of polls it still makes. -/
def runWorker (settings : Settings) (turns : Nat) : Nat → Program Unit
  | 0 => .halt
  | polls + 1 => do
    let stop ← await .stopRequested
    if stop then return ()
    else
      let record ← await .getMany
      match record with
      | none => runWorker settings turns polls
      | some record =>
        processRecord settings turns record
        await (.commit record.partition (record.offset + 1))
        runWorker settings turns polls

end WorkerMain
end MonkeyOcr
