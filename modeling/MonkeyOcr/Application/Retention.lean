import MonkeyOcr.Infrastructure.Execution

namespace MonkeyOcr

open Calls
open Codec (Json)

structure RetentionBatchResult where
  claimed : Nat
  completed : Nat
  deferred : Nat
  deletedObjects : Nat

namespace RetentionCleanupService

/-- Every key is tried; the first failure is what is raised at the end. The
deletions of `gather` touch different keys, so they are made in turn. -/
def deleteEach : List ObjectKey → Option Exc → Program Unit
  | [], none => return ()
  | [], some e => .raise e
  | key :: rest, failed => do
    let result ← (await (.deleteObject key)).attempt
    match result with
    | .ok _ => deleteEach rest failed
    | .error e => deleteEach rest (failed <|> some e)

/-- `_delete_objects` -/
def deleteObjects (candidate : RetentionCandidate) : Program Nat := do
  let objectKeys := candidate.objectKeys.dedup
  match candidate.multipartUploadId.filter (· ≠ "") with
  | none =>
    deleteEach objectKeys none
    return objectKeys.length
  | some uploadId =>
    match objectKeys with
    | [key] =>
      await (.abortMultipartUpload key uploadId)
      deleteEach objectKeys none
      return objectKeys.length
    | _ => .raise (.valueError "multipart upload cleanup requires one source object")

def logFields (candidate : RetentionCandidate) : List (String × Json) :=
  [("aggregate_kind", .str candidate.aggregateKind.text),
    ("aggregate_id", .str (textOf candidate.aggregateId))]

/-- The `except` around one candidate. -/
def deferCandidate (settings : Settings) (candidate : RetentionCandidate) (e : Exc)
    (result : RetentionBatchResult) : Program RetentionBatchResult := do
  let now ← await .utcNow
  (await (.defer candidate (now + seconds settings.retryDelaySeconds))).catchError fun deferError =>
    logError "retention_candidate_defer_failed"
      (logFields candidate ++ [("error_type", .str deferError.className)])
  logError "retention_candidate_failed"
    (logFields candidate ++ [("error_type", .str e.className)])
  return { result with deferred := result.deferred + 1 }

/-- The loop over the candidates. Deletion and `complete` stand in one `try`;
the deleted objects count even when `complete` raises. -/
def cleanCandidates (settings : Settings) :
    List RetentionCandidate → RetentionBatchResult → Program RetentionBatchResult
  | [], result => return result
  | candidate :: rest, result => do
    let deletion ← (deleteObjects candidate).attempt
    match deletion with
    | .error e =>
      let result ← deferCandidate settings candidate e result
      cleanCandidates settings rest result
    | .ok deleted =>
      let result := { result with deletedObjects := result.deletedObjects + deleted }
      let completion ← (await (.complete candidate)).attempt
      match completion with
      | .error e =>
        let result ← deferCandidate settings candidate e result
        cleanCandidates settings rest result
      | .ok true =>
        logInfo "retention_candidate_deleted"
          (logFields candidate ++ [("object_count", .nat candidate.objectKeys.length)])
        cleanCandidates settings rest { result with completed := result.completed + 1 }
      | .ok false =>
        logError "retention_candidate_claim_lost" (logFields candidate)
        cleanCandidates settings rest { result with deferred := result.deferred + 1 }

/-- `now or datetime.now(UTC)` -/
def currentTime : Option Time → Program Time
  | some now => return now
  | none => await .utcNow

/-- `run_batch` -/
def runBatch (settings : Settings) (limit leaseSeconds : Nat) (now : Option Time) :
    Program RetentionBatchResult :=
  if limit < 1 then .raise (.valueError "limit must be positive")
  else if leaseSeconds < 1 then .raise (.valueError "lease_seconds must be positive")
  else do
    let currentTime ← currentTime now
    let candidates ← await (.claimExpired currentTime limit leaseSeconds)
    cleanCandidates settings candidates ⟨candidates.length, 0, 0, 0⟩

end RetentionCleanupService
end MonkeyOcr
