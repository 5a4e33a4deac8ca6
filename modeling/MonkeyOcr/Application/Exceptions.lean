import Mathlib.Logic.Basic

namespace MonkeyOcr

inductive InternalStatusCode
  | success | commonInvalidArgument | commonStateConflict | commonIdempotencyConflict | uploadNotFound
  | uploadNotCompleted | uploadHashMismatch | uploadUnsupportedFileType | uploadFileTooLarge
  | uploadSecurityRejected | jobNotFound | jobNotCancellable | jobNotRetryable | jobProcessingFailed
  | jobResultNotReady | userUnauthorized
  | engineUnavailable | engineTimeout | storageUnavailable | queueUnavailable | databaseUnavailable
  | internalControlledError
  deriving DecidableEq, Repr

namespace InternalStatusCode

def value : InternalStatusCode → Nat
  | success => 0
  | commonInvalidArgument => 10001
  | commonStateConflict => 10003
  | commonIdempotencyConflict => 10004
  | uploadNotFound => 20001
  | uploadNotCompleted => 20002
  | uploadHashMismatch => 20003
  | uploadUnsupportedFileType => 20004
  | uploadFileTooLarge => 20005
  | uploadSecurityRejected => 20006
  | jobNotFound => 30001
  | jobNotCancellable => 30002
  | jobNotRetryable => 30003
  | jobProcessingFailed => 30004
  | jobResultNotReady => 30005
  | userUnauthorized => 40001
  | engineUnavailable => 50001
  | engineTimeout => 50002
  | storageUnavailable => 50003
  | queueUnavailable => 50004
  | databaseUnavailable => 50005
  | internalControlledError => 59999

def name : InternalStatusCode → String
  | success => "SUCCESS"
  | commonInvalidArgument => "COMMON_INVALID_ARGUMENT"
  | commonStateConflict => "COMMON_STATE_CONFLICT"
  | commonIdempotencyConflict => "COMMON_IDEMPOTENCY_CONFLICT"
  | uploadNotFound => "UPLOAD_NOT_FOUND"
  | uploadNotCompleted => "UPLOAD_NOT_COMPLETED"
  | uploadHashMismatch => "UPLOAD_HASH_MISMATCH"
  | uploadUnsupportedFileType => "UPLOAD_UNSUPPORTED_FILE_TYPE"
  | uploadFileTooLarge => "UPLOAD_FILE_TOO_LARGE"
  | uploadSecurityRejected => "UPLOAD_SECURITY_REJECTED"
  | jobNotFound => "JOB_NOT_FOUND"
  | jobNotCancellable => "JOB_NOT_CANCELLABLE"
  | jobNotRetryable => "JOB_NOT_RETRYABLE"
  | jobProcessingFailed => "JOB_PROCESSING_FAILED"
  | jobResultNotReady => "JOB_RESULT_NOT_READY"
  | userUnauthorized => "USER_UNAUTHORIZED"
  | engineUnavailable => "ENGINE_UNAVAILABLE"
  | engineTimeout => "ENGINE_TIMEOUT"
  | storageUnavailable => "STORAGE_UNAVAILABLE"
  | queueUnavailable => "QUEUE_UNAVAILABLE"
  | databaseUnavailable => "DATABASE_UNAVAILABLE"
  | internalControlledError => "INTERNAL_CONTROLLED_ERROR"

end InternalStatusCode

/-- The exceptions the modelled code raises or tells apart. Every other class
is `other`, known by its name. -/
inductive Exc
  | dependency | databaseUnavailable | storageUnavailable | queueUnavailable
  | engine | transientEngine | engineUnavailable | engineTimeout | engineProtocol
  | preprocessing | concurrentJobUpdate | duplicateIdempotencyKey
  | business (code : InternalStatusCode) (reason : String)
  | fileNotFound
  | valueError (message : String)
  | runtimeError (message : String)
  | other (className : String)
  deriving DecidableEq, Repr

namespace Exc

/-- `type(exc).__name__`. -/
def className : Exc → String
  | dependency => "DependencyError"
  | databaseUnavailable => "DatabaseUnavailableError"
  | storageUnavailable => "StorageUnavailableError"
  | queueUnavailable => "QueueUnavailableError"
  | engine => "EngineError"
  | transientEngine => "TransientEngineError"
  | engineUnavailable => "EngineUnavailableError"
  | engineTimeout => "EngineTimeoutError"
  | engineProtocol => "EngineProtocolError"
  | preprocessing => "PreprocessingError"
  | concurrentJobUpdate => "ConcurrentJobUpdateError"
  | duplicateIdempotencyKey => "DuplicateIdempotencyKeyError"
  | business _ _ => "BusinessError"
  | fileNotFound => "FileNotFoundError"
  | valueError _ => "ValueError"
  | runtimeError _ => "RuntimeError"
  | other className => className

/-- A class the code does not tell apart. -/
def isOther : Exc → Bool
  | other _ => true
  | _ => false

/-- `isinstance(exc, EngineError)`. -/
def isEngineError : Exc → Bool
  | engine | transientEngine | engineUnavailable | engineTimeout | engineProtocol => true
  | _ => false

/-- `isinstance(exc, TransientEngineError)`. -/
def isTransientEngineError : Exc → Bool
  | transientEngine | engineUnavailable | engineTimeout => true
  | _ => false

/-- `isinstance(exc, DependencyError)`. -/
def isDependencyError : Exc → Bool
  | dependency | databaseUnavailable | storageUnavailable | queueUnavailable => true
  | e => e.isEngineError

/-- The class attribute `internal_code` of a `DependencyError`. -/
def internalCode : Exc → InternalStatusCode
  | databaseUnavailable => .databaseUnavailable
  | storageUnavailable => .storageUnavailable
  | queueUnavailable => .queueUnavailable
  | engineTimeout => .engineTimeout
  | e => if e.isEngineError then .engineUnavailable else .internalControlledError

/-- The class attribute `error_reason` of a `DependencyError`. -/
def errorReason : Exc → String
  | databaseUnavailable => "database_unavailable"
  | storageUnavailable => "storage_unavailable"
  | queueUnavailable => "queue_unavailable"
  | engineTimeout => "engine_timeout"
  | engineProtocol => "engine_protocol_error"
  | e => if e.isEngineError then "engine_unavailable" else "dependency_unavailable"

end Exc
end MonkeyOcr
