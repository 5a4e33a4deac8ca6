import MonkeyOcr.Codec.Json
import MonkeyOcr.Text.Trim

namespace MonkeyOcr

namespace Logging

open Codec

/-- `LogEvent`. The type is that of its timestamp. -/
structure LogEvent (τ : Type) where
  eventId : String
  timestamp : τ
  level : String
  service : String
  message : String
  traceId : String
  metadata : Option (List (String × Json))

def validLevels : List String := ["DEBUG", "INFO", "WARNING", "ERROR", "AUDIT"]

/-- `ValidateEvent`, with `Timestamp.IsZero`. -/
def validateEvent {τ : Type} (isZero : τ → Bool) (event : LogEvent τ) : Except String Unit :=
  if trimSpace event.eventId = "" then .error "event_id is required"
  else if isZero event.timestamp then .error "timestamp is required"
  else if event.level ∉ validLevels then .error s!"invalid log level {event.level.quote}"
  else if trimSpace event.service = "" then .error "service is required"
  else if trimSpace event.message = "" then .error "message is required"
  else if event.metadata.isNone then .error "metadata is required"
  else .ok ()

end Logging

end MonkeyOcr
