import MonkeyOcr.Access.Confinement
import MonkeyOcr.Access.Verification
import MonkeyOcr.Browser.Events
import MonkeyOcr.Browser.Progress
import MonkeyOcr.Cleanup.Deletion
import MonkeyOcr.Cleanup.Leftovers
import MonkeyOcr.Cleanup.Sources
import MonkeyOcr.Delivery.Guarantee
import MonkeyOcr.Delivery.PausedPartitions
import MonkeyOcr.Gateway.Expiry
import MonkeyOcr.Gateway.Recorded
import MonkeyOcr.Gateway.RedisLimiter
import MonkeyOcr.Gateway.RequestId
import MonkeyOcr.InMemory.Agreement
import MonkeyOcr.Lifecycle.Attempts
import MonkeyOcr.Lifecycle.Cancellation
import MonkeyOcr.Lifecycle.Checkpoints
import MonkeyOcr.Logging.ClickHouseWriter
import MonkeyOcr.Logging.Drained
import MonkeyOcr.Logging.FallbackDrained
import MonkeyOcr.Logging.PoisonMessages
import MonkeyOcr.Logging.Redaction
import MonkeyOcr.Multipart.Completion
import MonkeyOcr.Multipart.Tiling
import MonkeyOcr.Objects.Published
import MonkeyOcr.Pages.Retries
import MonkeyOcr.Requests.Idempotency
import MonkeyOcr.Sandbox.Confinement
import MonkeyOcr.Sandbox.Survival
import MonkeyOcr.Sequential.Budget
import MonkeyOcr.Statements.Chain
import MonkeyOcr.Streaming.Closing
import MonkeyOcr.Streaming.Delivery
