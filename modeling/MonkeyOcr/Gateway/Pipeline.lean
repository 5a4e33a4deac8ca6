import Mathlib
import MonkeyOcr.Calls.Machine
import MonkeyOcr.Gateway.Identity
import MonkeyOcr.Gateway.RedisLimiter
import MonkeyOcr.Gateway.RequestId
import MonkeyOcr.Gateway.Url

namespace MonkeyOcr

namespace Gateway

open Calls

/-- How a body is read before its request goes on. -/
inductive RequestBody
  | absent
  | unreadable
  | read (length : Nat)

structure Request where
  method : String
  path : Octets
  /-- The path as it was escaped, if that is not the usual way. The router reads it. -/
  rawPath : Octets
  rawQuery : Octets
  remoteAddr : Octets
  header : Header
  body : RequestBody

def Request.url (request : Request) : Url := ⟨request.path, request.rawPath, request.rawQuery⟩

/-- What `chi` reads of the URL. -/
def Request.routePath (request : Request) : Octets :=
  let routePath := if request.rawPath ≠ [] then request.rawPath else request.path
  if routePath = [] then Bytes.utf8 "/" else routePath

/-- The handler that `chi` finds. It answers by itself where there is none. -/
inductive Routing
  | health
  | proxy
  | answered (status : Nat) (fields : List (String × Octets))

/-- The methods that `chi` knows. -/
def methods : List String := ["CONNECT", "DELETE", "GET", "HEAD", "OPTIONS", "PATCH", "POST", "PUT", "TRACE"]

/-- `chi` with the two routes of `NewRouter`: one for a method and a path, and one for the
rest of what it knows. -/
structure Router where
  find : String → Octets → Routing
  health : find "GET" (Bytes.utf8 "/health") = .health
  proxy : ∀ method ∈ methods, ∀ path, path.head? = some 47 → ¬ (method = "GET" ∧ path = Bytes.utf8 "/health") →
    find method path = .proxy

inductive RateLimitScope
  | clientIp | apiKey | service
  deriving DecidableEq

def RateLimitScope.text : RateLimitScope → String
  | clientIp => "client_ip"
  | apiKey => "api_key"
  | service => "service"

/-- The configuration of `main` that requests depend on. -/
structure Config where
  serviceName : String := "monkeyocr-gateway"
  backendUrl : String
  /-- `url.Parse`, of a URL with a host whose scheme is HTTP or HTTPS. -/
  parseUrl : String → Option Url
  router : Router
  validator : Option (List HashRecord) := none
  rateLimitKeyPrefix : Octets := Bytes.utf8 "monkeyocr:gateway:rate"
  clientIpRateLimit : TokenBucketProfile := ⟨20, 40⟩
  apiKeyRateLimit : TokenBucketProfile := ⟨10, 20⟩
  backendRateLimit : TokenBucketProfile := ⟨10, 20⟩
  corsAllowedOrigins : List Octets := []
  maxRequestBodyBytes : Int := 1048576

/-- The profile of the limiter that a scope asks, for a key. -/
def Config.profile (config : Config) (scope : RateLimitScope) (key : Octets) : TokenBucketProfile :=
  match scope with
  | .clientIp => config.clientIpRateLimit
  | .apiKey => config.apiKeyRateLimit
  | .service => if key = Bytes.utf8 "monkeyocr-backend" then config.backendRateLimit else ⟨0, 0⟩

/-- `sanitizeRateKey` -/
def sanitizeRateKey (value : Octets) : Octets :=
  let value := Bytes.trimSpace value
  if value = [] then Bytes.utf8 "unknown"
  else value.map fun b => if b = 58 ∨ b = 47 ∨ b = 32 then 95 else b

/-- `RedisLimiter.redisKey` -/
def redisKey (config : Config) (scope : RateLimitScope) (key : Octets) : Octets :=
  config.rateLimitKeyPrefix ++ [58] ++ sanitizeRateKey (Bytes.utf8 scope.text) ++ [58] ++ sanitizeRateKey key

/-- `RateLimitResults` -/
structure RateLimitResults where
  values : RateLimitScope → Option String := fun _ => none

namespace RateLimitResults

def set (results : RateLimitResults) (scope : RateLimitScope) (result : String) : RateLimitResults :=
  ⟨Function.update results.values scope (some result)⟩

def text (results : RateLimitResults) : String :=
  let parts := [RateLimitScope.clientIp, .apiKey, .service].filterMap fun scope =>
    (results.values scope).map fun value => scope.text ++ ":" ++ value
  if parts.isEmpty then "skipped" else String.intercalate "," parts

end RateLimitResults

/-- `AccessLogMetadata`. The label of the user agent is not part of it. -/
structure AccessLogMetadata where
  /-- The nanosecond that `RFC3339Nano` writes down. -/
  requestTimestamp : Int
  requestId : Octets
  method : String
  path : Octets
  queryPresent : Bool
  clientIp : Octets
  authResult : String := "skipped"
  apiKeyFingerprint : Octets := []
  upstreamService : Option String := none
  upstreamStatusCode : Option Nat := none
  httpStatusCode : Nat := 0
  internalCode : Int := 0
  internalStatusName : String := ""
  requestElapsedTime : Int := 0
  errorType : Option String := none
  rateLimitResult : String := "skipped"
  rejectReason : Option String := none

inductive Level
  | info | warning | error
  deriving DecidableEq

structure AccessLogEvent where
  timestamp : Int
  level : Level
  service : String
  message : String
  traceId : Octets
  metadata : AccessLogMetadata

/-- What is written to the body of a response. The data of a success is the status and
the service of the health probe. -/
inductive BodyPart
  | envelope (internalCode : Int) (message : String) (requestId : Octets) (errorReason : Option String)
  /-- What the upstream has sent, with the code of its envelope. -/
  | upstream (internalCode : Option Int)
  | router
  deriving DecidableEq

namespace BodyPart

def internalCode? : BodyPart → Option Int
  | envelope internalCode .. => some internalCode
  | upstream internalCode => internalCode
  | router => none

/-- The id in an envelope of the gateway itself. -/
def requestId? : BodyPart → Option Octets
  | envelope _ _ requestId _ => some requestId
  | _ => none

end BodyPart

/-- What is written to a client. The header of the internal code is kept apart, as
the number it spells. -/
structure ResponseWriter where
  header : Header := ⟨fun _ => []⟩
  internalCodeHeader : Option Int := none
  status : Nat := 0
  body : List BodyPart := []

namespace ResponseWriter

/-- The head of a response is written once. -/
def writeHeader (w : ResponseWriter) (status : Nat) : ResponseWriter := if w.status = 0 then { w with status } else w

def write (w : ResponseWriter) (part : BodyPart) : ResponseWriter := { w with body := w.body ++ [part] }

/-- The status that the server sends. -/
def sentStatus (w : ResponseWriter) : Nat := if w.status = 0 then 200 else w.status

end ResponseWriter

/-- `ResponseStatusRecorder` -/
structure Recorder where
  writer : ResponseWriter
  status : Nat := 0
  internalCode : Option Int := none

namespace Recorder

def writeHeader (recorder : Recorder) (status : Nat) : Recorder where
  writer := { recorder.writer with internalCodeHeader := none }.writeHeader status
  status
  internalCode := recorder.writer.internalCodeHeader <|> recorder.internalCode

def statusOf (recorder : Recorder) : Nat := if recorder.status = 0 then 200 else recorder.status

end Recorder

/-! ### Envelopes -/

/-- `writeEnvelope` before its `WriteHeader`. A head that is sent does not change. -/
def ResponseWriter.head (w : ResponseWriter) (internalCode : Int) : ResponseWriter :=
  if w.status = 0 then
    { w with
      header := w.header.set "Content-Type" (Bytes.utf8 "application/json"), internalCodeHeader := some internalCode }
  else w

def ResponseWriter.envelope (w : ResponseWriter) (internalCode : Int) (message : String) (reason : Option String) :
    ResponseWriter :=
  w.write (.envelope internalCode message (w.header.get headerXRequestId) reason)

/-- `writeEnvelope` to the connection itself. -/
def ResponseWriter.writeEnvelope (w : ResponseWriter) (status : Nat) (internalCode : Int) (message : String)
    (reason : Option String) : ResponseWriter :=
  ((w.head internalCode).writeHeader status).envelope internalCode message reason

/-- `writeEnvelope` through the recorder. -/
def Recorder.writeEnvelope (recorder : Recorder) (status : Nat) (internalCode : Int) (message : String)
    (reason : Option String) : Recorder :=
  let recorder := { recorder with writer := recorder.writer.head internalCode }.writeHeader status
  { recorder with writer := recorder.writer.envelope internalCode message reason }

/-- The code that `WriteTransportError` takes for a status. -/
def transportCode (status : Nat) : Nat × Int :=
  if status = 502 then (502, transportBadGateway)
  else if status = 504 then (504, transportGatewayTimeout)
  else (500, transportInternalError)

def Recorder.writeTransportError (recorder : Recorder) (status : Nat) (message reason : String) : Recorder :=
  recorder.writeEnvelope (transportCode status).1 (transportCode status).2 message (some reason)

def userUnauthorized : Int := 40001

def apiKeyRateLimited : Int := 40003

/-- The names of the codes that the gateway writes or lets pass, `UNKNOWN` for others. -/
def internalStatusName (code : Int) : String :=
  let names : List (Int × String) :=
    [(0, "SUCCESS"), (10001, "COMMON_INVALID_ARGUMENT"), (10002, "COMMON_RESOURCE_NOT_FOUND"),
      (10003, "COMMON_STATE_CONFLICT"), (10004, "COMMON_IDEMPOTENCY_CONFLICT"), (20001, "UPLOAD_NOT_FOUND"),
      (20002, "UPLOAD_NOT_COMPLETED"), (20003, "UPLOAD_HASH_MISMATCH"), (20004, "UPLOAD_UNSUPPORTED_FILE_TYPE"),
      (20005, "UPLOAD_FILE_TOO_LARGE"), (20006, "UPLOAD_SECURITY_REJECTED"), (30001, "JOB_NOT_FOUND"),
      (30002, "JOB_NOT_CANCELLABLE"), (30003, "JOB_NOT_RETRYABLE"), (30004, "JOB_PROCESSING_FAILED"),
      (30005, "JOB_RESULT_NOT_READY"), (40001, "USER_UNAUTHORIZED"), (40002, "API_KEY_REVOKED"),
      (40003, "API_KEY_RATE_LIMITED"), (50001, "ENGINE_UNAVAILABLE"), (50002, "ENGINE_TIMEOUT"),
      (50003, "STORAGE_UNAVAILABLE"), (50004, "QUEUE_UNAVAILABLE"), (50005, "DATABASE_UNAVAILABLE"),
      (59999, "INTERNAL_CONTROLLED_ERROR"), (90000, "TRANSPORT_INTERNAL_ERROR"),
      (90002, "TRANSPORT_BAD_GATEWAY"), (90004, "TRANSPORT_GATEWAY_TIMEOUT")]
  (names.lookup code).getD "UNKNOWN"

/-! ### What the pipeline awaits -/

/-- A request as the transport is given it for the host of a URL. -/
structure Outgoing where
  method : String
  url : Url
  header : Header
  upstreamUrl : String

/-- What the transport makes of a request. A response may break off when its head is
sent; an event stream may carry a header of its own with an internal code. Informational
responses before it are left out. -/
inductive RoundTrip
  | timeout
  | failed
  | response (statusCode : Nat) (mediaType : Option String) (bodyLength : Nat) (body : Option Codec.Json)
      (internalCodeHeader : Option Int) (breaks : Bool)

inductive Op
  | entropy
  | now
  | eval (key : Octets) (profile : TokenBucketProfile)
  | roundTrip (request : Outgoing)
  | emit (event : AccessLogEvent)

abbrev Op.Val : Op → Type
  | entropy => Entropy
  | now => Int
  | eval .. => Except Unit RateLimitDecision
  | roundTrip _ => RoundTrip
  | emit _ => Unit

def Sig : Signature := ⟨Op, Op.Val⟩

/-- Parts of the gateway that do not panic. -/
abbrev Program := Prog Sig Empty

def await {ε : Type} (op : Op) : Prog Sig ε op.Val := .call op fun r => .ret (.ok r)

/-! ### The stages -/

structure GatewayContext where
  recorder : Recorder
  request : Request
  route : Route
  metadata : AccessLogMetadata
  identity : Option Identity := none
  rateResults : RateLimitResults := {}
  startedAt : Int

/-- A stage returns whether the chain goes on. It may panic, with the context as it is. -/
abbrev Stage := GatewayContext → Prog Sig GatewayContext (Bool × GatewayContext)

namespace Pipeline

variable (config : Config)

/-- `beginRequest` and `newGatewayContext`. -/
def newGatewayContext (writer : ResponseWriter) (request : Request) : Program GatewayContext := do
  let route := Route.resolve config.backendUrl request.path
  let start ← await .now
  let entropy ← await .entropy
  let requestId := resolve (request.header.get headerXRequestId) entropy
  let request := { request with header := request.header.set headerXRequestId requestId }
  let writer := { writer with header := writer.header.set headerXRequestId requestId }
  return {
    recorder := { writer }
    request
    route
    metadata :=
      { requestTimestamp := start
        requestId
        method := request.method
        path := request.path
        queryPresent := request.rawQuery ≠ []
        clientIp := clientIp request.header request.remoteAddr
        upstreamService := if route.upstreamService ≠ "" then some route.upstreamService else none }
    startedAt := start }

/-- `authenticate`: the identity, unless the request is refused, and the metadata. -/
def authenticate (request : Request) (metadata : AccessLogMetadata) (route : Route) :
    Option (Option Identity) × AccessLogMetadata :=
  if ¬ route.authRequired then (some none, { metadata with authResult := "public" })
  else
    match bearer? (request.header.get "Authorization") with
    | none => (none, { metadata with authResult := "missing_api_key", rejectReason := some "missing API key" })
    | some token =>
      match Gateway.authenticate config.validator token with
      | none =>
        (none, { metadata with
          authResult := "invalid_api_key", rejectReason := some "invalid API key", errorType := some "auth_error" })
      | some identity =>
        (some (some identity), { metadata with
          authResult := "fingerprint_ready", apiKeyFingerprint := identity.apiKeyFingerprint })

/-- `GetRateLimitDecision` of the limiter of a scope. -/
def getRateLimitDecision (scope : RateLimitScope) (key : Octets) :
    Prog Sig GatewayContext (Except Unit RateLimitDecision) :=
  let profile := config.profile scope key
  if profile.ratePerSecond ≤ 0 ∨ profile.burst ≤ 0 then return .ok { allowed := true, result := "disabled" }
  else await (.eval (redisKey config scope key) profile)

def noteResult (context : GatewayContext) (scope : RateLimitScope) (result : String) : GatewayContext :=
  let results := context.rateResults.set scope result
  { context with rateResults := results, metadata := { context.metadata with rateLimitResult := results.text } }

/-- `isAllowedByLimiter` -/
def isAllowedByLimiter (context : GatewayContext) (scope : RateLimitScope) (key : Octets) :
    Prog Sig GatewayContext (Bool × GatewayContext) := do
  if key = [] then return (true, noteResult context scope "skipped")
  else
    let decision ← getRateLimitDecision config scope key
    match decision with
    | .error () =>
      let context := noteResult context scope "error"
      return (false, { context with metadata := { context.metadata with errorType := some "rate_limit_error" } })
    | .ok decision =>
      let context := noteResult context scope (if decision.result = "" then "allowed" else decision.result)
      if decision.allowed then return (true, context)
      else
        return (false, { context with
          metadata := { context.metadata with rejectReason := some (scope.text ++ " rate limit exceeded") } })

/-- `writeBusinessError` -/
def writeBusinessError (context : GatewayContext) (internalCode : Int) (message reason : String) : GatewayContext :=
  { context with
    metadata := { context.metadata with internalCode, internalStatusName := internalStatusName internalCode }
    recorder := context.recorder.writeEnvelope 200 internalCode message (some reason) }

/-- A stage that asks a limiter and refuses with this message. -/
def limitStage (scope : RateLimitScope) (key : Octets) (message reason : String) : Stage := fun context => do
  let (allowed, context) ← isAllowedByLimiter config context scope key
  if allowed then return (true, context)
  else return (false, writeBusinessError context apiKeyRateLimited message reason)

def healthResponseStage : Stage := fun context =>
  let metadata := { context.metadata with authResult := "public", rateLimitResult := "skipped" }
  return (true, { context with metadata, recorder := context.recorder.writeEnvelope 200 success "操作成功" none })

def clientIpRateLimitStage : Stage := fun context =>
  limitStage config .clientIp context.metadata.clientIp "请求过于频繁" "client_ip_rate_limited" context

def authenticationStage : Stage := fun context =>
  match authenticate config context.request context.metadata context.route with
  | (some identity, metadata) => return (true, { context with identity, metadata })
  | (none, metadata) =>
    let context := noteResult (noteResult { context with metadata } .apiKey "skipped") .service "skipped"
    return (false, writeBusinessError context userUnauthorized "API Key 无效或缺失" "user_unauthorized")

def apiKeyRateLimitStage : Stage := fun context =>
  match context.identity with
  | none => return (true, noteResult context .apiKey "skipped")
  | some identity =>
    limitStage config .apiKey identity.apiKeyFingerprint "API Key 请求过于频繁" "api_key_rate_limited" context

def serviceRateLimitStage : Stage := fun context =>
  limitStage config .service (Bytes.utf8 context.route.upstreamService) "服务请求过于频繁" "service_rate_limited" context

def identityHeaderStage : Stage := fun context =>
  let header := Identity.apply context.request.header context.identity
  return (true, { context with request := { context.request with header } })

/-- `ReverseProxy.ServeHTTP`: what the recorder has been told when it returns, or panics. -/
def serveUpstream (recorder : Recorder) (request : Request) (upstreamUrl : String) :
    Prog Sig Recorder Recorder :=
  let upstreamUrl := if upstreamUrl = "" then config.backendUrl else upstreamUrl
  match config.parseUrl upstreamUrl with
  | none => return recorder.writeTransportError 500 "网关配置无效" "invalid_upstream_configuration"
  | some backend =>
    if ¬ isPrint (upgradeType request.header) then
      return recorder.writeTransportError 502 "上游服务不可用" "transport_bad_gateway"
    else do
      let header := proxiedHeader request.header request.remoteAddr
      let url := request.url.rewriteRequestURL backend
      let answer ← await (.roundTrip ⟨request.method, url, header, upstreamUrl⟩)
      match answer with
      | .timeout => return recorder.writeTransportError 504 "上游服务超时" "transport_gateway_timeout"
      | .failed => return recorder.writeTransportError 502 "上游服务不可用" "transport_bad_gateway"
      | .response statusCode mediaType bodyLength body internalCodeHeader breaks =>
        match validateUpstreamResponse ⟨statusCode, mediaType, bodyLength, body, header.get headerXRequestId⟩ with
        | .error _ => return recorder.writeTransportError 502 "上游服务不可用" "transport_bad_gateway"
        | .ok validated =>
          let code := match validated with
            | .stream => internalCodeHeader
            | .envelope internalCode => some internalCode
          let recorder := { recorder with
            writer := { recorder.writer with internalCodeHeader := code <|> recorder.writer.internalCodeHeader } }
          let recorder := recorder.writeHeader statusCode
          let recorder := { recorder with writer := recorder.writer.write (.upstream validated.internalCode?) }
          if breaks then .raise recorder else return recorder

def proxyStage : Stage := fun context => do
  let recorder ← (serveUpstream config context.recorder context.request context.route.upstreamAddr).mapError
    fun recorder => { context with recorder }
  let context := { context with recorder }
  if context.route.upstreamService ≠ "" then
    return (true, { context with metadata := { context.metadata with upstreamStatusCode := some recorder.statusOf } })
  else return (true, context)

/-- `runStageChain` -/
def runStageChain : List Stage → GatewayContext → Prog Sig GatewayContext GatewayContext
  | [], context => return context
  | stage :: rest, context => do
    let (goesOn, context) ← stage context
    if goesOn then runStageChain rest context else return context

def shouldSkipSuccessfulHealthProbeLog (metadata : AccessLogMetadata) : Bool :=
  metadata.path = Bytes.utf8 "/health" ∧ metadata.upstreamService = none ∧ metadata.httpStatusCode = 200 ∧
    metadata.internalCode = success

/-- The event that `emitLog` sends, which nobody sees of a successful health probe. -/
def accessLogEvent (context : GatewayContext) (finished : Int) : AccessLogEvent :=
  let status := context.recorder.statusOf
  let metadata := { context.metadata with httpStatusCode := status }
  let metadata := match context.recorder.internalCode with
    | some internalCode => { metadata with internalCode, internalStatusName := internalStatusName internalCode }
    | none => metadata
  let metadata := { metadata with requestElapsedTime := (finished - context.startedAt).tdiv 1000000 }
  let metadata := if 500 ≤ status then { metadata with errorType := some "upstream_error" } else metadata
  { timestamp := context.startedAt
    level := if 500 ≤ status then .error else if metadata.internalCode ≠ success then .warning else .info
    service := config.serviceName
    message := "gateway request"
    traceId := metadata.requestId
    metadata }

/-- `emitLog` -/
def emitLog (context : GatewayContext) : Program Unit := do
  let finished ← await .now
  let event := accessLogEvent config context finished
  if shouldSkipSuccessfulHealthProbeLog event.metadata then return ()
  else await (.emit event)

/-- `runGatewayStages`; the `defer` runs after a panic too. What is left of the panic
is whether there was one. -/
def runGatewayStages (stages : List Stage) (writer : ResponseWriter) (request : Request) :
    Program (Bool × Recorder) := do
  let context ← newGatewayContext config writer request
  let outcome ← (runStageChain stages context).attempt
  match outcome with
  | .ok context =>
    emitLog config context
    return (false, context.recorder)
  | .error context =>
    emitLog config context
    return (true, context.recorder)

def stages : List Stage :=
  [clientIpRateLimitStage config, authenticationStage config, apiKeyRateLimitStage config,
    serviceRateLimitStage config, identityHeaderStage, proxyStage config]

end Pipeline

/-! ### The router -/

/-- `Recovery`. It writes its envelope behind a response that has broken off, too, where
the connection still takes it. -/
def recovery (panicked : Bool) (w : ResponseWriter) : ResponseWriter :=
  if panicked then w.writeEnvelope 500 transportInternalError "服务内部错误" (some "transport_internal_error") else w

/-- `corsMiddleware`: the response to a preflight, or what is said of others. -/
def cors (config : Config) (w : ResponseWriter) (request : Request) : Bool × ResponseWriter :=
  let origin := Bytes.trimSpace (request.header.get "Origin")
  let allowed := (config.corsAllowedOrigins.map Bytes.trimSpace).filter (· ≠ [])
  if ¬ allowed.contains origin then (false, w)
  else
    let requestHeaders := Bytes.trimSpace (request.header.get "Access-Control-Request-Headers")
    let requestHeaders :=
      if requestHeaders = [] then Bytes.utf8 "Authorization,Content-Type,X-Request-ID" else requestHeaders
    let header := (((((w.header.set "Access-Control-Allow-Origin" origin).add "Vary" (Bytes.utf8 "Origin")).set
      "Access-Control-Allow-Credentials" (Bytes.utf8 "true")).set
      "Access-Control-Allow-Methods" (Bytes.utf8 "GET,POST,PUT,PATCH,DELETE,OPTIONS")).set
      "Access-Control-Allow-Headers" requestHeaders)
    let w := { w with header }
    if request.method = "OPTIONS" then (true, w.writeHeader 200) else (false, w)

/-- `requestBodyLimit`: the refusal of a body. -/
def bodyRefusal (config : Config) : RequestBody → Option (Int × String × String)
  | .absent => none
  | .unreadable => some (10001, "请求体无效", "invalid_request_body")
  | .read length =>
    let limit := if config.maxRequestBodyBytes ≤ 0 then 1048576 else config.maxRequestBodyBytes
    if limit < length then some (20005, "请求体过大", "request_body_too_large") else none

/-- What `chi` answers by itself. -/
def ResponseWriter.answered (w : ResponseWriter) (status : Nat) (fields : List (String × Octets)) : ResponseWriter :=
  let header := fields.foldl (fun header field => header.set field.1 field.2) w.header
  ({ w with header }.writeHeader status).write .router

/-- `HandleHealth` or `HandleProxy`, within `Recovery`. -/
def serveStages (config : Config) (stages : List Stage) (w : ResponseWriter) (request : Request) :
    Program ResponseWriter := do
  let (panicked, recorder) ← Pipeline.runGatewayStages config stages w request
  return recovery panicked recorder.writer

/-- The handler of `NewRouter`. -/
def serve (config : Config) (request : Request) : Program ResponseWriter := do
  let entropy ← await .entropy
  let requestId := middlewareRequestId (request.header.values headerXRequestId).head? entropy
  let request := { request with header := request.header.set headerXRequestId requestId }
  let w : ResponseWriter := { header := Header.set ⟨fun _ => []⟩ headerXRequestId requestId }
  let (answered, w) := cors config w request
  if answered then return w
  else
    match bodyRefusal config request.body with
    | some (internalCode, message, reason) => return w.writeEnvelope 200 internalCode message (some reason)
    | none =>
      match config.router.find request.method request.routePath with
      | .health => serveStages config [Pipeline.healthResponseStage] w request
      | .proxy => serveStages config (Pipeline.stages config) w request
      | .answered status fields => return w.answered status fields

/-! ### The replicas of the gateway, their Redis and their upstream -/

/-- What an observer counts of a key: the requests granted, how often the key was lost,
and how far the readings of the clocks went forwards. -/
structure Tally where
  granted : Nat := 0
  losses : Nat := 0
  way : Int := 0

structure World where
  redis : Octets → Option BucketHash := fun _ => none
  tally : Octets → Tally := fun _ => {}
  /-- The requests that reached the upstream, newest first. -/
  arrivals : List (Nat × Outgoing) := []
  accessLog : List (Nat × AccessLogEvent) := []

/-- What is left open of an operation. A script may fail before or after it ran. -/
inductive Choice
  | entropy (entropy : Entropy)
  | time (nanoseconds : Int)
  | script (nowMs : Int)
  | unasked
  | unanswered (nowMs : Int)
  | answer (answer : RoundTrip)
  | go

namespace World

/-- The script runs at a key, at the reading of the clock of a replica. -/
def runScript (w : World) (key : Octets) (profile : TokenBucketProfile) (nowMs : Int) : RateLimitDecision × World :=
  let (decision, hash) := Gateway.getRateLimitDecision profile nowMs (w.redis key)
  let moved := (w.redis key).elim 0 fun hash => max 0 (nowMs - hash.updatedAtMs)
  let tally := w.tally key
  (decision, { w with
    redis := Function.update w.redis key hash
    tally := Function.update w.tally key { tally with
      granted := tally.granted + if decision.allowed then 1 else 0
      way := tally.way + moved } })

def exec (i : Nat) (w : World) : (op : Op) → Choice → Option (op.Val × World)
  | .entropy, .entropy entropy => some (entropy, w)
  | .now, .time nanoseconds => some (nanoseconds, w)
  | .eval key profile, .script nowMs =>
    let (decision, w) := w.runScript key profile nowMs
    some (.ok decision, w)
  | .eval _ _, .unasked => some (.error (), w)
  | .eval key profile, .unanswered nowMs => some (.error (), (w.runScript key profile nowMs).2)
  | .roundTrip request, .answer answer => some (answer, { w with arrivals := (i, request) :: w.arrivals })
  | .emit event, .go => some ((), { w with accessLog := (i, event) :: w.accessLog })
  | _, _ => none

/-- A key expires, is evicted or is lost in a restart of the server. -/
def lose (w : World) (key : Octets) : World :=
  let tally := w.tally key
  { w with
    redis := Function.update w.redis key none
    tally := Function.update w.tally key { tally with losses := tally.losses + 1 } }

end World

abbrev State := Sys Sig World Request Empty ResponseWriter

/-- Any number of requests at any number of replicas, in any interleaving of what they
await. -/
def system (config : Config) : Machine Sig World Request Choice Octets Empty ResponseWriter where
  program := serve config
  exec i op choice w := w.exec i op choice
  env key w := some (w.lose key)

/-- No request yet. -/
def idle : State := ⟨{}, []⟩

abbrev Reaches (config : Config) : State → State → Prop := (system config).Run fun _ _ => True

end Gateway

end MonkeyOcr
