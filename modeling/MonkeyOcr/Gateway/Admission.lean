import Mathlib
import MonkeyOcr.Calls.Ledger
import MonkeyOcr.Calls.Trace
import MonkeyOcr.Gateway.Pipeline

namespace MonkeyOcr

namespace Gateway

open Calls

/-- Who a request comes from: nobody on a public route; `none` if it is refused. -/
def identify (config : Config) (request : Request) : Option (Option Identity) :=
  if ¬ (Route.resolve config.backendUrl request.path).authRequired then some none
  else ((bearer? (request.header.get "Authorization")).bind (authenticate config.validator)).map some

/-- What the limiter of a scope counts the request under; empty if it does not count it. -/
def target (config : Config) (request : Request) : RateLimitScope → Octets
  | .clientIp => clientIp request.header request.remoteAddr
  | .apiKey => (identify config request).elim [] fun identity => identity.elim [] Identity.apiKeyFingerprint
  | .service => Bytes.utf8 (Route.resolve config.backendUrl request.path).upstreamService

/-- The limiter of the scope asks Redis about the request. -/
structure Limits (config : Config) (request : Request) (scope : RateLimitScope) : Prop where
  counted : target config request scope ≠ []
  rate : 0 < (config.profile scope (target config request scope)).ratePerSecond
  burst : 0 < (config.profile scope (target config request scope)).burst

/-- What a limiter asks Redis about the request. -/
def question (config : Config) (request : Request) (scope : RateLimitScope) : Op :=
  .eval (redisKey config scope (target config request scope)) (config.profile scope (target config request scope))

/-- The script has granted this. -/
def Grants : (op : Op) → op.Val → Prop
  | .eval .., .ok decision => decision.allowed = true
  | _, _ => False

/-- The limiter of the scope has let the request pass, or does not limit it. -/
def Cleared (config : Config) (request : Request) (scope : RateLimitScope) (past : Trace Sig) : Prop :=
  Limits config request scope → ∃ r, Grants (question config request scope) r ∧ ⟨question config request scope, r⟩ ∈ past

/-- The request that reaches the upstream is that of a client which every limiter let
pass, with the fingerprint of its own key and of nothing else. -/
structure Admitted (config : Config) (request : Request) (past : Trace Sig) (sent : Outgoing) : Prop where
  method : sent.method = request.method
  url : ∃ backend, config.parseUrl config.backendUrl = some backend ∧
    sent.url = request.url.rewriteRequestURL backend ∧ sent.upstreamUrl = config.backendUrl
  limits : ∀ scope, Cleared config request scope past
  identity : ∃ identity, identify config request = some identity ∧
    sent.header.values headerXApiKeyFingerprint =
      if request.header.hopByHop headerXApiKeyFingerprint then [] else (identity.map Identity.apiKeyFingerprint).toList
  client : sent.header.values headerXForwardedFor =
    (forwardedFor (removeHopByHopHeaders request.header) request.remoteAddr).values headerXForwardedFor
  hops : ∀ name ∈ hopHeaders, sent.header.values name = restored request.header name
  others : ∀ name, name ≠ headerXApiKeyFingerprint → name ≠ headerXRequestId → name ≠ headerXForwardedFor →
    name ∉ hopHeaders → sent.header.values name =
      let values := if request.header.hopByHop name then [] else request.header.values name
      if name = "User-Agent" ∧ values = [] then [[]] else values

/-- With a backend URL that has no path and no query, the upstream sees those of the client. -/
theorem Admitted.bare {config : Config} {request : Request} {past : Trace Sig} {sent : Outgoing}
    (admitted : Admitted config request past sent) (bare : config.parseUrl config.backendUrl = some {})
    (slash : request.url.escapedPath.head? = some 47) :
    sent.url.escapedPath = request.url.escapedPath ∧ sent.url.rawQuery = request.rawQuery := by
  obtain ⟨backend, parsed, rewritten, -⟩ := admitted.url
  cases Option.some.inj (bare.symm.trans parsed)
  rw [rewritten]
  exact Url.rewriteRequestURL_bare slash

/-- The operations that others than Redis see. -/
def Op.silent : Op → Bool
  | .roundTrip _ | .emit _ => false
  | _ => true

def Silent (past : Trace Sig) : Prop := ∀ entry ∈ past, entry.1.silent = true

/-- The events a request has left in the access log. -/
def emitted (past : Trace Sig) : List AccessLogEvent :=
  past.filterMap fun
    | ⟨.emit event, _⟩ => some event
    | _ => none

/-- The requests it has sent on. -/
def sentOn (past : Trace Sig) : List Outgoing :=
  past.filterMap fun
    | ⟨.roundTrip request, _⟩ => some request
    | _ => none

/-- A request asks the limiters about itself, is sent on once, when it is admitted, and
is logged once. -/
def contract (config : Config) (request : Request) : Contract Sig (Trace Sig) where
  allow past
    | .eval key profile => ∃ scope, Limits config request scope ∧ .eval key profile = question config request scope
    | .roundTrip sent => Silent past ∧ Admitted config request past sent
    | .emit _ => emitted past = []
    | _ => True
  answer _ _ _ := True

/-- What `Recovery` writes. -/
def BodyPart.brokenOff (requestId : Octets) : BodyPart :=
  .envelope transportInternalError "服务内部错误" requestId (some "transport_internal_error")

/-- The body is an answer with this code and this id, where it has them, and the envelope
of `Recovery` where the upstream has broken off. -/
structure Carries (body : List BodyPart) (internalCode : Int) (requestId : Octets) : Prop where
  answer : ∃ part, (body = [part] ∨ (∃ code, part = .upstream code) ∧ body = [part, .brokenOff requestId]) ∧
    (∀ code ∈ part.internalCode?, code = internalCode) ∧ ∀ id ∈ part.requestId?, id = requestId

/-- What an event of the access log says is so. -/
structure Logged (request : Request) (event : AccessLogEvent) (w : ResponseWriter) (past : Trace Sig) : Prop where
  traceId : event.traceId = event.metadata.requestId
  requestId : event.metadata.requestId = w.header.get headerXRequestId
  method : event.metadata.method = request.method
  path : event.metadata.path = request.path
  clientIp : event.metadata.clientIp = Gateway.clientIp request.header request.remoteAddr
  status : event.metadata.httpStatusCode = w.sentStatus
  upstream : ∀ status ∈ event.metadata.upstreamStatusCode, status = w.sentStatus
  body : Carries w.body event.metadata.internalCode event.traceId
  error : event.level = .error ↔ 500 ≤ w.sentStatus
  info : event.level = .info → event.metadata.internalCode = success
  refused : event.metadata.rejectReason.isSome = true → sentOn past = []
  sent : ∀ sent ∈ sentOn past, sent.header.values headerXRequestId =
    if request.header.hopByHop headerXRequestId then [] else [event.metadata.requestId]

/-- How a request may be answered, and whether it is logged. Only the refusal of a body
shows the header that is meant for the gateway itself. -/
inductive Answered (config : Config) (request : Request) (w : ResponseWriter) (past : Trace Sig) : Prop
  | preflight (method : request.method = "OPTIONS") (body : w.body = []) (shown : w.internalCodeHeader = none)
      (unlogged : emitted past = []) (unsent : sentOn past = [])
  | refused {internalCode message reason id} (refusal : bodyRefusal config request.body = some (internalCode, message, reason))
      (body : w.body = [.envelope internalCode message id (some reason)])
      (shown : w.internalCodeHeader = some internalCode) (unlogged : emitted past = []) (unsent : sentOn past = [])
  | unrouted (unknown : request.method ∉ methods ∨ request.routePath.head? ≠ some 47) (body : w.body = [.router])
      (shown : w.internalCodeHeader = none) (unlogged : emitted past = []) (unsent : sentOn past = [])
  | probe (path : request.path = Bytes.utf8 "/health") (status : w.sentStatus = 200)
      (body : Carries w.body success (w.header.get headerXRequestId)) (shown : w.internalCodeHeader = none)
      (unlogged : emitted past = [])
  | logged {event} (shown : w.internalCodeHeader = none) (once : emitted past = [event])
      (logged : Logged request event w past)

/-! ### Requests with another id -/

/-- The request, with any id. -/
structure Follows (request request' : Request) : Prop where
  method : request'.method = request.method
  path : request'.path = request.path
  rawPath : request'.rawPath = request.rawPath
  rawQuery : request'.rawQuery = request.rawQuery
  remoteAddr : request'.remoteAddr = request.remoteAddr
  body : request'.body = request.body
  values : ∀ name, name ≠ headerXRequestId → request'.header.values name = request.header.values name

section

variable {config : Config} {request request' : Request} {past : Trace Sig} {name : String} {value : Octets}

theorem Follows.withId (request : Request) (value : Octets) :
    Follows request { request with header := request.header.set headerXRequestId value } :=
  ⟨rfl, rfl, rfl, rfl, rfl, rfl, fun _ apart => Header.values_set_of_ne apart⟩

theorem Follows.trans {request'' : Request} (first : Follows request request') (rest : Follows request' request'') :
    Follows request request'' :=
  ⟨rest.method.trans first.method, rest.path.trans first.path, rest.rawPath.trans first.rawPath,
    rest.rawQuery.trans first.rawQuery, rest.remoteAddr.trans first.remoteAddr, rest.body.trans first.body,
    fun name apart => (rest.values name apart).trans (first.values name apart)⟩

theorem Follows.get (follows : Follows request request') (apart : name ≠ headerXRequestId) :
    request'.header.get name = request.header.get name := Header.get_congr (follows.values name apart)

theorem Follows.clientIp (follows : Follows request request') :
    Gateway.clientIp request'.header request'.remoteAddr = Gateway.clientIp request.header request.remoteAddr := by
  have real : request'.header.get headerXRealIp = request.header.get headerXRealIp := follows.get (by decide)
  have forwarded : request'.header.get headerXForwardedFor = request.header.get headerXForwardedFor :=
    follows.get (by decide)
  unfold Gateway.clientIp
  rw [real, forwarded, follows.remoteAddr]

theorem Follows.url (follows : Follows request request') : request'.url = request.url := by
  rw [Request.url, Request.url, follows.path, follows.rawPath, follows.rawQuery]

theorem Follows.hopByHop (follows : Follows request request') :
    request'.header.hopByHop name = request.header.hopByHop name := by
  unfold Header.hopByHop
  rw [follows.values "Connection" (by decide)]

theorem Follows.identify (follows : Follows request request') : identify config request' = identify config request := by
  unfold Gateway.identify
  rw [follows.path, follows.get (by decide)]

theorem Follows.target (follows : Follows request request') (scope : RateLimitScope) :
    target config request' scope = target config request scope := by
  cases scope with
  | clientIp => exact follows.clientIp
  | apiKey =>
    unfold Gateway.target
    rw [follows.identify]
  | service =>
    unfold Gateway.target
    rw [follows.path]

@[simp] theorem emitted_cons (op : Op) (r : op.Val) :
    emitted (⟨op, r⟩ :: past) = (match op with | .emit event => [event] | _ => []) ++ emitted past := by
  cases op <;> rfl

@[simp] theorem sentOn_cons (op : Op) (r : op.Val) :
    sentOn (⟨op, r⟩ :: past) = (match op with | .roundTrip sent => [sent] | _ => []) ++ sentOn past := by
  cases op <;> rfl

theorem Silent.emitted (silent : Silent past) : emitted past = [] := by
  rw [Gateway.emitted, List.filterMap_eq_nil_iff]
  intro entry member
  obtain ⟨op, r⟩ := entry
  have quiet := silent _ member
  cases op <;> first | rfl | cases quiet

theorem Silent.sentOn (silent : Silent past) : sentOn past = [] := by
  rw [Gateway.sentOn, List.filterMap_eq_nil_iff]
  intro entry member
  obtain ⟨op, r⟩ := entry
  have quiet := silent _ member
  cases op <;> first | rfl | cases quiet

theorem Silent.cons {op : Op} (silent : Silent past) (quiet : op.silent = true) (r : op.Val) :
    Silent (⟨op, r⟩ :: past) := by
  intro entry member
  rcases List.mem_cons.mp member with rfl | old
  · exact quiet
  · exact silent entry old

theorem Cleared.mono {scope : RateLimitScope} {past' : Trace Sig} (cleared : Cleared config request scope past)
    (later : past ⊆ past') : Cleared config request scope past' := by
  intro limits
  obtain ⟨r, grants, member⟩ := cleared limits
  exact ⟨r, grants, later member⟩

end

end Gateway

end MonkeyOcr
