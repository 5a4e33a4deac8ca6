import Mathlib
import MonkeyOcr.Gateway.Admission

namespace MonkeyOcr

namespace Gateway

open Calls

/-- A part of the handling of the request keeps its contract. -/
abbrev Runs {ε α : Type} (config : Config) (request : Request) (p : Prog Sig ε α) (Q : α → Trace Sig → Prop)
    (E : ε → Trace Sig → Prop) (past : Trace Sig) : Prop :=
  p.Meets Trace.ghost (contract config request) Q E past

/-- What the metadata tells of the request itself. -/
structure Described (request : Request) (metadata : AccessLogMetadata) : Prop where
  method : metadata.method = request.method
  path : metadata.path = request.path
  clientIp : metadata.clientIp = Gateway.clientIp request.header request.remoteAddr

/-- What a stage adds to the metadata leaves the rest as it is. -/
structure Noted (metadata metadata' : AccessLogMetadata) : Prop where
  method : metadata'.method = metadata.method
  path : metadata'.path = metadata.path
  clientIp : metadata'.clientIp = metadata.clientIp
  requestId : metadata'.requestId = metadata.requestId
  upstream : metadata'.upstreamStatusCode = metadata.upstreamStatusCode

/-- Nothing is written yet. -/
structure Fresh (recorder : Recorder) (requestId : Octets) : Prop where
  status : recorder.status = 0
  internalCode : recorder.internalCode = none
  written : recorder.writer.status = 0
  shown : recorder.writer.internalCodeHeader = none
  header : recorder.writer.header.get headerXRequestId = requestId
  body : recorder.writer.body = []

/-- A response is written, and the recorder has noted it. -/
structure Written (recorder : Recorder) (requestId : Octets) : Prop where
  status : recorder.status ≠ 0
  written : recorder.writer.status = recorder.status
  shown : recorder.writer.internalCodeHeader = none
  header : recorder.writer.header.get headerXRequestId = requestId
  body : ∃ part, recorder.writer.body = [part] ∧ (∀ code ∈ part.internalCode?, recorder.internalCode = some code) ∧
    ∀ id ∈ part.requestId?, id = requestId

/-- The response is that of the upstream. -/
def FromUpstream (recorder : Recorder) : Prop := ∃ code, recorder.writer.body = [.upstream code]

/-- The request has passed some stages, and nobody but Redis has seen it. -/
structure Begun (config : Config) (request : Request) (context : GatewayContext) (past : Trace Sig) : Prop where
  follows : Follows request context.request
  requestId : context.request.header.values headerXRequestId = [context.metadata.requestId]
  route : context.route = Route.resolve config.backendUrl request.path
  described : Described request context.metadata
  fresh : Fresh context.recorder context.metadata.requestId
  upstream : context.metadata.upstreamStatusCode = none
  welcome : context.metadata.rejectReason = none
  silent : Silent past

/-- The request has passed these limiters too, for this identity. -/
structure Through (config : Config) (request : Request) (scopes : List RateLimitScope) (identity : Option Identity)
    (context : GatewayContext) (past : Trace Sig) : Prop where
  begun : Begun config request context past
  identity : context.identity = identity
  cleared : ∀ scope ∈ scopes, Cleared config request scope past

/-- Every limiter has let the request pass, and its header is that of its identity. -/
structure Ready (config : Config) (request : Request) (identity : Option Identity) (context : GatewayContext)
    (past : Trace Sig) : Prop where
  method : context.request.method = request.method
  url : context.request.url = request.url
  remoteAddr : context.request.remoteAddr = request.remoteAddr
  route : context.route = Route.resolve config.backendUrl request.path
  fingerprint : context.request.header.values headerXApiKeyFingerprint =
    (identity.map Identity.apiKeyFingerprint).toList
  requestId : context.request.header.values headerXRequestId = [context.metadata.requestId]
  others : ∀ name, name ≠ headerXApiKeyFingerprint → name ≠ headerXRequestId →
    context.request.header.values name = request.header.values name
  described : Described request context.metadata
  fresh : Fresh context.recorder context.metadata.requestId
  upstream : context.metadata.upstreamStatusCode = none
  welcome : context.metadata.rejectReason = none
  silent : Silent past
  cleared : ∀ scope, Cleared config request scope past

/-- The response of the upstream, or one in its place, is written. -/
structure Answer (request : Request) (requestId : Octets) (recorder : Recorder) (past : Trace Sig) : Prop where
  written : Written recorder requestId
  unlogged : emitted past = []
  sent : ∀ sent ∈ sentOn past, sent.header.values headerXRequestId =
    if request.header.hopByHop headerXRequestId then [] else [requestId]

/-- The chain of stages is done with the request. -/
structure Ended (request : Request) (context : GatewayContext) (past : Trace Sig) : Prop where
  described : Described request context.metadata
  written : Written context.recorder context.metadata.requestId
  upstream : ∀ status ∈ context.metadata.upstreamStatusCode, status = context.recorder.statusOf
  refused : context.metadata.rejectReason.isSome = true → sentOn past = []
  unlogged : emitted past = []
  sent : ∀ sent ∈ sentOn past, sent.header.values headerXRequestId =
    if request.header.hopByHop headerXRequestId then [] else [context.metadata.requestId]

/-- The chain has panicked, when the upstream broke off. -/
def Broken (request : Request) (context : GatewayContext) (past : Trace Sig) : Prop :=
  Ended request context past ∧ FromUpstream context.recorder

/-- Where a stage lets the request pass, or the chain ends there. -/
def Staged (request : Request) (passed : GatewayContext → Trace Sig → Prop) (r : Bool × GatewayContext)
    (past : Trace Sig) : Prop :=
  if r.1 then passed r.2 past else Ended request r.2 past

section

variable {config : Config} {request : Request} {context : GatewayContext} {past : Trace Sig}
  {recorder : Recorder} {requestId : Octets}

theorem Fresh.writeEnvelope (fresh : Fresh recorder requestId) {status : Nat} (some' : status ≠ 0) (internalCode : Int)
    (message : String) (reason : Option String) :
    Written (recorder.writeEnvelope status internalCode message reason) requestId := by
  have kept : (recorder.writer.header.set "Content-Type" (Bytes.utf8 "application/json")).get headerXRequestId =
      requestId := by
    rw [← fresh.header]
    exact Header.get_congr (Header.values_set_of_ne (by decide))
  refine ⟨some', ?_, ?_, ?_, .envelope internalCode message requestId reason, ?_, ?_, ?_⟩
  · simp [Recorder.writeEnvelope, Recorder.writeHeader, ResponseWriter.head, ResponseWriter.writeHeader,
      ResponseWriter.envelope, ResponseWriter.write, fresh.written]
  · simp [Recorder.writeEnvelope, Recorder.writeHeader, ResponseWriter.head, ResponseWriter.writeHeader,
      ResponseWriter.envelope, ResponseWriter.write, fresh.written]
  · simp [Recorder.writeEnvelope, Recorder.writeHeader, ResponseWriter.head, ResponseWriter.writeHeader,
      ResponseWriter.envelope, ResponseWriter.write, fresh.written, kept]
  · simp [Recorder.writeEnvelope, Recorder.writeHeader, ResponseWriter.head, ResponseWriter.writeHeader,
      ResponseWriter.envelope, ResponseWriter.write, fresh.written, fresh.body, kept]
  · intro code own
    cases own
    simp [Recorder.writeEnvelope, Recorder.writeHeader, ResponseWriter.head, fresh.written]
  · intro id own
    cases own
    rfl

theorem Fresh.writeTransportError (fresh : Fresh recorder requestId) (status : Nat) (message reason : String) :
    Written (recorder.writeTransportError status message reason) requestId := by
  apply fresh.writeEnvelope
  unfold transportCode
  by_cases badGateway : status = 502
  · simp [badGateway]
  · by_cases timeout : status = 504
    · simp [timeout]
    · simp [badGateway, timeout]

/-- The status that the recorder has noted is the one that is sent. -/
theorem Written.sent (written : Written recorder requestId) : recorder.statusOf = recorder.writer.sentStatus := by
  rw [Recorder.statusOf, ResponseWriter.sentStatus, written.written]

theorem Described.noted {metadata metadata' : AccessLogMetadata} (described : Described request metadata)
    (noted : Noted metadata metadata') : Described request metadata' :=
  ⟨noted.method.trans described.method, noted.path.trans described.path, noted.clientIp.trans described.clientIp⟩

/-- A note that is no refusal. -/
theorem Begun.note (begun : Begun config request context past) {context' : GatewayContext}
    (noted : Noted context.metadata context'.metadata) (welcome : context'.metadata.rejectReason = none)
    (request' : context'.request = context.request) (route : context'.route = context.route)
    (recorder : context'.recorder = context.recorder) : Begun config request context' past := by
  refine ⟨?_, ?_, route.trans begun.route, begun.described.noted noted, ?_, noted.upstream.trans begun.upstream, welcome,
    begun.silent⟩
  · rw [request']
    exact begun.follows
  · rw [request', noted.requestId]
    exact begun.requestId
  · rw [recorder, noted.requestId]
    exact begun.fresh

theorem Begun.asked (begun : Begun config request context past) {op : Op} (quiet : op.silent = true) (r : op.Val) :
    Begun config request context (⟨op, r⟩ :: past) :=
  { begun with silent := begun.silent.cons quiet r }

/-- What refuses a request writes it down. -/
theorem Begun.refuse (begun : Begun config request context past) {context' : GatewayContext}
    (recorder : context'.recorder = context.recorder) (noted : Noted context.metadata context'.metadata) (code : Int)
    (message reason : String) : Ended request (Pipeline.writeBusinessError context' code message reason) past := by
  have described := begun.described.noted noted
  refine ⟨⟨described.method, described.path, described.clientIp⟩, ?_, ?_, ?_, ?_, ?_⟩
  · have written := begun.fresh.writeEnvelope (by decide : (200 : Nat) ≠ 0) code message (some reason)
    rw [← recorder, ← noted.requestId] at written
    exact written
  · intro status member
    have asked : context'.metadata.upstreamStatusCode = some status := member
    rw [noted.upstream, begun.upstream] at asked
    cases asked
  · intro _
    exact begun.silent.sentOn
  · exact begun.silent.emitted
  · rw [begun.silent.sentOn]
    intro sent member
    cases member

/-- A limiter lets the request pass, or refuses it. -/
theorem isAllowedByLimiter_runs (scope : RateLimitScope) {scopes : List RateLimitScope} {identity : Option Identity}
    (through : Through config request scopes identity context past) :
    Runs config request (Pipeline.isAllowedByLimiter config context scope (target config request scope))
      (fun r past => if r.1 then Through config request (scope :: scopes) identity r.2 past
        else Begun config request context past ∧ r.2.recorder = context.recorder ∧ Noted context.metadata r.2.metadata)
      (fun _ _ => False) past := by
  have begun := through.begun
  have noted : ∀ result, Noted context.metadata (Pipeline.noteResult context scope result).metadata := by
    intro result
    exact ⟨rfl, rfl, rfl, rfl, rfl⟩
  have free : ¬ Limits config request scope → ∀ result,
      Through config request (scope :: scopes) identity (Pipeline.noteResult context scope result) past := by
    intro unlimited result
    refine ⟨begun.note (noted result) begun.welcome rfl rfl rfl, through.identity, ?_⟩
    intro other member
    rcases List.mem_cons.mp member with rfl | old
    · intro limits
      exact absurd limits unlimited
    · exact through.cleared other old
  unfold Pipeline.isAllowedByLimiter
  by_cases uncounted : target config request scope = []
  · rw [if_pos uncounted]
    exact free (fun limits => limits.counted uncounted) "skipped"
  · rw [if_neg uncounted, Runs, Prog.meets_bind]
    unfold Pipeline.getRateLimitDecision
    by_cases disabled : (config.profile scope (target config request scope)).ratePerSecond ≤ 0 ∨
        (config.profile scope (target config request scope)).burst ≤ 0
    · simp only [disabled, if_true]
      refine free (fun limits => ?_) "disabled"
      have rate := limits.rate
      have burst := limits.burst
      omega
    · simp only [disabled, if_false]
      have limits : Limits config request scope := ⟨uncounted, by omega, by omega⟩
      refine ⟨⟨scope, limits, rfl⟩, ?_⟩
      intro r _
      have asked : Begun config request context (⟨question config request scope, r⟩ :: past) :=
        begun.asked (rfl : (question config request scope).silent = true) r
      cases r with
      | error failure => exact ⟨asked, rfl, rfl, rfl, rfl, rfl, rfl⟩
      | ok decision =>
        by_cases allowed : decision.allowed = true
        · simp only [Prog.meets_ret_ok, allowed, if_true, Prog.meets_pure]
          refine ⟨asked.note (noted _) begun.welcome rfl rfl rfl, through.identity, ?_⟩
          intro other member
          rcases List.mem_cons.mp member with rfl | old
          · intro _
            exact ⟨.ok decision, allowed, List.mem_cons_self⟩
          · exact (through.cleared other old).mono (List.subset_cons_self _ _)
        · simp only [Prog.meets_ret_ok, allowed, Bool.false_eq_true, if_false, Prog.meets_pure]
          exact ⟨asked, rfl, rfl, rfl, rfl, rfl, rfl⟩

theorem limitStage_runs (scope : RateLimitScope) {scopes : List RateLimitScope} {identity : Option Identity}
    (through : Through config request scopes identity context past) (message reason : String) :
    Runs config request (Pipeline.limitStage config scope (target config request scope) message reason context)
      (Staged request (Through config request (scope :: scopes) identity)) (Broken request) past := by
  refine ((isAllowedByLimiter_runs scope through).mono (fun _ _ holds => holds) fun _ _ no => no.elim).bind ?_
  intro r past holds
  obtain ⟨allowed, context'⟩ := r
  cases allowed with
  | true => exact holds
  | false =>
    obtain ⟨begun, recorder, noted⟩ := holds
    exact begun.refuse recorder noted apiKeyRateLimited message reason

theorem clientIpRateLimitStage_runs (begun : Begun config request context past) (nobody : context.identity = none) :
    Runs config request (Pipeline.clientIpRateLimitStage config context)
      (Staged request (Through config request [.clientIp] none)) (Broken request) past := by
  have through : Through config request [] none context past := ⟨begun, nobody, by simp⟩
  have same : context.metadata.clientIp = target config request .clientIp := begun.described.clientIp
  unfold Pipeline.clientIpRateLimitStage
  rw [same]
  exact limitStage_runs _ through _ _

/-- What `authenticate` finds out, and what it notes. -/
theorem authenticate_spec (config : Config) (request : Request) (metadata : AccessLogMetadata) (route : Route)
    (own : route = Route.resolve config.backendUrl request.path) :
    (Pipeline.authenticate config request metadata route).1 = identify config request ∧
      Noted metadata (Pipeline.authenticate config request metadata route).2 ∧
      ((identify config request).isSome = true →
        (Pipeline.authenticate config request metadata route).2.rejectReason = metadata.rejectReason) := by
  unfold Pipeline.authenticate identify
  rw [← own]
  by_cases isPublic : route.authRequired = true
  · cases bearer : bearer? (request.header.get "Authorization") with
    | none =>
      simp only [isPublic, not_true_eq_false, if_false, Option.bind_none, Option.map_none, Option.isSome_none,
        Bool.false_eq_true, false_implies, true_and, and_true]
      constructor <;> rfl
    | some token =>
      cases authentic : Gateway.authenticate config.validator token with
      | none =>
        simp only [isPublic, not_true_eq_false, if_false, Option.bind_some, authentic, Option.map_none,
          Option.isSome_none, Bool.false_eq_true, false_implies, true_and, and_true]
        constructor <;> rfl
      | some identity =>
        simp only [isPublic, not_true_eq_false, if_false, Option.bind_some, authentic, Option.map_some, true_and,
          implies_true, and_true]
        constructor <;> rfl
  · simp only [isPublic, not_false_eq_true, Bool.false_eq_true, if_true, true_and, implies_true, and_true]
    constructor <;> rfl

/-- Only a request whose client is known goes on. -/
theorem authenticationStage_runs {scopes : List RateLimitScope} (through : Through config request scopes none context past) :
    Runs config request (Pipeline.authenticationStage config context)
      (Staged request fun context past => ∃ identity, identify config request = some identity ∧
        Through config request scopes identity context past)
      (Broken request) past := by
  have begun := through.begun
  have own : context.route = Route.resolve config.backendUrl context.request.path := by
    rw [begun.route, begun.follows.path]
  obtain ⟨found, noted, welcome⟩ := authenticate_spec config context.request context.metadata context.route own
  rw [begun.follows.identify] at found welcome
  unfold Pipeline.authenticationStage
  generalize Pipeline.authenticate config context.request context.metadata context.route = outcome at found noted welcome ⊢
  obtain ⟨known, metadata⟩ := outcome
  cases known with
  | none =>
    apply begun.refuse
    · rfl
    · exact ⟨noted.method, noted.path, noted.clientIp, noted.requestId, noted.upstream⟩
  | some identity =>
    have pleased := (welcome (by rw [← found]; rfl)).trans begun.welcome
    exact ⟨identity, found.symm, begun.note noted pleased rfl rfl rfl, rfl, through.cleared⟩

theorem apiKeyRateLimitStage_runs {scopes : List RateLimitScope} {identity : Option Identity}
    (known : identify config request = some identity)
    (through : Through config request scopes identity context past) :
    Runs config request (Pipeline.apiKeyRateLimitStage config context)
      (Staged request (Through config request (.apiKey :: scopes) identity)) (Broken request) past := by
  have named : target config request .apiKey = identity.elim [] Identity.apiKeyFingerprint := by
    rw [target, known, Option.elim_some]
  have own := through.identity
  unfold Pipeline.apiKeyRateLimitStage
  rw [own]
  cases identity with
  | none =>
    refine ⟨through.begun.note ⟨rfl, rfl, rfl, rfl, rfl⟩ through.begun.welcome rfl rfl rfl, own, ?_⟩
    intro scope member
    rcases List.mem_cons.mp member with rfl | old
    · intro limits
      exact absurd named limits.counted
    · exact through.cleared scope old
  | some identity =>
    have limited := limitStage_runs .apiKey through "API Key 请求过于频繁" "api_key_rate_limited"
    rw [named] at limited
    exact limited

theorem serviceRateLimitStage_runs {scopes : List RateLimitScope} {identity : Option Identity}
    (through : Through config request scopes identity context past) :
    Runs config request (Pipeline.serviceRateLimitStage config context)
      (Staged request (Through config request (.service :: scopes) identity)) (Broken request) past := by
  have named : Bytes.utf8 context.route.upstreamService = target config request .service := by
    rw [target, through.begun.route]
  unfold Pipeline.serviceRateLimitStage
  rw [named]
  exact limitStage_runs _ through _ _

theorem identify_fingerprint {identity : Option Identity} (known : identify config request = some identity)
    (header : Header) : (Identity.apply header identity).values headerXApiKeyFingerprint =
      (identity.map Identity.apiKeyFingerprint).toList := by
  unfold identify at known
  split at known
  · cases Option.some.inj known
    exact apply_none header
  · obtain ⟨own, authentic, rfl⟩ := Option.map_eq_some_iff.mp known
    obtain ⟨token, -, accepted⟩ := Option.bind_eq_some_iff.mp authentic
    rw [authenticate_some accepted]
    exact apply_fingerprint header token

theorem identityHeaderStage_runs {identity : Option Identity} (known : identify config request = some identity)
    (through : Through config request [.service, .apiKey, .clientIp] identity context past) :
    Runs config request (Pipeline.identityHeaderStage context) (Staged request (Ready config request identity))
      (Broken request) past := by
  have begun := through.begun
  have follows := begun.follows
  unfold Pipeline.identityHeaderStage
  rw [through.identity]
  refine ⟨follows.method, follows.url, follows.remoteAddr, begun.route, identify_fingerprint known _, ?_, ?_,
    begun.described, begun.fresh, begun.upstream, begun.welcome, begun.silent, ?_⟩
  · exact (apply_of_ne (by decide)).trans begun.requestId
  · intro name apart named
    exact (apply_of_ne apart).trans (follows.values name named)
  · intro scope
    exact through.cleared scope (by cases scope <;> simp)

theorem Ready.hopByHop {identity : Option Identity} (ready : Ready config request identity context past) (name : String) :
    context.request.header.hopByHop name = request.header.hopByHop name := by
  unfold Header.hopByHop
  rw [ready.others "Connection" (by decide) (by decide)]

theorem Ready.restored {identity : Option Identity} (ready : Ready config request identity context past)
    (name : String) : Gateway.restored context.request.header name = Gateway.restored request.header name := by
  have upgrade : context.request.header.get "Upgrade" = request.header.get "Upgrade" :=
    Header.get_congr (ready.others "Upgrade" (by decide) (by decide))
  unfold Gateway.restored upgradeType
  rw [ready.others "Te" (by decide) (by decide), ready.others "Connection" (by decide) (by decide), upgrade]

/-- What of the header is not for one hop is sent on. -/
theorem Ready.through {identity : Option Identity} (ready : Ready config request identity context past) {name : String}
    (plain : name ∉ hopHeaders) : (throughHop context.request.header).values name =
      if request.header.hopByHop name then [] else context.request.header.values name := by
  rw [throughHop_values, if_neg plain, ready.hopByHop]

/-- The request that is sent on. -/
theorem Ready.admitted {identity : Option Identity} (known : identify config request = some identity)
    (ready : Ready config request identity context past) {backend : Url}
    (parsed : config.parseUrl config.backendUrl = some backend) :
    Admitted config request past ⟨context.request.method, context.request.url.rewriteRequestURL backend,
      proxiedHeader context.request.header context.request.remoteAddr, config.backendUrl⟩ := by
  refine ⟨ready.method, ⟨backend, parsed, ?_, rfl⟩, ready.cleared, ⟨identity, known, ?_⟩, ?_, ?_, ?_⟩
  · rw [ready.url]
  · rw [proxiedHeader_of_ne (by decide) (by decide), ready.through (by decide), ready.fingerprint]
  · rw [ready.remoteAddr]
    apply proxiedHeader_client
    rw [ready.through (by decide), ready.others _ (by decide) (by decide), removeHopByHopHeaders]
    simp [show headerXForwardedFor ∉ hopHeaders by decide]
  · intro name hop
    have apart : name ≠ headerXForwardedFor := by
      rintro rfl
      exact absurd hop (by decide)
    have agent : name ≠ "User-Agent" := by
      rintro rfl
      exact absurd hop (by decide)
    rw [proxiedHeader_of_ne apart agent, throughHop_values, if_pos hop, ready.restored]
  · intro name apart named forwarded plain
    rw [proxiedHeader_values _ _ forwarded, ready.through plain, ready.others name apart named]

theorem Ready.sentId {identity : Option Identity} (ready : Ready config request identity context past)
    (remoteAddr : Octets) : (proxiedHeader context.request.header remoteAddr).values headerXRequestId =
      if request.header.hopByHop headerXRequestId then [] else [context.metadata.requestId] := by
  rw [proxiedHeader_of_ne (by decide) (by decide), ready.through (by decide), ready.requestId]

/-- What an upstream may answer has a status. -/
theorem statusCode_ne_zero {response : UpstreamResponse} {validated : Validated}
    (valid : validateUpstreamResponse response = .ok validated) : response.statusCode ≠ 0 := by
  intro zero
  have refused : isAllowedHTTPStatus response.statusCode = false := by rw [zero]; rfl
  unfold validateUpstreamResponse at valid
  rw [refused] at valid
  cases valid

/-- Every route leads to the one backend. -/
theorem upstreamAddr_resolve (backendUrl : String) (path : Octets) :
    (if (Route.resolve backendUrl path).upstreamAddr = "" then backendUrl
      else (Route.resolve backendUrl path).upstreamAddr) = backendUrl := by
  unfold Route.resolve
  by_cases health : path = Bytes.utf8 "/health"
  · simp [health]
  · rw [if_neg health]
    exact ite_eq_right_iff.mpr fun _ => rfl

/-- The recorder has been told of an answer of the upstream. -/
theorem Fresh.fromUpstream (fresh : Fresh recorder requestId) {statusCode : Nat} (some' : statusCode ≠ 0)
    (validated : Validated) (header : Option Int) :
    let told := { recorder with
      writer := { recorder.writer with
        internalCodeHeader := (match validated with
          | .stream => header
          | .envelope internalCode => some internalCode) <|> recorder.writer.internalCodeHeader } }
    Written { (told.writeHeader statusCode) with
        writer := (told.writeHeader statusCode).writer.write (.upstream validated.internalCode?) } requestId ∧
      FromUpstream { (told.writeHeader statusCode) with
        writer := (told.writeHeader statusCode).writer.write (.upstream validated.internalCode?) } := by
  refine ⟨⟨some', ?_, ?_, ?_, .upstream validated.internalCode?, ?_, ?_, ?_⟩, validated.internalCode?, ?_⟩
  · simp [Recorder.writeHeader, ResponseWriter.writeHeader, ResponseWriter.write, fresh.written]
  · simp [Recorder.writeHeader, ResponseWriter.writeHeader, ResponseWriter.write, fresh.written]
  · simpa [Recorder.writeHeader, ResponseWriter.writeHeader, ResponseWriter.write, fresh.written] using fresh.header
  · simp [Recorder.writeHeader, ResponseWriter.writeHeader, ResponseWriter.write, fresh.written, fresh.body]
  · intro code own
    cases validated with
    | stream => cases own
    | envelope internalCode =>
      cases own
      rfl
  · intro id own
    cases own
  · simp [Recorder.writeHeader, ResponseWriter.writeHeader, ResponseWriter.write, fresh.written, fresh.body]

theorem serveUpstream_runs {identity : Option Identity} (known : identify config request = some identity)
    (ready : Ready config request identity context past) :
    Runs config request (Pipeline.serveUpstream config context.recorder context.request context.route.upstreamAddr)
      (Answer request context.metadata.requestId)
      (fun recorder past => Answer request context.metadata.requestId recorder past ∧ FromUpstream recorder) past := by
  have unlogged := ready.silent.emitted
  have unsent := ready.silent.sentOn
  have alone : ∀ {recorder}, Written recorder context.metadata.requestId →
      Answer request context.metadata.requestId recorder past := by
    intro recorder written
    refine ⟨written, unlogged, ?_⟩
    rw [unsent]
    intro sent member
    cases member
  unfold Pipeline.serveUpstream
  rw [ready.route, upstreamAddr_resolve]
  dsimp only
  split
  · exact alone (ready.fresh.writeTransportError _ _ _)
  · rename_i backend parsed
    by_cases printed : isPrint (upgradeType context.request.header) = true
    · simp only [printed, not_true_eq_false, if_false]
      refine ⟨⟨ready.silent, ready.admitted known parsed⟩, ?_⟩
      intro r _
      have answer : ∀ {recorder}, Written recorder context.metadata.requestId →
          Answer request context.metadata.requestId recorder (⟨.roundTrip ⟨context.request.method,
            context.request.url.rewriteRequestURL backend,
            proxiedHeader context.request.header context.request.remoteAddr, config.backendUrl⟩, r⟩ :: past) := by
        intro recorder written
        refine ⟨written, unlogged, ?_⟩
        intro sent member
        change sent ∈ _ :: sentOn past at member
        rw [unsent, List.mem_singleton] at member
        rw [member]
        exact ready.sentId _
      cases r with
      | timeout => exact answer (ready.fresh.writeTransportError _ _ _)
      | failed => exact answer (ready.fresh.writeTransportError _ _ _)
      | response statusCode mediaType bodyLength body internalCodeHeader breaks =>
        simp only [Prog.bind]
        split
        · exact answer (ready.fresh.writeTransportError _ _ _)
        · rename_i validated valid
          have told := ready.fresh.fromUpstream (statusCode_ne_zero valid) validated internalCodeHeader
          by_cases broken : breaks = true
          · rw [if_pos broken]
            exact ⟨answer told.1, told.2⟩
          · rw [if_neg broken]
            exact answer told.1
    · simp only [printed, Bool.false_eq_true, not_false_eq_true, if_true]
      exact alone (ready.fresh.writeTransportError _ _ _)

/-- The chain ends with an answer to a request that is not refused. -/
theorem Answer.ended {recorder : Recorder} (answer : Answer request context.metadata.requestId recorder past)
    (described : Described request context.metadata) (welcome : context.metadata.rejectReason = none)
    {upstream : Option Nat} (same : ∀ status ∈ upstream, status = recorder.statusOf) :
    Ended request { context with recorder, metadata := { context.metadata with upstreamStatusCode := upstream } } past := by
  refine ⟨⟨described.method, described.path, described.clientIp⟩, answer.written, same, ?_, answer.unlogged, answer.sent⟩
  intro refused
  have pleased : context.metadata.rejectReason.isSome = true := refused
  rw [welcome] at pleased
  cases pleased

theorem proxyStage_runs {identity : Option Identity} (known : identify config request = some identity)
    (ready : Ready config request identity context past) :
    Runs config request (Pipeline.proxyStage config context) (Staged request (Ended request)) (Broken request) past := by
  have silence : ∀ recorder : Recorder, ∀ status ∈ context.metadata.upstreamStatusCode, status = recorder.statusOf := by
    intro recorder status member
    rw [ready.upstream] at member
    cases member
  unfold Pipeline.proxyStage
  rw [Runs, Prog.meets_bind, Prog.meets_mapError]
  refine (serveUpstream_runs known ready).mono ?_ ?_
  · intro recorder past answer
    by_cases named : context.route.upstreamService ≠ ""
    · simp only [named, if_true, ne_eq, not_false_eq_true]
      exact answer.ended ready.described ready.welcome (by simp)
    · simp only [named, if_false]
      exact answer.ended ready.described ready.welcome (silence recorder)
  · intro recorder past broken
    exact ⟨broken.1.ended ready.described ready.welcome (silence recorder), broken.2⟩

theorem healthResponseStage_runs (begun : Begun config request context past) :
    Runs config request (Pipeline.healthResponseStage context) (Staged request (Ended request)) (Broken request)
      past := by
  have described : Described request context.metadata := begun.described
  have answer : Answer request context.metadata.requestId
      (context.recorder.writeEnvelope 200 success "操作成功" none) past := by
    refine ⟨begun.fresh.writeEnvelope (by decide) _ _ _, begun.silent.emitted, ?_⟩
    rw [begun.silent.sentOn]
    intro sent member
    cases member
  refine ⟨⟨described.method, described.path, described.clientIp⟩, answer.written, ?_, ?_, answer.unlogged, answer.sent⟩
  · intro status member
    have asked : context.metadata.upstreamStatusCode = some status := member
    rw [begun.upstream] at asked
    cases asked
  · intro _
    exact begun.silent.sentOn

/-- A chain passes the request from stage to stage. -/
theorem runStageChain_cons {stage : Stage} {rest : List Stage} {passed : GatewayContext → Trace Sig → Prop}
    (first : Runs config request (stage context) (Staged request passed) (Broken request) past)
    (later : ∀ context past, passed context past →
      Runs config request (Pipeline.runStageChain rest context) (Ended request) (Broken request) past) :
    Runs config request (Pipeline.runStageChain (stage :: rest) context) (Ended request) (Broken request) past := by
  unfold Pipeline.runStageChain
  refine first.bind ?_
  intro r past staged
  obtain ⟨goesOn, context'⟩ := r
  cases goesOn with
  | true => exact later context' past staged
  | false => exact staged

theorem stages_run (begun : Begun config request context past) (nobody : context.identity = none) :
    Runs config request (Pipeline.runStageChain (Pipeline.stages config) context) (Ended request) (Broken request)
      past := by
  refine runStageChain_cons (clientIpRateLimitStage_runs begun nobody) ?_
  intro context past through
  refine runStageChain_cons (authenticationStage_runs through) ?_
  intro context past authentic
  obtain ⟨identity, known, through⟩ := authentic
  refine runStageChain_cons (apiKeyRateLimitStage_runs known through) ?_
  intro context past through
  refine runStageChain_cons (serviceRateLimitStage_runs through) ?_
  intro context past through
  refine runStageChain_cons (identityHeaderStage_runs known through) ?_
  intro context past ready
  refine runStageChain_cons (proxyStage_runs known ready) ?_
  intro context past ended
  exact ended

theorem health_run (begun : Begun config request context past) :
    Runs config request (Pipeline.runStageChain [Pipeline.healthResponseStage] context) (Ended request)
      (Broken request) past := by
  refine runStageChain_cons (healthResponseStage_runs begun) ?_
  intro context past ended
  exact ended

end

end Gateway

end MonkeyOcr
