import Mathlib
import MonkeyOcr.Gateway.Stages

namespace MonkeyOcr

namespace Gateway

open Calls

section

variable {config : Config} {request request' : Request} {context : GatewayContext} {past : Trace Sig}

/-- What `emitLog` adds to the metadata of the context, it takes from the recorder. -/
theorem accessLogEvent_noted (config : Config) (context : GatewayContext) (finished : Int) :
    Noted context.metadata (Pipeline.accessLogEvent config context finished).metadata := by
  unfold Pipeline.accessLogEvent
  cases context.recorder.internalCode <;> by_cases failed : 500 ≤ context.recorder.statusOf <;>
    simp only [failed, if_true, if_false] <;> constructor <;> rfl

theorem accessLogEvent_recorded (config : Config) (context : GatewayContext) (finished : Int) :
    (Pipeline.accessLogEvent config context finished).metadata.httpStatusCode = context.recorder.statusOf ∧
      (Pipeline.accessLogEvent config context finished).metadata.internalCode =
        context.recorder.internalCode.getD context.metadata.internalCode ∧
      (Pipeline.accessLogEvent config context finished).metadata.rejectReason = context.metadata.rejectReason := by
  unfold Pipeline.accessLogEvent
  cases context.recorder.internalCode <;> by_cases failed : 500 ≤ context.recorder.statusOf <;> simp [failed]

/-- The level is that of the status, and then of the code. -/
theorem accessLogEvent_level (config : Config) (context : GatewayContext) (finished : Int) :
    let event := Pipeline.accessLogEvent config context finished
    (event.level = .error ↔ 500 ≤ context.recorder.statusOf) ∧
      (event.level = .info → event.metadata.internalCode = success) := by
  unfold Pipeline.accessLogEvent
  by_cases failed : 500 ≤ context.recorder.statusOf
  · simp [failed]
  · cases context.recorder.internalCode with
    | none => by_cases fine : context.metadata.internalCode = success <;> simp [failed, fine]
    | some code => by_cases fine : code = success <;> simp [failed, fine]

theorem accessLogEvent_traceId (config : Config) (context : GatewayContext) (finished : Int) :
    (Pipeline.accessLogEvent config context finished).traceId =
      (Pipeline.accessLogEvent config context finished).metadata.requestId := rfl

/-- `Recovery` leaves the head of a response that is written as it is. -/
theorem Written.recovered {recorder : Recorder} {requestId : Octets} (written : Written recorder requestId)
    (panicked : Bool) :
    (recovery panicked recorder.writer).sentStatus = recorder.statusOf ∧
      (recovery panicked recorder.writer).header.get headerXRequestId = requestId ∧
      (recovery panicked recorder.writer).internalCodeHeader = none ∧
      (recovery panicked recorder.writer).body =
        recorder.writer.body ++ if panicked then [.brokenOff requestId] else [] := by
  have there : recorder.writer.status ≠ 0 := by
    rw [written.written]
    exact written.status
  have own := written.header
  cases panicked with
  | false => exact ⟨written.sent.symm, own, written.shown, (List.append_nil _).symm⟩
  | true =>
    simp [recovery, ResponseWriter.writeEnvelope, ResponseWriter.head, ResponseWriter.writeHeader,
      ResponseWriter.envelope, ResponseWriter.write, BodyPart.brokenOff, ResponseWriter.sentStatus, written.sent, there,
      own, written.shown]

/-- The body of a response whose head is sent, behind which an upstream may break off. -/
theorem Written.carries {recorder : Recorder} {requestId : Octets} (written : Written recorder requestId)
    {panicked : Bool} (broke : panicked = true → FromUpstream recorder) {internalCode : Int}
    (noted : ∀ code ∈ recorder.internalCode, code = internalCode) :
    Carries (recovery panicked recorder.writer).body internalCode requestId := by
  obtain ⟨part, body, code, id⟩ := written.body
  obtain ⟨-, -, -, whole⟩ := written.recovered panicked
  refine ⟨part, ?_, fun own member => noted own (code own member), id⟩
  rw [whole, body]
  cases panicked with
  | false => exact .inl rfl
  | true =>
    obtain ⟨own, upstream⟩ := broke rfl
    rw [body, List.singleton_inj] at upstream
    exact .inr ⟨⟨own, upstream⟩, rfl⟩

/-- The event of a request whose chain has ended says what is so. -/
theorem Ended.logged (ended : Ended request context past) (config : Config) (finished : Int) {panicked : Bool}
    (broke : panicked = true → FromUpstream context.recorder) :
    Logged request (Pipeline.accessLogEvent config context finished) (recovery panicked context.recorder.writer)
      past := by
  have noted := accessLogEvent_noted config context finished
  obtain ⟨status, code, reason⟩ := accessLogEvent_recorded config context finished
  obtain ⟨error, info⟩ := accessLogEvent_level config context finished
  obtain ⟨sent, header, -, -⟩ := ended.written.recovered panicked
  have described := ended.described.noted noted
  refine ⟨accessLogEvent_traceId _ _ _, ?_, described.method, described.path, described.clientIp,
    status.trans sent.symm, ?_, ?_, ?_, info, ?_, ?_⟩
  · rw [noted.requestId, header]
  · intro upstream member
    rw [noted.upstream] at member
    exact (ended.upstream upstream member).trans sent.symm
  · rw [accessLogEvent_traceId, noted.requestId, code]
    apply ended.written.carries broke
    intro internalCode recorded
    rw [Option.mem_def.mp recorded, Option.getD_some]
  · rw [sent]
    exact error
  · rw [reason]
    exact ended.refused
  · rw [noted.requestId]
    exact ended.sent

/-- The log of a request whose chain has ended. -/
theorem emitLog_runs (ended : Ended request context past) (panicked : Bool)
    (broke : panicked = true → FromUpstream context.recorder) :
    Runs config request (Pipeline.emitLog config context)
      (fun _ past => Answered config request (recovery panicked context.recorder.writer) past) (fun _ _ => False)
      past := by
  unfold Pipeline.emitLog
  refine ⟨trivial, ?_⟩
  intro finished _
  have logged := ended.logged config finished broke
  obtain ⟨-, -, shown, -⟩ := ended.written.recovered panicked
  simp only [Prog.bind]
  by_cases skipped : Pipeline.shouldSkipSuccessfulHealthProbeLog (Pipeline.accessLogEvent config context finished).metadata
  · rw [if_pos skipped]
    simp only [Pipeline.shouldSkipSuccessfulHealthProbeLog, decide_eq_true_eq] at skipped
    obtain ⟨path, -, status, code⟩ := skipped
    have body := logged.body
    rw [code, logged.traceId, logged.requestId] at body
    exact .probe (logged.path.symm.trans path) (logged.status.symm.trans status) body shown ended.unlogged
  · rw [if_neg skipped]
    refine ⟨ended.unlogged, ?_⟩
    intro _ _
    exact .logged shown (congrArg (List.cons _) ended.unlogged)
      ⟨logged.traceId, logged.requestId, logged.method, logged.path, logged.clientIp, logged.status, logged.upstream,
        logged.body, logged.error, logged.info, logged.refused, logged.sent⟩

theorem newGatewayContext_runs (follows : Follows request request') {writer : ResponseWriter} (status : writer.status = 0)
    (shown : writer.internalCodeHeader = none) (empty : writer.body = []) (silent : Silent past) :
    Runs config request (Pipeline.newGatewayContext config writer request')
      (fun context past => Begun config request context past ∧ context.identity = none) (fun _ _ => False) past := by
  unfold Pipeline.newGatewayContext
  refine ⟨trivial, ?_⟩
  intro start _
  refine ⟨trivial, ?_⟩
  intro entropy _
  have later := follows.trans (Follows.withId request' (resolve (request'.header.get headerXRequestId) entropy))
  refine ⟨⟨later, Header.values_set, ?_, ⟨follows.method, follows.path, later.clientIp⟩,
    ⟨rfl, rfl, status, shown, Header.get_set, empty⟩, rfl, rfl, ?_⟩, rfl⟩
  · rw [follows.path]
  · exact (silent.cons rfl _).cons rfl _

/-- A response is written to every request that is routed, and is logged. -/
theorem serveStages_runs {stages : List Stage} (follows : Follows request request') {writer : ResponseWriter}
    (status : writer.status = 0) (shown : writer.internalCodeHeader = none) (empty : writer.body = [])
    (silent : Silent past)
    (chain : ∀ context past, Begun config request context past → context.identity = none →
      Runs config request (Pipeline.runStageChain stages context) (Ended request) (Broken request) past) :
    Runs config request (serveStages config stages writer request') (fun w past => Answered config request w past)
      (fun _ _ => False) past := by
  unfold serveStages Pipeline.runGatewayStages
  rw [Runs, Prog.meets_bind]
  refine (newGatewayContext_runs follows status shown empty silent).bind ?_
  intro context past first
  obtain ⟨begun, nobody⟩ := first
  rw [Prog.meets_bind, Prog.meets_attempt]
  refine (chain context past begun nobody).mono ?_ ?_
  · intro context past ended
    refine (emitLog_runs ended false fun panicked => absurd panicked Bool.false_ne_true).bind ?_
    intro _ past answered
    simp only [Prog.meets_pure]
    exact answered
  · intro context past broken
    refine (emitLog_runs broken.1 true fun _ => broken.2).bind ?_
    intro _ past answered
    simp only [Prog.meets_pure]
    exact answered

/-- What `corsMiddleware` does leaves the head of a response open, or answers a preflight. -/
theorem cors_spec (config : Config) {w : ResponseWriter} (status : w.status = 0) (shown : w.internalCodeHeader = none)
    (empty : w.body = []) (request : Request) :
    (cors config w request).2.internalCodeHeader = none ∧ (cors config w request).2.body = [] ∧
      if (cors config w request).1 then request.method = "OPTIONS" else (cors config w request).2.status = 0 := by
  unfold cors
  dsimp only
  split
  · exact ⟨shown, empty, status⟩
  · split
    · rename_i preflight
      simpa [ResponseWriter.writeHeader, status, shown, empty] using preflight
    · exact ⟨shown, empty, status⟩

/-- What is written to the connection itself shows its code. -/
theorem writeEnvelope_shown {w : ResponseWriter} (fresh : w.status = 0) (empty : w.body = []) (status : Nat)
    (internalCode : Int) (message : String) (reason : Option String) :
    (w.writeEnvelope status internalCode message reason).internalCodeHeader = some internalCode ∧
      ∃ id, (w.writeEnvelope status internalCode message reason).body = [.envelope internalCode message id reason] := by
  simp [ResponseWriter.writeEnvelope, ResponseWriter.envelope, ResponseWriter.write, ResponseWriter.writeHeader,
    ResponseWriter.head, fresh, empty]

/-- What the router answers by itself is not what the gateway has a stage for. -/
theorem Router.unknown (router : Router) {method : String} {path : Octets} {status : Nat}
    {fields : List (String × Octets)} (found : router.find method path = .answered status fields) :
    method ∉ methods ∨ path.head? ≠ some 47 := by
  by_contra known
  push Not at known
  obtain ⟨method', slash⟩ := known
  by_cases health : method = "GET" ∧ path = Bytes.utf8 "/health"
  · obtain ⟨rfl, rfl⟩ := health
    rw [router.health] at found
    cases found
  · rw [router.proxy method method' path slash health] at found
    cases found

/-- The handler keeps its contract and gives one of the answers. -/
theorem serve_runs (config : Config) (request : Request) :
    Runs config request (serve config request) (fun w past => Answered config request w past) (fun _ _ => False) [] := by
  unfold serve
  refine ⟨trivial, ?_⟩
  intro entropy _
  simp only [Prog.bind]
  generalize made : middlewareRequestId (request.header.values headerXRequestId).head? entropy = requestId
  have follows := Follows.withId request requestId
  have nothing : Silent [] := by
    intro entry member
    cases member
  have quiet : Silent (⟨.entropy, entropy⟩ :: []) := nothing.cons (rfl : Op.entropy.silent = true) entropy
  have head := @cors_spec config { header := Header.set ⟨fun _ => []⟩ headerXRequestId requestId } rfl rfl rfl
    { request with header := request.header.set headerXRequestId requestId }
  obtain ⟨shown, empty, status⟩ := head
  split
  · rename_i preflight
    rw [if_pos preflight] at status
    exact .preflight status empty shown quiet.emitted quiet.sentOn
  · rename_i usual
    rw [if_neg usual] at status
    split
    · rename_i internalCode message reason refusal
      obtain ⟨shown, id, body⟩ := writeEnvelope_shown status empty 200 internalCode message (some reason)
      exact .refused refusal body shown quiet.emitted quiet.sentOn
    · split
      · exact serveStages_runs follows status shown empty quiet fun context past begun _ => health_run begun
      · exact serveStages_runs follows status shown empty quiet fun context past begun nobody => stages_run begun nobody
      · rename_i status' fields found
        refine .unrouted (config.router.unknown found) ?_ ?_ quiet.emitted quiet.sentOn
        · simp [ResponseWriter.answered, ResponseWriter.write, ResponseWriter.writeHeader, status, empty]
        · simpa [ResponseWriter.answered, ResponseWriter.write, ResponseWriter.writeHeader, status] using shown

end

end Gateway

end MonkeyOcr
