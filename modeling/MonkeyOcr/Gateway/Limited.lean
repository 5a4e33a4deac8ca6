import Mathlib
import MonkeyOcr.Gateway.Served

namespace MonkeyOcr

namespace Gateway

open Calls

/-- The requests of a call that a script has granted at a key. -/
def grantedAt (key : Octets) (past : Trace Sig) : Nat :=
  past.countP fun
    | ⟨.eval key' _, .ok decision⟩ => decide (key' = key) && decision.allowed
    | _ => false

/-- The tokens at a key. -/
def World.level (w : World) (profile : TokenBucketProfile) (key : Octets) : ℚ :=
  (w.redis key).elim (profile.burst : ℚ) BucketHash.tokens

/-- What is granted at a key, and what is left there, was in the bucket when it was
new or has been refilled since. -/
structure Paid (profile : TokenBucketProfile) (key : Octets) (w : World) : Prop where
  level : 0 ≤ w.level profile key
  paid : ((w.tally key).granted : ℚ) + w.level profile key ≤
    profile.burst * ((w.tally key).losses + 1) + refill profile.ratePerSecond (w.tally key).way

section

variable {config : Config} {profile : TokenBucketProfile} {key : Octets} {w : World}

/-- A key that nobody has asked for is a full bucket. -/
theorem Paid.idle (burst : 0 < profile.burst) : Paid profile key {} := by
  have room : (0 : ℚ) ≤ profile.burst := by exact_mod_cast burst.le
  refine ⟨room, ?_⟩
  simp [World.level, refill]

theorem Paid.of_same {w' : World} (paid : Paid profile key w) (redis : w'.redis key = w.redis key)
    (tally : w'.tally key = w.tally key) : Paid profile key w' := by
  have level : w'.level profile key = w.level profile key := by rw [World.level, World.level, redis]
  refine ⟨?_, ?_⟩
  · rw [level]
    exact paid.level
  · rw [level, tally]
    exact paid.paid

/-- A key that is lost is a new bucket. -/
theorem Paid.lose (paid : Paid profile key w) (burst : 0 < profile.burst) (other : Octets) :
    Paid profile key (w.lose other) := by
  by_cases here : other = key
  · subst here
    have room : (0 : ℚ) ≤ profile.burst := by exact_mod_cast burst.le
    have before := paid.paid
    have some' := paid.level
    have level : (w.lose other).level profile other = profile.burst := by simp [World.level, World.lose]
    have tally : (w.lose other).tally other = { w.tally other with losses := (w.tally other).losses + 1 } := by
      simp [World.lose]
    refine ⟨level ▸ room, ?_⟩
    rw [level, tally]
    push_cast
    linarith
  · have apart : key ≠ other := fun same => here same.symm
    exact paid.of_same (Function.update_of_ne apart _ _) (Function.update_of_ne apart _ _)

/-- What a script does at its key, as a request at a bucket. -/
theorem runScript_draw (w : World) (key : Octets) (rate : 0 < profile.ratePerSecond) (burst : 0 < profile.burst)
    (nowMs : ℤ) :
    ∃ moved, 0 ≤ moved ∧
      let drawn := Bucket.draw (profile.burst : ℚ) (w.level profile key) (refill profile.ratePerSecond moved)
      (if (w.runScript key profile nowMs).1.allowed then 1 else 0) = drawn.1 ∧
        (w.runScript key profile nowMs).2.level profile key = drawn.2 ∧
        (w.runScript key profile nowMs).2.tally key =
          { w.tally key with granted := (w.tally key).granted + drawn.1, way := (w.tally key).way + moved } := by
  have enabled : ¬ (profile.ratePerSecond ≤ 0 ∨ profile.burst ≤ 0) := by omega
  obtain ⟨fields, level, moved, script⟩ : ∃ fields : BucketHash, w.level profile key = fields.tokens ∧
      ((w.redis key).elim 0 fun hash => max 0 (nowMs - hash.updatedAtMs)) = max 0 (nowMs - fields.updatedAtMs) ∧
      tokenBucketScript (w.redis key) nowMs profile.ratePerSecond profile.burst =
        tokenBucketScript (some fields) nowMs profile.ratePerSecond profile.burst := by
    cases found : w.redis key with
    | none => exact ⟨⟨profile.burst, nowMs⟩, by simp [World.level, found], by simp, tokenBucketScript_none _ _ _⟩
    | some fields => exact ⟨fields, by simp [World.level, found], rfl, rfl⟩
  have drawn := tokenBucketScript_draw fields.tokens fields.updatedAtMs nowMs profile.ratePerSecond profile.burst
  dsimp only at drawn
  obtain ⟨granted, hash⟩ := drawn
  refine ⟨max 0 (nowMs - fields.updatedAtMs), le_max_left _ _, ?_⟩
  rw [level]
  refine ⟨?_, ?_, ?_⟩
  · simpa only [World.runScript, getRateLimitDecision, if_neg enabled, script] using granted
  · simp only [World.runScript, getRateLimitDecision, if_neg enabled, script, World.level, Function.update_self,
      Option.elim_some, hash]
  · simp only [World.runScript, getRateLimitDecision, if_neg enabled, script, Function.update_self, moved, ← granted]

/-- A script grants only what is in the bucket. -/
theorem Paid.runScript (paid : Paid profile key w) (rate : 0 < profile.ratePerSecond) (burst : 0 < profile.burst)
    (nowMs : ℤ) : Paid profile key (w.runScript key profile nowMs).2 := by
  obtain ⟨moved, forwards, granted, level, tally⟩ := runScript_draw w key rate burst nowMs
  have room : (0 : ℚ) ≤ profile.burst := by exact_mod_cast burst.le
  have faster : (0 : ℚ) ≤ profile.ratePerSecond := by exact_mod_cast rate.le
  have further : (0 : ℚ) ≤ moved := by exact_mod_cast forwards
  have more : 0 ≤ refill profile.ratePerSecond moved := by
    unfold refill
    positivity
  refine ⟨?_, ?_⟩
  · rw [level]
    exact Bucket.draw_nonneg room paid.level more
  · have before := paid.paid
    have spent := Bucket.draw_le (profile.burst : ℚ) (w.level profile key) (refill profile.ratePerSecond moved)
    have way : refill profile.ratePerSecond ((w.tally key).way + moved) =
        refill profile.ratePerSecond (w.tally key).way + refill profile.ratePerSecond moved := by
      unfold refill
      push_cast
      ring
    rw [level, tally]
    push_cast
    rw [way]
    linarith

theorem runScript_of_ne {other : Octets} (apart : key ≠ other) (profile : TokenBucketProfile) (nowMs : ℤ) :
    (w.runScript other profile nowMs).2.redis key = w.redis key ∧
      (w.runScript other profile nowMs).2.tally key = w.tally key :=
  ⟨Function.update_of_ne apart _ _, Function.update_of_ne apart _ _⟩

/-- The keys of the limiters differ in the letter of the scope. -/
theorem redisKey_scope {scope scope' : RateLimitScope} {key' : Octets}
    (same : redisKey config scope key = redisKey config scope' key') : scope = scope' := by
  have letters : ∀ scope scope' : RateLimitScope, (sanitizeRateKey (Bytes.utf8 scope.text)).head? =
      (sanitizeRateKey (Bytes.utf8 scope'.text)).head? → scope = scope' := by
    intro scope scope'
    cases scope <;> cases scope' <;> decide
  have named : ∀ scope : RateLimitScope, ∃ first rest, sanitizeRateKey (Bytes.utf8 scope.text) = first :: rest := by
    intro scope
    apply List.ne_nil_iff_exists_cons.mp
    cases scope <;> decide
  unfold redisKey at same
  simp only [List.append_assoc, List.append_cancel_left_eq, List.cons_append, List.cons.injEq, true_and,
    List.nil_append] at same
  obtain ⟨first, rest, text⟩ := named scope
  obtain ⟨first', rest', text'⟩ := named scope'
  rw [text, text', List.cons_append, List.cons_append, List.cons.injEq] at same
  apply letters
  rw [text, text', List.head?_cons, List.head?_cons, same.1]

/-- All that a limiter counts at one key it limits alike. -/
theorem profile_target {request : Request} {scope : RateLimitScope} (rate : 0 < (config.profile scope key).ratePerSecond)
    (counted : target config request scope ≠ []) :
    config.profile scope (target config request scope) = config.profile scope key := by
  cases scope with
  | clientIp => rfl
  | apiKey => rfl
  | service =>
    by_cases own : key = Bytes.utf8 "monkeyocr-backend"
    · have services : (Route.resolve config.backendUrl request.path).upstreamService = "" ∨
          (Route.resolve config.backendUrl request.path).upstreamService = "monkeyocr-backend" := by
        unfold Route.resolve
        split
        · exact .inl rfl
        · exact .inr rfl
      rcases services with nobody | backend
      · have nothing : target config request .service = [] := by
          rw [target, nobody]
          decide
        exact absurd nothing counted
      · rw [target, backend, own]
    · have none : (config.profile .service key).ratePerSecond = 0 := by simp [Config.profile, own]
      omega

end

/-- The limiter of the scope counts the request at the key of `key`. -/
def CountedAt (config : Config) (scope : RateLimitScope) (key : Octets) (request : Request) : Prop :=
  target config request scope ≠ [] ∧ redisKey config scope (target config request scope) = redisKey config scope key

instance : Decidable (CountedAt config scope key request) := inferInstanceAs (Decidable (_ ∧ _))

/-- How many of the requests that a limiter counts at a key have been sent on. -/
def forwarded (config : Config) (scope : RateLimitScope) (key : Octets) (s : State) : Nat :=
  s.calls.countP fun call => !(sentOn call.past).isEmpty && decide (CountedAt config scope key call.task)

/-- What Redis has granted at a key is paid for, and the calls know of no more. -/
structure Accounted (profile : TokenBucketProfile) (key : Octets) (s : State) : Prop where
  paid : Paid profile key s.world
  known : (s.calls.map fun call => grantedAt key call.past).sum ≤ (s.world.tally key).granted

section

variable {config : Config} {scope : RateLimitScope} {key : Octets}

theorem grantedAt_cons (op : Op) (r : op.Val) (past : Trace Sig) :
    grantedAt key (⟨op, r⟩ :: past) = grantedAt key past + grantedAt key [⟨op, r⟩] := by
  unfold grantedAt
  rw [List.countP_cons, List.countP_cons, List.countP_nil, Nat.zero_add]

theorem grantedAt_eval (key' : Octets) (profile : TokenBucketProfile) (decision : RateLimitDecision) :
    grantedAt key [⟨.eval key' profile, .ok decision⟩] = if key' = key ∧ decision.allowed then 1 else 0 := by
  by_cases here : key' = key <;> by_cases allowed : decision.allowed = true <;> simp [grantedAt, here, allowed]

/-- One script at some key, as the one at `key` sees it. -/
theorem runScript_accounted {profile profile' : TokenBucketProfile} {key' : Octets} {w : World}
    (rate : 0 < profile.ratePerSecond) (burst : 0 < profile.burst) (paid : Paid profile key w)
    (own : key' = key → profile' = profile) (nowMs : ℤ) :
    Paid profile key (w.runScript key' profile' nowMs).2 ∧
      (w.tally key).granted + (if key' = key ∧ (w.runScript key' profile' nowMs).1.allowed then 1 else 0) =
        ((w.runScript key' profile' nowMs).2.tally key).granted := by
  by_cases here : key' = key
  · cases own here
    subst here
    obtain ⟨moved, -, granted, -, tally⟩ := runScript_draw w key' rate burst nowMs
    refine ⟨paid.runScript rate burst nowMs, ?_⟩
    rw [tally, ← granted]
    simp
  · have apart : key ≠ key' := fun same => here same.symm
    obtain ⟨redis, tally⟩ : _ ∧ (w.runScript key' profile' nowMs).2.tally key = w.tally key :=
      runScript_of_ne apart profile' nowMs
    refine ⟨paid.of_same redis tally, ?_⟩
    simp [here, tally]

/-- One operation of a call that asks at `key` with one profile. -/
theorem exec_accounted {profile : TokenBucketProfile} {w w' : World} {i : Nat} {op : Op} {choice : Choice} {r : op.Val}
    (rate : 0 < profile.ratePerSecond) (burst : 0 < profile.burst) (paid : Paid profile key w)
    (own : ∀ profile', op = .eval key profile' → profile' = profile)
    (executed : w.exec i op choice = some (r, w')) :
    Paid profile key w' ∧ (w.tally key).granted + grantedAt key [⟨op, r⟩] ≤ (w'.tally key).granted := by
  cases op with
  | eval key' profile' =>
    have same : key' = key → profile' = profile := by
      intro here
      exact own profile' (by rw [here])
    cases choice with
    | script nowMs =>
      obtain ⟨paid, granted⟩ := runScript_accounted rate burst paid same nowMs
      have outcome : (Except.ok (w.runScript key' profile' nowMs).1, (w.runScript key' profile' nowMs).2) = (r, w') :=
        Option.some.inj executed
      obtain ⟨rfl, rfl⟩ := Prod.mk.inj outcome
      refine ⟨paid, ?_⟩
      rw [← granted, grantedAt_eval]
    | unanswered nowMs =>
      obtain ⟨paid, granted⟩ := runScript_accounted rate burst paid same nowMs
      have outcome : (Except.error (), (w.runScript key' profile' nowMs).2) = (r, w') := Option.some.inj executed
      obtain ⟨rfl, rfl⟩ := Prod.mk.inj outcome
      refine ⟨paid, ?_⟩
      rw [← granted]
      exact Nat.le_add_right _ _
    | unasked =>
      cases Option.some.inj executed
      exact ⟨paid, le_refl _⟩
    | _ => cases executed
  | entropy | now | roundTrip _ | emit _ =>
    cases choice <;> first
      | (cases executed; done)
      | cases Option.some.inj executed
        exact ⟨paid.of_same rfl rfl, le_refl _⟩

/-- An allowed question at the key of a limiter is one about its profile. -/
theorem allowed_profile {request : Request} {past : Trace Sig} {profile : TokenBucketProfile}
    (rate : 0 < (config.profile scope key).ratePerSecond)
    (allowed : (contract config request).allow past (.eval (redisKey config scope key) profile)) :
    profile = config.profile scope key := by
  obtain ⟨scope', limits, same⟩ := allowed
  obtain ⟨keys, profiles⟩ := Op.eval.inj same
  cases redisKey_scope keys
  rw [profiles]
  exact profile_target rate limits.counted

theorem accounted_sound (rate : 0 < (config.profile scope key).ratePerSecond) (burst : 0 < (config.profile scope key).burst) :
    Sound (system config) (fun _ _ => True) Trace.ghost (fun _ => []) (contract config)
      (fun request w past => Answered config request w past) (fun _ _ _ => False)
      (Accounted (config.profile scope key) (redisKey config scope key)) := by
  refine ⟨serve_runs config, ?_, ?_, ?_, ?_⟩
  · intro s request accounted _
    refine ⟨accounted.paid, ?_⟩
    have known := accounted.known
    simpa [Call.begin, grantedAt] using known
  · intro s i choice call op next r w accounted _ _ found _ executed allowed
    refine ⟨?_, trivial⟩
    have own : ∀ profile, op = .eval (redisKey config scope key) profile → profile = config.profile scope key := by
      intro profile asks
      rw [asks] at allowed
      exact allowed_profile rate allowed
    obtain ⟨paid, granted⟩ := exec_accounted rate burst accounted.paid own executed
    refine ⟨paid, ?_⟩
    have known := accounted.known
    have sum := sum_map_set (fun call : Call Sig Request Empty ResponseWriter =>
      grantedAt (redisKey config scope key) call.past) found (call.answered op r next)
    have here : grantedAt (redisKey config scope key) (call.answered op r next).past =
        grantedAt (redisKey config scope key) call.past + grantedAt (redisKey config scope key) [⟨op, r⟩] :=
      grantedAt_cons op r call.past
    dsimp only at sum ⊢
    omega
  · intro s i accounted _
    refine ⟨accounted.paid, ?_⟩
    have known := accounted.known
    rwa [map_modify_same fun call => by rfl]
  · intro s lost w accounted _ moved
    cases Option.some.inj moved
    refine ⟨accounted.paid.lose burst lost, ?_⟩
    have known := accounted.known
    have same : ((s.world.lose lost).tally (redisKey config scope key)).granted =
        (s.world.tally (redisKey config scope key)).granted := by
      by_cases here : redisKey config scope key = lost
      · simp [World.lose, here]
      · simp [World.lose, Function.update_of_ne here]
    rw [same]
    exact known

/-- The calls have obeyed their contract in every state reached. -/
theorem calls_obey {s : State} (run : Reaches config idle s) :
    ∀ call ∈ s.calls, (call.prog.Meets Trace.ghost (contract config call.task)
      (fun w past => Answered config call.task w past) (fun _ _ => False) call.past) ∧
        Trace.Obeys (contract config call.task) call.past :=
  obeys_run (serve_runs config) (fun _ _ _ _ _ _ _ _ _ => trivial) rfl run

/-- What was admitted stays so. -/
theorem Admitted.mono {request : Request} {past past' : Trace Sig} {sent : Outgoing}
    (admitted : Admitted config request past sent) (later : past ⊆ past') : Admitted config request past' sent :=
  { admitted with limits := fun scope => (admitted.limits scope).mono later }

/-- A call that obeys its contract has sent its request on once, and when it was admitted. -/
theorem Obeyed.admitted {request : Request} {past : Trace Sig} (obeys : Trace.Obeys (contract config request) past) :
    (∀ sent ∈ sentOn past, Admitted config request past sent) ∧ (sentOn past).length ≤ 1 ∧ (emitted past).length ≤ 1 := by
  induction past with
  | nil => exact ⟨by simp [sentOn], by simp [sentOn], by simp [emitted]⟩
  | cons entry past ih =>
    obtain ⟨op, r⟩ := entry
    obtain ⟨allowed, rest⟩ := obeys
    obtain ⟨admitted, sent, logged⟩ := ih rest
    have later : past ⊆ ⟨op, r⟩ :: past := List.subset_cons_self _ _
    cases op with
    | roundTrip request' =>
      obtain ⟨silent, own⟩ := allowed
      have alone : sentOn (⟨Op.roundTrip request', r⟩ :: past) = [request'] := congrArg (List.cons _) silent.sentOn
      rw [alone]
      refine ⟨?_, by simp, logged⟩
      intro sent member
      rw [List.mem_singleton] at member
      rw [member]
      exact own.mono later
    | emit event =>
      have alone : emitted (⟨Op.emit event, r⟩ :: past) = [event] := congrArg (List.cons _) allowed
      rw [alone]
      exact ⟨fun sent member => (admitted sent member).mono later, sent, by simp⟩
    | entropy | now | eval _ _ => exact ⟨fun sent member => (admitted sent member).mono later, sent, logged⟩

/-- A request that was sent on was granted where a limiter counts it. -/
theorem granted_of_sent {request : Request} {past : Trace Sig} (rate : 0 < (config.profile scope key).ratePerSecond)
    (burst : 0 < (config.profile scope key).burst) (obeys : Trace.Obeys (contract config request) past)
    (sent : sentOn past ≠ []) (counted : CountedAt config scope key request) :
    1 ≤ grantedAt (redisKey config scope key) past := by
  obtain ⟨admitted, -, -⟩ := Obeyed.admitted obeys
  obtain ⟨request', rest, there⟩ := List.ne_nil_iff_exists_cons.mp sent
  have cleared := (admitted request' (by rw [there]; exact List.mem_cons_self)).limits scope
  obtain ⟨target, same⟩ := counted
  have profile : config.profile scope (Gateway.target config request scope) = config.profile scope key :=
    profile_target rate target
  have limits : Limits config request scope := ⟨target, by rw [profile]; exact rate, by rw [profile]; exact burst⟩
  obtain ⟨r, grants, member⟩ := cleared limits
  rw [grantedAt, Nat.one_le_iff_ne_zero, ← Nat.pos_iff_ne_zero, List.countP_pos_iff]
  refine ⟨_, member, ?_⟩
  cases r with
  | error => cases grants
  | ok decision =>
    have allowed : decision.allowed = true := grants
    simp [question, same, allowed]

/-- Over every run of any number of replicas: of the requests that a limiter counts at
one key, no more are sent on than its bucket held, for each time the key expired or was
lost, and was refilled by the readings of the clocks. Tokens are rational numbers. -/
theorem forwarded_within_limit {s : State} (rate : 0 < (config.profile scope key).ratePerSecond)
    (burst : 0 < (config.profile scope key).burst) (run : Reaches config idle s) :
    (forwarded config scope key s : ℚ) ≤
      (config.profile scope key).burst * ((s.world.tally (redisKey config scope key)).losses + 1) +
        (config.profile scope key).ratePerSecond * (s.world.tally (redisKey config scope key)).way / 1000 := by
  have start : Accounted (config.profile scope key) (redisKey config scope key) idle := ⟨Paid.idle burst, le_refl _⟩
  obtain ⟨accounted, -⟩ := (accounted_sound rate burst).run start (by intro call member; cases member) run
  have obeys := calls_obey run
  have each : forwarded config scope key s ≤ (s.calls.map fun call => grantedAt (redisKey config scope key) call.past).sum := by
    unfold forwarded
    generalize s.calls = calls at obeys ⊢
    induction calls with
    | nil => simp
    | cons call rest ih =>
      have later := ih fun other member => obeys other (List.mem_cons_of_mem _ member)
      have own := (obeys call List.mem_cons_self).2
      rw [List.countP_cons, List.map_cons, List.sum_cons]
      split
      · rename_i counted
        simp only [Bool.and_eq_true, Bool.not_eq_true', List.isEmpty_eq_false_iff, decide_eq_true_eq] at counted
        have granted := granted_of_sent rate burst own counted.1 counted.2
        omega
      · omega
  have known := accounted.known
  have paid := accounted.paid.paid
  have level := accounted.paid.level
  have total : (forwarded config scope key s : ℚ) ≤ (s.world.tally (redisKey config scope key)).granted := by
    exact_mod_cast each.trans known
  have way : refill (config.profile scope key).ratePerSecond (s.world.tally (redisKey config scope key)).way =
      (config.profile scope key).ratePerSecond * (s.world.tally (redisKey config scope key)).way / 1000 := by
    unfold refill
    ring
  rw [way] at paid
  linarith

end

/-- `chi`, with what it says of a method it does not know and of what it does not find. -/
def Router.chi : Router where
  find method path :=
    if method ∉ methods then .answered 405 []
    else if path.head? ≠ some 47 then
      .answered 404
        [("Content-Type", Bytes.utf8 "text/plain; charset=utf-8"), ("X-Content-Type-Options", Bytes.utf8 "nosniff")]
    else if method = "GET" ∧ path = Bytes.utf8 "/health" then .health
    else .proxy
  health := by rw [if_neg (by decide), if_neg (by decide), if_pos ⟨rfl, rfl⟩]
  proxy := by
    intro method known path slash other
    rw [if_neg (not_not_intro known), if_neg (not_not_intro slash), if_neg other]

/-- A gateway that lets an address ask once, and once more a second later. -/
def sparing : Config where
  backendUrl := "http://backend:8000"
  parseUrl _ := some {}
  router := .chi
  clientIpRateLimit := ⟨1, 1⟩

/-- A client with a key asks for its jobs. -/
def listing : Request where
  method := "GET"
  path := Bytes.utf8 "/v1/jobs"
  rawPath := []
  rawQuery := []
  remoteAddr := Bytes.utf8 "10.0.0.7:4000"
  header := Header.set ⟨fun _ => []⟩ "Authorization" (Bytes.utf8 "Bearer k")
  body := .absent

/-- No random bytes at midnight. -/
def midnight : Entropy := ⟨none, fun _ => 1, fun _ => 0, fun _ => 0⟩

/-- The client asks twice at once. The second request draws the token, and its upstream
breaks off when it has begun. -/
def twice : List (Action Request Choice Octets) :=
  [.start listing, .start listing, .resume 0 (.entropy midnight), .resume 0 (.time 5), .resume 0 (.entropy midnight),
    .resume 1 (.entropy midnight), .resume 1 (.time 6), .resume 1 (.entropy midnight), .resume 1 (.script 0),
    .resume 0 (.script 0), .resume 0 (.time 9), .resume 0 .go, .resume 1 (.script 0), .resume 1 (.script 0),
    .resume 1 (.answer (.response 200 (some "text/event-stream") 0 none none true)), .resume 1 (.time 8), .resume 1 .go]

theorem twice_reaches : ∃ s, Reaches sparing idle s ∧
    (forwarded sparing .clientIp (Bytes.utf8 "10.0.0.7") s = 1 ∧
      (s.world.tally (redisKey sparing .clientIp (Bytes.utf8 "10.0.0.7"))).way = 0) ∧
    s.world.arrivals.map Prod.fst = [1] ∧ s.world.accessLog.map Prod.fst = [1, 0] ∧
    (s.calls.map fun call => call.prog.returned?.map fun w => (w.status, w.body.length)) =
      [some (200, 1), some (200, 2)] := by
  have there : ((system sparing).runs idle twice).any (fun s => decide
      ((forwarded sparing .clientIp (Bytes.utf8 "10.0.0.7") s = 1 ∧
        (s.world.tally (redisKey sparing .clientIp (Bytes.utf8 "10.0.0.7"))).way = 0) ∧
      s.world.arrivals.map Prod.fst = [1] ∧ s.world.accessLog.map Prod.fst = [1, 0] ∧
      (s.calls.map fun call => call.prog.returned?.map fun w => (w.status, w.body.length)) =
        [some (200, 1), some (200, 2)])) = true := by
    decide +kernel
  obtain ⟨s, found, facts⟩ := (Option.any_eq_true _ _).mp there
  exact ⟨s, Machine.Run.of_runs found (by simp), of_decide_eq_true facts⟩

/-- One of the two requests is sent on, and the bucket held one token. -/
theorem forwarded_within_limit_twice : ∃ s : State, forwarded sparing .clientIp (Bytes.utf8 "10.0.0.7") s = 1 ∧
    (forwarded sparing .clientIp (Bytes.utf8 "10.0.0.7") s : ℚ) ≤
      1 * ((s.world.tally (redisKey sparing .clientIp (Bytes.utf8 "10.0.0.7"))).losses + 1) +
        1 * (s.world.tally (redisKey sparing .clientIp (Bytes.utf8 "10.0.0.7"))).way / 1000 := by
  obtain ⟨s, run, ⟨one, -⟩, -⟩ := twice_reaches
  have within := @forwarded_within_limit sparing .clientIp (Bytes.utf8 "10.0.0.7") s (by decide) (by decide) run
  refine ⟨s, one, ?_⟩
  exact_mod_cast within

end Gateway

end MonkeyOcr
