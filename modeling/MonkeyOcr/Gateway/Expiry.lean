import MonkeyOcr.Gateway.RedisLimiter

namespace MonkeyOcr

namespace Gateway

/-- `time.Second`. A duration is given in nanoseconds. -/
def second : ℤ := 1000000000

/-- The conversion of a number to `time.Duration`, towards zero. What becomes of a number
that no int64 holds is up to the machine: `-2 ^ 63` on amd64, the nearest int64 on arm64. -/
def duration (overflow : ℤ) (x : ℚ) : ℤ :=
  let whole := if x < 0 then ⌈x⌉ else ⌊x⌋
  if -2 ^ 63 ≤ whole ∧ whole < 2 ^ 63 then whole else overflow

/-- `RedisLimiter.ttl` -/
def ttl (overflow : ℤ) (profile : TokenBucketProfile) : ℤ :=
  let refill := duration overflow (2 * (profile.burst : ℚ) / profile.ratePerSecond * second)
  if refill < second then second else refill

/-- `Duration.Milliseconds` -/
def milliseconds (d : ℤ) : ℤ := d.tdiv 1000000

/-- A key that expires at a time. -/
structure ExpiringKey where
  hash : BucketHash
  expiresAtMs : ℤ
  deriving DecidableEq

/-- What the server finds at a key. It may be told to keep a key for the
millisecond in which it expires. -/
def ExpiringKey.live (keeps : Bool) (nowMs : ℤ) (key : ExpiringKey) : Bool :=
  nowMs < key.expiresAtMs ∨ keeps ∧ nowMs = key.expiresAtMs

/-- `RedisLimiter.GetRateLimitDecision` with the `PEXPIRE` of its script. -/
def getRateLimitDecisionExpiring (overflow : ℤ) (profile : TokenBucketProfile) (keeps : Bool) (nowMs : ℤ)
    (key : Option ExpiringKey) : RateLimitDecision × Option ExpiringKey :=
  if profile.ratePerSecond ≤ 0 ∨ profile.burst ≤ 0 then ({ allowed := true, result := "disabled" }, key)
  else
    let found := (key.filter (·.live keeps nowMs)).map ExpiringKey.hash
    let (value, hash) := tokenBucketScript found nowMs profile.ratePerSecond profile.burst
    (parseTokenBucketResult value, some { hash, expiresAtMs := nowMs + milliseconds (ttl overflow profile) })

/-- The decisions for one key on a server that expires it. -/
def decisionsExpiring (overflow : ℤ) (profile : TokenBucketProfile) (keeps : Bool) :
    Option ExpiringKey → List ℤ → List RateLimitDecision
  | _, [] => []
  | key, nowMs :: rest =>
    let (decision, key) := getRateLimitDecisionExpiring overflow profile keeps nowMs key
    decision :: decisionsExpiring overflow profile keeps key rest

/-- The time of two full refills is a duration. -/
def Timed (profile : TokenBucketProfile) : Prop := 2 * profile.burst * second < 2 ^ 63 * profile.ratePerSecond

instance (profile : TokenBucketProfile) : Decidable (Timed profile) := inferInstanceAs (Decidable (_ < _))

/-- A key that has been idle for the ttl has had the time of a full refill. -/
def Lasting (overflow : ℤ) (profile : TokenBucketProfile) : Prop :=
  (profile.burst : ℚ) ≤ refill profile.ratePerSecond (milliseconds (ttl overflow profile))

variable {overflow : ℤ} {profile : TokenBucketProfile} {hash : BucketHash} {nowMs : ℤ} {keeps : Bool} {readings : List ℤ}

/-- The time of two full refills, in nanoseconds. -/
theorem duration_refills (rate : 0 < profile.ratePerSecond) (burst : 0 < profile.burst) :
    duration overflow (2 * (profile.burst : ℚ) / profile.ratePerSecond * second) =
      if Timed profile then ⌊2000000000 * ((profile.burst : ℚ) / profile.ratePerSecond)⌋ else overflow := by
  have faster : (0 : ℚ) < profile.ratePerSecond := by exact_mod_cast rate
  have room : (0 : ℚ) < profile.burst := by exact_mod_cast burst
  have time : 2 * (profile.burst : ℚ) / profile.ratePerSecond * second =
      2000000000 * ((profile.burst : ℚ) / profile.ratePerSecond) := by
    rw [second]
    push_cast
    ring
  have positive : 0 ≤ 2000000000 * ((profile.burst : ℚ) / profile.ratePerSecond) := by positivity
  have above : -2 ^ 63 ≤ ⌊2000000000 * ((profile.burst : ℚ) / profile.ratePerSecond)⌋ := by
    have natural := Int.floor_nonneg.mpr positive
    omega
  have holds : ⌊2000000000 * ((profile.burst : ℚ) / profile.ratePerSecond)⌋ < 2 ^ 63 ↔ Timed profile := by
    rw [Int.floor_lt, Timed, second, ← mul_div_assoc, div_lt_iff₀ faster]
    push_cast
    constructor
    · intro less
      have cast : (2 * profile.burst * 1000000000 : ℚ) < 2 ^ 63 * profile.ratePerSecond := by linarith
      exact_mod_cast cast
    · intro less
      have cast : (2 * profile.burst * 1000000000 : ℚ) < 2 ^ 63 * profile.ratePerSecond := by exact_mod_cast less
      linarith
  simp only [duration, time, if_neg (not_lt.mpr positive), above, true_and, holds]

theorem ttl_of_timed (overflow : ℤ) (rate : 0 < profile.ratePerSecond) (burst : 0 < profile.burst)
    (timed : Timed profile) :
    ttl overflow profile = max second ⌊2000000000 * ((profile.burst : ℚ) / profile.ratePerSecond)⌋ := by
  rw [ttl, duration_refills rate burst, if_pos timed]
  split <;> omega

theorem ttl_of_not_timed (rate : 0 < profile.ratePerSecond) (burst : 0 < profile.burst) (long : ¬ Timed profile) :
    ttl overflow profile = max second overflow := by
  rw [ttl, duration_refills rate burst, if_neg long]
  split <;> omega

theorem second_le_ttl (overflow : ℤ) (profile : TokenBucketProfile) : second ≤ ttl overflow profile := by
  unfold ttl
  dsimp only
  split <;> omega

theorem ttl_positive (overflow : ℤ) (profile : TokenBucketProfile) : 0 < milliseconds (ttl overflow profile) := by
  have least := second_le_ttl overflow profile
  rw [second] at least
  rw [milliseconds, Int.tdiv_eq_ediv_of_nonneg (by omega)]
  omega

/-- A key is there when it has just been written. -/
theorem live_written (overflow : ℤ) (profile : TokenBucketProfile) (keeps : Bool) (nowMs : ℤ) (hash : BucketHash) :
    ExpiringKey.live keeps nowMs ⟨hash, nowMs + milliseconds (ttl overflow profile)⟩ = true := by
  have positive := ttl_positive overflow profile
  simp only [ExpiringKey.live, decide_eq_true_eq]
  exact .inl (by omega)

/-- The decisions of a limiter that is not disabled. -/
theorem decisionsExpiring_cons (rate : 0 < profile.ratePerSecond) (burst : 0 < profile.burst)
    (key : Option ExpiringKey) (rest : List ℤ) :
    let evaluated := tokenBucketScript ((key.filter (·.live keeps nowMs)).map ExpiringKey.hash) nowMs
      profile.ratePerSecond profile.burst
    decisionsExpiring overflow profile keeps key (nowMs :: rest) = parseTokenBucketResult evaluated.1 ::
      decisionsExpiring overflow profile keeps
        (some ⟨evaluated.2, nowMs + milliseconds (ttl overflow profile)⟩) rest := by
  have enabled : ¬ (profile.ratePerSecond ≤ 0 ∨ profile.burst ≤ 0) := by omega
  simp only [decisionsExpiring, getRateLimitDecisionExpiring, if_neg enabled]

/-- An idle time of the ttl refills the bucket: the ttl is twice the time of a full refill, and
rounding it down to milliseconds takes less than half of it, as it is a second at least. -/
theorem lasting_of_timed (rate : 0 < profile.ratePerSecond) (burst : 0 < profile.burst) (timed : Timed profile) :
    Lasting overflow profile := by
  have faster : (0 : ℚ) < profile.ratePerSecond := by exact_mod_cast rate
  have whole : (profile.burst : ℚ) = profile.burst / profile.ratePerSecond * profile.ratePerSecond := by field_simp
  have ttl_eq := ttl_of_timed overflow rate burst timed
  set time := (profile.burst : ℚ) / profile.ratePerSecond with time_eq
  have enough : time ≤ (milliseconds (ttl overflow profile) : ℚ) / 1000 := by
    have below := Int.lt_floor_add_one (2000000000 * time)
    rw [ttl_eq]
    by_cases short : ⌊2000000000 * time⌋ < second
    · rw [second] at short
      have least : (⌊2000000000 * time⌋ : ℚ) + 1 ≤ 1000000000 := by exact_mod_cast short
      have same : milliseconds (max second ⌊2000000000 * time⌋) = 1000 := by
        rw [max_eq_left (by rw [second]; omega)]
        decide
      rw [same]
      push_cast
      linarith
    · have least : 1000000000 ≤ ⌊2000000000 * time⌋ := not_lt.mp short
      rw [max_eq_right (by rw [second]; omega)]
      have rounded : ⌊2000000000 * time⌋ + 1 ≤ 2 * 1000000 * milliseconds ⌊2000000000 * time⌋ := by
        rw [milliseconds, Int.tdiv_eq_ediv_of_nonneg (by omega)]
        omega
      have rational : (⌊2000000000 * time⌋ : ℚ) + 1 ≤ 2 * 1000000 * milliseconds ⌊2000000000 * time⌋ := by
        exact_mod_cast rounded
      linarith
  calc (profile.burst : ℚ) = time * profile.ratePerSecond := whole
    _ ≤ (milliseconds (ttl overflow profile) : ℚ) / 1000 * profile.ratePerSecond :=
      mul_le_mul_of_nonneg_right enough faster.le
    _ = refill profile.ratePerSecond (milliseconds (ttl overflow profile)) := rfl

/-- Which profiles have a ttl that lasts. -/
theorem lasting_iff (rate : 0 < profile.ratePerSecond) (burst : 0 < profile.burst) :
    Lasting overflow profile ↔
      Timed profile ∨ profile.burst * 1000 ≤ profile.ratePerSecond * milliseconds (max second overflow) := by
  by_cases timed : Timed profile
  · simp only [timed, true_or, iff_true]
    exact lasting_of_timed rate burst timed
  · simp only [timed, false_or, Lasting, ttl_of_not_timed rate burst timed, refill]
    constructor
    · intro lasts
      have cast : (profile.burst * 1000 : ℚ) ≤ profile.ratePerSecond * milliseconds (max second overflow) := by linarith
      exact_mod_cast cast
    · intro lasts
      have cast : (profile.burst * 1000 : ℚ) ≤ profile.ratePerSecond * milliseconds (max second overflow) := by
        exact_mod_cast lasts
      linarith

theorem refill_mono {rate first second : ℤ} (nonneg : 0 ≤ rate) (longer : first ≤ second) :
    refill rate first ≤ refill rate second := by
  have moved : (first : ℚ) / 1000 ≤ (second : ℚ) / 1000 := by
    have cast : (first : ℚ) ≤ second := by exact_mod_cast longer
    linarith
  exact mul_le_mul_of_nonneg_right moved (by exact_mod_cast nonneg)

/-- A bucket that has been idle for the ttl is as good as a new one. -/
theorem script_expired (lasting : Lasting overflow profile) (rate : 0 < profile.ratePerSecond) (some : 0 ≤ hash.tokens)
    (idle : hash.updatedAtMs + milliseconds (ttl overflow profile) ≤ nowMs) :
    tokenBucketScript (Option.some hash) nowMs profile.ratePerSecond profile.burst =
      tokenBucketScript none nowMs profile.ratePerSecond profile.burst := by
  have full : (profile.burst : ℚ) ≤ refill profile.ratePerSecond (milliseconds (ttl overflow profile)) := lasting
  have more := refill_mono rate.le (show milliseconds (ttl overflow profile) ≤ max 0 (nowMs - hash.updatedAtMs) by omega)
  have elapsed : (if nowMs - hash.updatedAtMs < 0 then 0 else nowMs - hash.updatedAtMs) =
      max 0 (nowMs - hash.updatedAtMs) := by split <;> omega
  have level : min (profile.burst : ℚ)
      (hash.tokens + ((max 0 (nowMs - hash.updatedAtMs) : ℤ) : ℚ) / 1000 * profile.ratePerSecond) = profile.burst := by
    refine min_eq_left ?_
    have refilled : (profile.burst : ℚ) ≤ ((max 0 (nowMs - hash.updatedAtMs) : ℤ) : ℚ) / 1000 * profile.ratePerSecond :=
      full.trans more
    linarith
  have still : min (profile.burst : ℚ) ((profile.burst : ℚ) + ((0 : ℤ) : ℚ) / 1000 * profile.ratePerSecond) = profile.burst := by
    simp
  simp only [tokenBucketScript, elapsed, level, sub_self, lt_irrefl, if_false, still]

/-- The script leaves no debt, and the time of its evaluation. -/
theorem script_hash (nowMs : ℤ) (rate : 0 ≤ profile.ratePerSecond) (burst : 0 ≤ profile.burst) (some : 0 ≤ hash.tokens) :
    0 ≤ (tokenBucketScript (Option.some hash) nowMs profile.ratePerSecond profile.burst).2.tokens ∧
      (tokenBucketScript (Option.some hash) nowMs profile.ratePerSecond profile.burst).2.updatedAtMs = nowMs := by
  have drawn := tokenBucketScript_draw hash.tokens hash.updatedAtMs nowMs profile.ratePerSecond profile.burst
  dsimp only at drawn
  have more : 0 ≤ refill profile.ratePerSecond (max 0 (nowMs - hash.updatedAtMs)) := by
    have forwards : (0 : ℚ) ≤ ((max 0 (nowMs - hash.updatedAtMs) : ℤ) : ℚ) := by exact_mod_cast le_max_left _ _
    have faster : (0 : ℚ) ≤ profile.ratePerSecond := by exact_mod_cast rate
    unfold refill
    positivity
  have room : (0 : ℚ) ≤ profile.burst := by exact_mod_cast burst
  rw [drawn.2]
  exact ⟨Bucket.draw_nonneg room some more, rfl⟩

theorem script_hash_none (nowMs : ℤ) (rate : 0 ≤ profile.ratePerSecond) (burst : 0 ≤ profile.burst) :
    0 ≤ (tokenBucketScript none nowMs profile.ratePerSecond profile.burst).2.tokens ∧
      (tokenBucketScript none nowMs profile.ratePerSecond profile.burst).2.updatedAtMs = nowMs := by
  have room : (0 : ℚ) ≤ profile.burst := by exact_mod_cast burst
  rw [tokenBucketScript_none]
  exact script_hash nowMs rate burst room

/-- Whether the key is there or has expired, the script does the same. -/
theorem script_found (lasting : Lasting overflow profile) (rate : 0 < profile.ratePerSecond) (some : 0 ≤ hash.tokens) :
    tokenBucketScript
        (((Option.some (⟨hash, hash.updatedAtMs + milliseconds (ttl overflow profile)⟩ : ExpiringKey)).filter
          (·.live keeps nowMs)).map ExpiringKey.hash)
        nowMs profile.ratePerSecond profile.burst =
      tokenBucketScript (Option.some hash) nowMs profile.ratePerSecond profile.burst := by
  cases live : ExpiringKey.live keeps nowMs ⟨hash, hash.updatedAtMs + milliseconds (ttl overflow profile)⟩ with
  | true => rw [Option.filter_some_pos live, Option.map_some]
  | false =>
    have idle : hash.updatedAtMs + milliseconds (ttl overflow profile) ≤ nowMs := by
      simp only [ExpiringKey.live, decide_eq_false_iff_not, not_or, not_lt] at live
      exact live.1
    rw [Option.filter_some_neg (by simp [live]), Option.map_none, script_expired lasting rate some idle]

/-- After a request, a server that expires keys decides as one that keeps them. -/
theorem decisionsExpiring_some (lasting : Lasting overflow profile) (rate : 0 < profile.ratePerSecond)
    (burst : 0 < profile.burst) (some : 0 ≤ hash.tokens) :
    decisionsExpiring overflow profile keeps
        (Option.some ⟨hash, hash.updatedAtMs + milliseconds (ttl overflow profile)⟩) readings =
      decisions profile (Option.some hash) readings := by
  induction readings generalizing hash with
  | nil => rfl
  | cons nowMs rest ih =>
    have enabled : ¬ (profile.ratePerSecond ≤ 0 ∨ profile.burst ≤ 0) := by omega
    obtain ⟨later, updated⟩ := script_hash nowMs rate.le burst.le some
    have rest_same := ih later
    rw [updated] at rest_same
    rw [decisionsExpiring_cons rate burst]
    simp only [decisions, getRateLimitDecision, if_neg enabled, script_found lasting rate some, rest_same]

/-- Keys that last a full refill change no decision, even where the clock goes backwards. -/
theorem decisionsExpiring_of_lasting (lasting : Lasting overflow profile) (rate : 0 < profile.ratePerSecond)
    (burst : 0 < profile.burst) :
    decisionsExpiring overflow profile keeps none readings = decisions profile none readings := by
  cases readings with
  | nil => rfl
  | cons nowMs rest =>
    have enabled : ¬ (profile.ratePerSecond ≤ 0 ∨ profile.burst ≤ 0) := by omega
    obtain ⟨later, updated⟩ := script_hash_none nowMs rate.le burst.le
    have rest_same := @decisionsExpiring_some overflow profile _ keeps rest lasting rate burst later
    rw [updated] at rest_same
    rw [decisionsExpiring_cons rate burst]
    simp only [decisions, getRateLimitDecision, if_neg enabled, Option.filter_none, Option.map_none, rest_same]

/-! ### Keys that expire too early -/

/-- A bucket that holds a token for each of the requests of one moment. -/
theorem granted_at_once (overflow : ℤ) (keeps : Bool) (nowMs : ℤ) (rate : 0 < profile.ratePerSecond) {n : ℕ}
    {tokens : ℚ} (enough : (n : ℚ) ≤ tokens)
    (room : tokens ≤ profile.burst) (rest : List ℤ) :
    (decisionsExpiring overflow profile keeps (some ⟨⟨tokens, nowMs⟩, nowMs + milliseconds (ttl overflow profile)⟩)
        (List.replicate n nowMs ++ rest)).countP (·.allowed) =
      n + (decisionsExpiring overflow profile keeps
        (some ⟨⟨tokens - n, nowMs⟩, nowMs + milliseconds (ttl overflow profile)⟩) rest).countP (·.allowed) := by
  induction n generalizing tokens with
  | zero => simp
  | succ n ih =>
    push_cast at enough
    have one : 1 ≤ tokens := by
      have more : (0 : ℚ) ≤ n := Nat.cast_nonneg n
      linarith
    have burst : 0 < profile.burst := by
      have positive : (0 : ℚ) < profile.burst := by linarith
      exact_mod_cast positive
    have live := live_written overflow profile keeps nowMs ⟨tokens, nowMs⟩
    have drawn : tokenBucketScript (some ⟨tokens, nowMs⟩) nowMs profile.ratePerSecond profile.burst =
        (⟨1, "allowed", tokens - 1⟩, ⟨tokens - 1, nowMs⟩) := by
      simp [tokenBucketScript, min_eq_right room, one]
    have fewer : (n : ℚ) ≤ tokens - 1 := by linarith
    have later := ih fewer (by linarith)
    have same : tokens - 1 - n = tokens - ((n + 1 : ℕ) : ℚ) := by
      push_cast
      ring
    rw [List.replicate_succ, List.cons_append, decisionsExpiring_cons rate burst]
    simp only [Option.filter_some_pos live, Option.map_some, drawn, parseTokenBucketResult, if_true, List.countP_cons]
    rw [later, same]
    omega

/-- A key that has expired is as good as one that holds a full bucket. -/
theorem decisionsExpiring_expired (rate : 0 < profile.ratePerSecond) (burst : 0 < profile.burst)
    {key : Option ExpiringKey} (gone : key.filter (·.live keeps nowMs) = none) (rest : List ℤ) :
    decisionsExpiring overflow profile keeps key (nowMs :: rest) =
      decisionsExpiring overflow profile keeps
        (some ⟨⟨profile.burst, nowMs⟩, nowMs + milliseconds (ttl overflow profile)⟩) (nowMs :: rest) := by
  have live := live_written overflow profile keeps nowMs ⟨profile.burst, nowMs⟩
  rw [decisionsExpiring_cons rate burst, decisionsExpiring_cons rate burst, gone, Option.filter_some_pos live,
    Option.map_none, Option.map_some, tokenBucketScript_none]

/-- The whole bucket at a moment, and again when its key has just expired. -/
def twofold (overflow : ℤ) (profile : TokenBucketProfile) : List ℤ :=
  List.replicate profile.burst.toNat 0 ++ List.replicate profile.burst.toNat (milliseconds (ttl overflow profile))

theorem twofold_sorted : (twofold overflow profile).Pairwise (· ≤ ·) := by
  have positive := ttl_positive overflow profile
  refine List.pairwise_append.mpr
    ⟨List.pairwise_replicate.mpr (.inr le_rfl), List.pairwise_replicate.mpr (.inr le_rfl), ?_⟩
  intro first early second late
  rw [List.eq_of_mem_replicate early, List.eq_of_mem_replicate late]
  omega

/-- A server that expires the key grants all of them. -/
theorem countP_twofold (rate : 0 < profile.ratePerSecond) (burst : 0 < profile.burst) :
    (decisionsExpiring overflow profile false none (twofold overflow profile)).countP (·.allowed) =
      profile.burst.toNat + profile.burst.toNat := by
  obtain ⟨n, several⟩ : ∃ n, profile.burst.toNat = n + 1 := ⟨profile.burst.toNat - 1, by omega⟩
  have whole : ((n + 1 : ℕ) : ℚ) = profile.burst := by
    rw [← several]
    exact_mod_cast Int.toNat_of_nonneg burst.le
  have emptied : (profile.burst : ℚ) - ((n + 1 : ℕ) : ℚ) = 0 := by rw [whole, sub_self]
  set late := milliseconds (ttl overflow profile) with late_eq
  have gone : (some (⟨⟨0, 0⟩, 0 + late⟩ : ExpiringKey)).filter (·.live false late) = none := by
    rw [Option.filter_some_neg]
    simp [ExpiringKey.live]
  have second := granted_at_once overflow false late rate whole.le le_rfl []
  have first := granted_at_once overflow false 0 rate whole.le le_rfl
    (List.replicate (n + 1) late)
  rw [emptied, ← late_eq, List.replicate_succ (a := late), decisionsExpiring_expired rate burst gone,
    ← List.replicate_succ, ← List.append_nil (List.replicate (n + 1) late), second] at first
  rw [twofold, several, ← late_eq, List.replicate_succ, List.cons_append,
    decisionsExpiring_expired rate burst (Option.filter_none ..), ← List.cons_append, ← List.replicate_succ, ← late_eq,
    ← List.append_nil (List.replicate (n + 1) late), first]
  simp [decisionsExpiring]

/-- One that keeps it has not refilled the bucket yet. -/
theorem allowed_twofold (rate : 0 < profile.ratePerSecond) (burst : 0 < profile.burst)
    (short : ¬ Lasting overflow profile) :
    allowed profile (twofold overflow profile) < profile.burst.toNat + profile.burst.toNat := by
  obtain ⟨n, several⟩ : ∃ n, profile.burst.toNat = n + 1 := ⟨profile.burst.toNat - 1, by omega⟩
  have positive := ttl_positive overflow profile
  have way : advance (twofold overflow profile) = milliseconds (ttl overflow profile) := by
    have still := moves_replicate 0 n (List.replicate (n + 1) (milliseconds (ttl overflow profile)))
    have again := moves_replicate (milliseconds (ttl overflow profile)) n []
    rw [List.append_nil] at again
    rw [twofold, several, List.replicate_succ, List.cons_append, advance, still, List.replicate_succ, moves, again]
    simp [moves]
    omega
  have granted := allowed_le rate burst (twofold overflow profile)
  have natural : ((profile.burst.toNat : ℕ) : ℚ) = profile.burst := by
    exact_mod_cast Int.toNat_of_nonneg burst.le
  have less : refill profile.ratePerSecond (milliseconds (ttl overflow profile)) < profile.burst := not_le.mp short
  rw [way] at granted
  have cast : (allowed profile (twofold overflow profile) : ℚ) <
      ((profile.burst.toNat + profile.burst.toNat : ℕ) : ℚ) := by
    push_cast
    rw [natural]
    linarith
  exact_mod_cast cast

theorem twofold_differs (rate : 0 < profile.ratePerSecond) (burst : 0 < profile.burst)
    (short : ¬ Lasting overflow profile) :
    decisionsExpiring overflow profile false none (twofold overflow profile) ≠
      decisions profile none (twofold overflow profile) := by
  intro same
  have fewer := allowed_twofold rate burst short
  rw [allowed, ← same, countP_twofold rate burst] at fewer
  omega

/-- Keys that expire change no decision exactly where the ttl lasts a full refill: the time
of two refills is a duration, or what the machine takes for it is long enough. -/
theorem expiry_changes_nothing_iff (overflow : ℤ) (rate : 0 < profile.ratePerSecond) (burst : 0 < profile.burst) :
    (∀ keeps readings, readings.Pairwise (· ≤ ·) →
      decisionsExpiring overflow profile keeps none readings = decisions profile none readings) ↔
      Timed profile ∨ profile.burst * 1000 ≤ profile.ratePerSecond * milliseconds (max second overflow) := by
  rw [← lasting_iff rate burst]
  constructor
  · intro same
    by_contra short
    exact twofold_differs rate burst short (same false _ twofold_sorted)
  · intro lasting keeps readings _
    exact decisionsExpiring_of_lasting lasting rate burst

/-- The last request comes when the key has expired. -/
theorem expiry_changes_nothing_iff_idle :
    decisionsExpiring (-2 ^ 63) { ratePerSecond := 3, burst := 1 } false none [0, 10, 1010] =
      [⟨true, "allowed"⟩, ⟨false, "rejected"⟩, ⟨true, "allowed"⟩] := by
  have timed : Timed { ratePerSecond := 3, burst := 1 } := by decide
  have same := (expiry_changes_nothing_iff (-2 ^ 63) (show (0 : ℤ) < 3 by decide)
    (show (0 : ℤ) < 1 by decide)).mpr (.inl timed)
  rw [same false [0, 10, 1010] (by decide)]
  decide +kernel

/-- On amd64 the key of a bucket of five billion tokens, that gains one a second, expires
after a second. -/
theorem expiry_changes_decisions :
    let readings : List ℤ := List.replicate 5000000000 0 ++ List.replicate 5000000000 1000
    readings.Pairwise (· ≤ ·) ∧
      decisionsExpiring (-2 ^ 63) { ratePerSecond := 1, burst := 5000000000 } false none readings ≠
        decisions { ratePerSecond := 1, burst := 5000000000 } none readings := by
  have expires : milliseconds (ttl (-2 ^ 63) { ratePerSecond := 1, burst := 5000000000 }) = 1000 := by decide +kernel
  have same : twofold (-2 ^ 63) { ratePerSecond := 1, burst := 5000000000 } =
      List.replicate 5000000000 0 ++ List.replicate 5000000000 1000 := by
    have requests : (5000000000 : ℤ).toNat = 5000000000 := by decide
    simp only [twofold, expires, requests]
  dsimp only
  rw [← same]
  refine ⟨twofold_sorted, twofold_differs (by decide) (by decide) ?_⟩
  rw [lasting_iff (by decide) (by decide)]
  decide +kernel

end Gateway

end MonkeyOcr
