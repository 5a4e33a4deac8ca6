import MonkeyOcr.Gateway.Bucket
import Mathlib.Algebra.Order.BigOperators.Group.List
import Mathlib.Data.Rat.Floor
import Mathlib.Tactic.FieldSimp
import Mathlib.Tactic.Ring

namespace MonkeyOcr

namespace Gateway

/-- The hash at the key of a limiter. The script writes both fields together. -/
structure BucketHash where
  tokens : ℚ
  updatedAtMs : ℤ
  deriving DecidableEq

/-- What the script returns: the flag, the result and the tokens left. -/
structure ScriptResult where
  flag : ℤ
  result : String
  tokens : ℚ
  deriving DecidableEq

/-- `tokenBucketScript`, on a key that does not expire. -/
def tokenBucketScript (hash : Option BucketHash) (nowMs rate burst : ℤ) : ScriptResult × BucketHash :=
  let (tokens, updatedAtMs) : ℚ × ℤ := match hash with
    | none => (burst, nowMs)
    | some fields => (fields.tokens, fields.updatedAtMs)
  let elapsedMs := nowMs - updatedAtMs
  let elapsedMs := if elapsedMs < 0 then 0 else elapsedMs
  let tokens := min (burst : ℚ) (tokens + (elapsedMs : ℚ) / 1000 * rate)
  let updatedAtMs := nowMs
  if tokens ≥ 1 then
    let tokens := tokens - 1
    ({ flag := 1, result := "allowed", tokens }, { tokens, updatedAtMs })
  else
    ({ flag := 0, result := "rejected", tokens }, { tokens, updatedAtMs })

structure TokenBucketProfile where
  ratePerSecond : ℤ
  burst : ℤ

structure RateLimitDecision where
  allowed : Bool
  result : String
  deriving DecidableEq

def parseTokenBucketResult (value : ScriptResult) : RateLimitDecision :=
  if value.flag = 1 then { allowed := true, result := value.result }
  else { allowed := false, result := value.result }

/-- `RedisLimiter.GetRateLimitDecision` for a target, at a reading of the clock
of one gateway. It returns the decision and the hash at the key of the target. -/
def getRateLimitDecision (profile : TokenBucketProfile) (nowMs : ℤ) (hash : Option BucketHash) :
    RateLimitDecision × Option BucketHash :=
  if profile.ratePerSecond ≤ 0 ∨ profile.burst ≤ 0 then ({ allowed := true, result := "disabled" }, hash)
  else
    let (value, hash) := tokenBucketScript hash nowMs profile.ratePerSecond profile.burst
    (parseTokenBucketResult value, some hash)

/-- The decisions of the gateways for one key, in the order in which the server
evaluates the script. Each reading is that of the gateway which asks. -/
def decisions (profile : TokenBucketProfile) : Option BucketHash → List ℤ → List RateLimitDecision
  | _, [] => []
  | hash, nowMs :: rest =>
    let (decision, hash) := getRateLimitDecision profile nowMs hash
    decision :: decisions profile hash rest

/-- How many of the requests are allowed. -/
def allowed (profile : TokenBucketProfile) (readings : List ℤ) : Nat :=
  (decisions profile none readings).countP (·.allowed)

/-- The largest reading less the smallest. -/
def span (readings : List ℤ) : ℤ := readings.max?.getD 0 - readings.min?.getD 0

/-- The limit of the profile for the time between two readings. -/
def Within (profile : TokenBucketProfile) (readings : List ℤ) : Prop :=
  (allowed profile readings : ℚ) ≤ profile.burst + profile.ratePerSecond * span readings / 1000

instance : Decidable (Within profile readings) := inferInstanceAs (Decidable (_ ≤ _))

/-- How far the clock moves forwards from one reading to the next, where a move
backwards counts as none. -/
def moves : ℤ → List ℤ → List ℤ
  | _, [] => []
  | last, nowMs :: rest => max 0 (nowMs - last) :: moves nowMs rest

/-- The whole way the clock goes forwards, with the stretches it goes twice
counted twice. -/
def advance : List ℤ → ℤ
  | [] => 0
  | first :: rest => (moves first rest).sum

/-- What the script refills for a move of the clock. -/
def refill (rate elapsedMs : ℤ) : ℚ := (elapsedMs : ℚ) / 1000 * rate

theorem moves_nonneg {last : ℤ} {readings : List ℤ} : ∀ move ∈ moves last readings, 0 ≤ move := by
  induction readings generalizing last with
  | nil => simp [moves]
  | cons nowMs rest ih =>
    intro move member
    rcases List.mem_cons.mp member with rfl | member
    · exact le_max_left _ _
    · exact ih move member

theorem moves_replicate (last : ℤ) (n : Nat) (rest : List ℤ) :
    moves last (List.replicate n last ++ rest) = List.replicate n 0 ++ moves last rest := by
  induction n with
  | zero => rfl
  | succ n ih => simp [List.replicate_succ, moves, ih]

theorem sum_refill (rate : ℤ) (moves : List ℤ) : (moves.map (refill rate)).sum = refill rate moves.sum := by
  induction moves with
  | nil => simp [refill]
  | cons move rest ih =>
    rw [List.map_cons, List.sum_cons, List.sum_cons, ih]
    unfold refill
    push_cast
    ring

/-- The script serves a request from the bucket at its key. -/
theorem tokenBucketScript_draw (tokens : ℚ) (last nowMs rate burst : ℤ) :
    let (value, hash) := tokenBucketScript (some { tokens, updatedAtMs := last }) nowMs rate burst
    let (granted, level) := Bucket.draw (burst : ℚ) tokens (refill rate (max 0 (nowMs - last)))
    (if (parseTokenBucketResult value).allowed then 1 else 0) = granted ∧
      hash = { tokens := level, updatedAtMs := nowMs } := by
  have elapsed : (if nowMs - last < 0 then 0 else nowMs - last) = max 0 (nowMs - last) := by
    split <;> omega
  by_cases whole : 1 ≤ min (burst : ℚ) (tokens + refill rate (max 0 (nowMs - last)))
  · rw [Bucket.draw_of_one_le whole]
    simp only [refill] at whole
    simp only [tokenBucketScript, elapsed, ge_iff_le, if_pos whole, refill, parseTokenBucketResult, if_true,
      and_self]
  · rw [Bucket.draw_of_lt_one whole]
    simp only [refill] at whole
    simp only [tokenBucketScript, elapsed, ge_iff_le, if_neg whole, refill, parseTokenBucketResult, zero_ne_one,
      Bool.false_eq_true, if_false, and_self]

/-- A key without a hash is a full bucket. -/
theorem tokenBucketScript_none (nowMs rate burst : ℤ) :
    tokenBucketScript none nowMs rate burst =
      tokenBucketScript (some { tokens := burst, updatedAtMs := nowMs }) nowMs rate burst := rfl

/-- The decisions for a key are those of a bucket with the refills of the moves. -/
theorem countP_decisions {profile : TokenBucketProfile} (rate : 0 < profile.ratePerSecond)
    (burst : 0 < profile.burst) (tokens : ℚ) (last : ℤ) (readings : List ℤ) :
    (decisions profile (some { tokens, updatedAtMs := last }) readings).countP (·.allowed) =
      (Bucket.serve (profile.burst : ℚ) tokens
        ((moves last readings).map (refill profile.ratePerSecond))).1 := by
  induction readings generalizing tokens last with
  | nil => rfl
  | cons nowMs rest ih =>
    have enabled : ¬ (profile.ratePerSecond ≤ 0 ∨ profile.burst ≤ 0) := by omega
    have drawn := tokenBucketScript_draw tokens last nowMs profile.ratePerSecond profile.burst
    dsimp only at drawn
    obtain ⟨granted, hash⟩ := drawn
    simp only [decisions, getRateLimitDecision, if_neg enabled, List.countP_cons, moves, List.map_cons,
      Bucket.serve_cons]
    rw [hash, ih, granted, Nat.add_comm]

/-- The first request finds a full bucket. -/
theorem allowed_cons {profile : TokenBucketProfile} (rate : 0 < profile.ratePerSecond) (burst : 0 < profile.burst)
    (first : ℤ) (rest : List ℤ) :
    allowed profile (first :: rest) =
      (Bucket.serve (profile.burst : ℚ) profile.burst
        ((moves first (first :: rest)).map (refill profile.ratePerSecond))).1 := by
  have enabled : ¬ (profile.ratePerSecond ≤ 0 ∨ profile.burst ≤ 0) := by omega
  rw [← countP_decisions rate burst]
  simp only [allowed, decisions, getRateLimitDecision, if_neg enabled, tokenBucketScript_none]

/-- Refills cost no more than the whole way forwards. -/
theorem allowed_le {profile : TokenBucketProfile} (rate : 0 < profile.ratePerSecond) (burst : 0 < profile.burst)
    (readings : List ℤ) :
    (allowed profile readings : ℚ) ≤ profile.burst + refill profile.ratePerSecond (advance readings) := by
  have room : (0 : ℚ) ≤ profile.burst := by exact_mod_cast burst.le
  cases readings with
  | nil => simpa [allowed, decisions, advance, refill] using room
  | cons first rest =>
    rw [allowed_cons rate burst]
    have still : (moves first (first :: rest)).sum = advance (first :: rest) := by simp [moves, advance]
    have more : ∀ amount ∈ (moves first (first :: rest)).map (refill profile.ratePerSecond), 0 ≤ amount := by
      intro amount member
      obtain ⟨move, moved, rfl⟩ := List.mem_map.mp member
      have forwards : (0 : ℚ) ≤ move := by exact_mod_cast moves_nonneg move moved
      have faster : (0 : ℚ) ≤ profile.ratePerSecond := by exact_mod_cast rate.le
      unfold refill
      positivity
    have paid := Bucket.granted_le room room more
    rwa [sum_refill, still] at paid

/-- Every reading asked for `n` times. -/
def repeated (n : Nat) (readings : List ℤ) : List ℤ := readings.flatMap (List.replicate n)

theorem advance_repeated (n : Nat) (readings : List ℤ) : advance (repeated (n + 1) readings) = advance readings := by
  have later : ∀ last, (moves last (repeated (n + 1) readings)).sum = (moves last readings).sum := by
    induction readings with
    | nil => intro last; rfl
    | cons first rest ih =>
      intro last
      have again := moves_replicate first n (repeated (n + 1) rest)
      simp only [repeated] at ih again
      simp [repeated, List.replicate_succ, moves, again, ih]
  cases readings with
  | nil => rfl
  | cons first rest =>
    have start := later first
    have still : max 0 (first - first) = 0 := by omega
    simp only [repeated, List.flatMap_cons, List.replicate_succ, List.cons_append, moves, List.sum_cons,
      still, zero_add] at start
    exact start

theorem span_congr {readings others : List ℤ} (same : ∀ reading, reading ∈ readings ↔ reading ∈ others) :
    span readings = span others := by
  have top : readings.max? = others.max? := by
    ext a
    simp only [List.max?_eq_some_iff, same]
  have bottom : readings.min? = others.min? := by
    ext a
    simp only [List.min?_eq_some_iff, same]
  rw [span, span, top, bottom]

theorem span_repeated (n : Nat) (readings : List ℤ) : span (repeated (n + 1) readings) = span readings := by
  refine span_congr fun reading => ?_
  simp [repeated, List.mem_replicate]

/-- A token for each millisecond. -/
theorem refill_milliseconds (elapsedMs : ℤ) : refill 1000 elapsedMs = elapsedMs := by
  unfold refill
  push_cast
  ring

theorem moves_repeated (last first : ℤ) (n : Nat) (rest : List ℤ) :
    (moves last (repeated (n + 1) (first :: rest))).map (refill 1000) =
      (((max 0 (first - last)).toNat : ℚ) :: List.replicate n 0) ++
        (moves first (repeated (n + 1) rest)).map (refill 1000) := by
  have again := moves_replicate first n (repeated (n + 1) rest)
  have natural : (((max 0 (first - last)).toNat : ℤ) : ℚ) = ((max 0 (first - last) : ℤ) : ℚ) := by
    rw [Int.toNat_of_nonneg (le_max_left _ _)]
  simp only [repeated] at again
  simp only [repeated, List.flatMap_cons, List.replicate_succ, List.cons_append, moves, again, List.map_cons,
    List.map_append, List.map_replicate, refill_milliseconds, Int.cast_zero, ← natural, Int.cast_natCast]

/-- Of enough requests at every reading, an empty bucket grants as many as the
clock goes forwards. -/
theorem serve_repeated {burst n : Nat} {last : ℤ} {readings : List ℤ}
    (way : (moves last readings).sum ≤ burst) (enough : burst ≤ n) :
    ((Bucket.serve (burst : ℚ) 0 ((moves last (repeated (n + 1) readings)).map (refill 1000))).1 : ℤ) =
      (moves last readings).sum := by
  induction readings generalizing last with
  | nil => rfl
  | cons first rest ih =>
    have forwards : 0 ≤ (moves first rest).sum := List.sum_nonneg moves_nonneg
    simp only [moves, List.sum_cons] at way ⊢
    have fits : (max 0 (first - last)).toNat ≤ burst := by omega
    have drained := Bucket.serve_refill_drain (max 0 (first - last)).toNat n
      (Nat.cast_le (α := ℚ).mpr fits) (by omega)
    have others := @ih first (by omega)
    rw [moves_repeated, Bucket.serve_append, drained]
    push_cast
    omega

/-- From a full bucket, the burst on top. -/
theorem allowed_repeated {burst n : Nat} {readings : List ℤ} (asked : readings ≠ []) (here : 0 < burst)
    (way : advance readings ≤ burst) (enough : burst ≤ n) :
    (allowed { ratePerSecond := 1000, burst := burst } (repeated (n + 1) readings) : ℤ) =
      burst + advance readings := by
  obtain ⟨first, rest, rfl⟩ := List.exists_cons_of_ne_nil asked
  have drained := Bucket.serve_drain (K := ℚ) burst (n + 1) le_rfl (by omega)
  have others := serve_repeated way enough
  have start : repeated (n + 1) (first :: rest) = first :: (List.replicate n first ++ repeated (n + 1) rest) := by
    simp [repeated, List.replicate_succ]
  have still : max 0 (first - first) = 0 := by omega
  rw [start, allowed_cons (show (0 : ℤ) < 1000 by decide) (Int.natCast_pos.mpr here)]
  simp only [moves, moves_replicate, still, List.map_append, List.map_replicate,
    refill_milliseconds, Int.cast_zero, ← List.cons_append, ← List.replicate_succ]
  rw [Bucket.serve_append, Int.cast_natCast, drained]
  push_cast
  exact congrArg _ others

/-- Every profile keeps to the limit on every sequence of readings that goes no stretch
forwards twice. -/
theorem rateLimit_within {profile : TokenBucketProfile} (rate : 0 < profile.ratePerSecond)
    (burst : 0 < profile.burst) {readings : List ℤ} (once : advance readings ≤ span readings) :
    Within profile readings := by
  have paid := allowed_le rate burst readings
  have faster : (0 : ℚ) ≤ profile.ratePerSecond := by exact_mod_cast rate.le
  have bounded : (advance readings : ℚ) ≤ span readings := by exact_mod_cast once
  have scaled := mul_le_mul_of_nonneg_left bounded faster
  unfold Within
  unfold refill at paid
  linarith

/-- A clock that goes a stretch forwards twice breaks the limit of a profile. -/
theorem not_within_of_lt_advance {readings : List ℤ} (further : span readings < advance readings) :
    ∃ burst : ℕ, 0 < burst ∧
      ¬ Within { ratePerSecond := 1000, burst := burst } (repeated (burst + 1) readings) := by
  have asked : readings ≠ [] := by
    intro empty
    subst empty
    exact lt_irrefl _ further
  obtain ⟨burst, way⟩ := Int.eq_ofNat_of_zero_le (show 0 ≤ max 1 (advance readings) by omega)
  have granted := allowed_repeated asked (show 0 < burst by omega) (show advance readings ≤ burst by omega) le_rfl
  have counted : (allowed { ratePerSecond := 1000, burst := burst } (repeated (burst + 1) readings) : ℚ) =
    burst + advance readings := by exact_mod_cast granted
  have longer : (span readings : ℚ) < advance readings := by exact_mod_cast further
  refine ⟨burst, by omega, fun limit => ?_⟩
  unfold Within at limit
  rw [span_repeated, counted] at limit
  push_cast at limit
  linarith

/-- The limit holds at every rate and burst, however many requests come at each
reading, exactly for the clocks that go no stretch forwards twice: what the
clock goes forwards is no more than the time between its extremes. -/
theorem rateLimit_within_iff (readings : List ℤ) :
    (∀ profile : TokenBucketProfile, 0 < profile.ratePerSecond → 0 < profile.burst →
      ∀ n, Within profile (repeated n readings)) ↔ advance readings ≤ span readings := by
  constructor
  · intro within
    by_contra further
    obtain ⟨burst, here, broken⟩ := not_within_of_lt_advance (not_le.mp further)
    exact broken (within _ (show (0 : ℤ) < 1000 by decide) (Int.natCast_pos.mpr here) _)
  · intro once profile rate burst n
    refine rateLimit_within rate burst ?_
    cases n with
    | zero =>
      have none : repeated 0 readings = [] := by simp [repeated]
      rw [none]
      exact le_rfl
    | succ n => rwa [advance_repeated, span_repeated]

/-- Two gateways whose clocks are a second apart, asking in turn. -/
theorem rateLimit_not_within :
    ¬ Within { ratePerSecond := 1, burst := 1 } [0, 1000, 0, 1000] := by decide +kernel

end Gateway

end MonkeyOcr
