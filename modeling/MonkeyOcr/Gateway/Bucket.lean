import Mathlib.Algebra.Order.Field.Basic
import Mathlib.Algebra.BigOperators.Group.List.Basic
import Mathlib.Data.Nat.Cast.Order.Field
import Mathlib.Tactic.Linarith

namespace MonkeyOcr

namespace Bucket

variable {K : Type*} [Field K] [LinearOrder K]

/-- One request at a bucket of the given capacity: first the refill, then a
token if there is a whole one. -/
def draw (capacity tokens refill : K) : Nat × K :=
  let level := min capacity (tokens + refill)
  if 1 ≤ level then (1, level - 1) else (0, level)

/-- How many of the requests get a token, and the level after the last. Each
request brings the refill since the one before it. -/
def serve (capacity : K) : K → List K → Nat × K
  | tokens, [] => (0, tokens)
  | tokens, refill :: rest =>
    let (granted, level) := draw capacity tokens refill
    let (more, last) := serve capacity level rest
    (granted + more, last)

theorem draw_of_one_le {capacity tokens refill : K} (whole : 1 ≤ min capacity (tokens + refill)) :
    draw capacity tokens refill = (1, min capacity (tokens + refill) - 1) := if_pos whole

theorem draw_of_lt_one {capacity tokens refill : K} (less : ¬ 1 ≤ min capacity (tokens + refill)) :
    draw capacity tokens refill = (0, min capacity (tokens + refill)) := if_neg less

theorem serve_cons (capacity tokens refill : K) (rest : List K) :
    serve capacity tokens (refill :: rest) =
      ((draw capacity tokens refill).1 + (serve capacity (draw capacity tokens refill).2 rest).1,
        (serve capacity (draw capacity tokens refill).2 rest).2) := rfl

theorem serve_append (capacity tokens : K) (first second : List K) :
    serve capacity tokens (first ++ second) =
      ((serve capacity tokens first).1 + (serve capacity (serve capacity tokens first).2 second).1,
        (serve capacity (serve capacity tokens first).2 second).2) := by
  induction first generalizing tokens with
  | nil => simp [serve]
  | cons refill rest ih => simp only [List.cons_append, serve_cons, ih, Nat.add_assoc]

variable [IsStrictOrderedRing K]

/-- No token is granted that was not there or brought. -/
theorem draw_le (capacity tokens refill : K) :
    ((draw capacity tokens refill).1 : K) + (draw capacity tokens refill).2 ≤ tokens + refill := by
  have level := min_le_right capacity (tokens + refill)
  by_cases whole : 1 ≤ min capacity (tokens + refill)
  · rw [draw_of_one_le whole]
    push_cast
    linarith
  · rw [draw_of_lt_one whole]
    push_cast
    linarith

theorem draw_nonneg {capacity tokens refill : K} (room : 0 ≤ capacity) (some : 0 ≤ tokens) (more : 0 ≤ refill) :
    0 ≤ (draw capacity tokens refill).2 := by
  have level : 0 ≤ min capacity (tokens + refill) := le_min room (add_nonneg some more)
  by_cases whole : 1 ≤ min capacity (tokens + refill)
  · rw [draw_of_one_le whole]
    exact sub_nonneg.mpr whole
  · rw [draw_of_lt_one whole]
    exact level

theorem serve_le (capacity tokens : K) (refills : List K) :
    ((serve capacity tokens refills).1 : K) + (serve capacity tokens refills).2 ≤ tokens + refills.sum := by
  induction refills generalizing tokens with
  | nil => simp [serve]
  | cons refill rest ih =>
    have first := draw_le capacity tokens refill
    have others := ih (draw capacity tokens refill).2
    rw [serve_cons, List.sum_cons]
    push_cast
    linarith

theorem serve_nonneg {capacity tokens : K} {refills : List K} (room : 0 ≤ capacity) (some : 0 ≤ tokens)
    (more : ∀ refill ∈ refills, 0 ≤ refill) : 0 ≤ (serve capacity tokens refills).2 := by
  induction refills generalizing tokens with
  | nil => exact some
  | cons refill rest ih =>
    have here := draw_nonneg room some (more refill List.mem_cons_self)
    exact ih here fun other member => more other (List.mem_cons_of_mem _ member)

/-- The amortised bound: what is granted was there at the start or was brought. -/
theorem granted_le {capacity tokens : K} {refills : List K} (room : 0 ≤ capacity) (some : 0 ≤ tokens)
    (more : ∀ refill ∈ refills, 0 ≤ refill) :
    ((serve capacity tokens refills).1 : K) ≤ tokens + refills.sum := by
  have total := serve_le capacity tokens refills
  have rest := serve_nonneg room some more
  linarith

/-- Enough requests with no time between them empty the bucket. -/
theorem serve_drain {capacity : K} (tokens n : Nat) (fits : (tokens : K) ≤ capacity) (enough : tokens ≤ n) :
    serve capacity tokens (List.replicate n 0) = (tokens, 0) := by
  induction n generalizing tokens with
  | zero =>
    have empty : tokens = 0 := by omega
    simp [serve, empty]
  | succ n ih =>
    rw [List.replicate_succ, serve_cons]
    have level : min capacity ((tokens : K) + 0) = tokens := by
      rw [add_zero]
      exact min_eq_right fits
    cases tokens with
    | zero =>
      have less : ¬ 1 ≤ min capacity (((0 : Nat) : K) + 0) := by
        rw [level, Nat.cast_zero]
        exact not_le.mpr zero_lt_one
      rw [draw_of_lt_one less, level, ih 0 fits (Nat.zero_le n)]
      simp
    | succ rest =>
      have whole : 1 ≤ min capacity (((rest + 1 : Nat) : K) + 0) := by
        rw [level]
        exact_mod_cast Nat.le_add_left 1 rest
      have below : (rest : K) ≤ capacity := by
        push_cast at fits
        linarith
      have others := ih rest below (by omega)
      rw [draw_of_one_le whole, level, Nat.cast_add, Nat.cast_one, add_sub_cancel_right, others, Nat.add_comm]

/-- The same after a refill that fits into the empty bucket. -/
theorem serve_refill_drain {capacity : K} (refill n : Nat) (fits : (refill : K) ≤ capacity) (enough : refill ≤ n + 1) :
    serve capacity 0 ((refill : K) :: List.replicate n 0) = (refill, 0) := by
  have drained := serve_drain refill (n + 1) fits enough
  rw [List.replicate_succ, serve_cons] at drained
  rw [serve_cons]
  have same : draw capacity 0 (refill : K) = draw capacity (refill : K) 0 := by
    unfold draw
    rw [zero_add, add_zero]
  rw [same, drained]

end Bucket

end MonkeyOcr
