import Mathlib

namespace Codec.Binary64

/-- `n / d` rounded to a natural number, ties to even. -/
def halfEven (n d : Nat) : Nat :=
  let q := n / d
  let r := n % d
  if 2 * r < d then q else if d < 2 * r then q + 1 else q + q % 2

/-- The significand `m` and the scale `e` of the double `m / 2 ^ e` nearest to
`n / d`, for positive `n` and `d`. -/
def quotient (n d : Nat) : Nat × Nat :=
  let e := 53 + d.log2 - n.log2
  let e := if 2 ^ 53 * d ≤ n * 2 ^ e then e - 1 else e
  (halfEven (n * 2 ^ e) d, e)

/-- The double nearest to `n`. -/
def nearest (n : Nat) : Nat :=
  let scale := 2 ^ (n.log2 - 52)
  halfEven n scale * scale

/-- `round(n / d, 4)` in ten-thousandths: the division rounds to a double
first, and it is the exact value of that double that is rounded. -/
def round4 (n d : Nat) : Nat :=
  if n = 0 then 0
  else
    let (m, e) := quotient n d
    halfEven (m * 10000) (2 ^ e)

/-- Both quotients are ties in decimal, but only `1 / 32` is a double. -/
example : round4 1 32 = 312 ∧ round4 1 160 = 63 := by decide +kernel

example : nearest (10 ^ 22) = 10 ^ 22 ∧ nearest (10 ^ 23) = 10 ^ 23 - 8388608 := by decide +kernel

end Codec.Binary64
