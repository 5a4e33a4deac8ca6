import MonkeyOcr.Codec.Double
import MonkeyOcr.Codec.Json
import MonkeyOcr.Text.Trim
import Mathlib

namespace MonkeyOcr.Browser

open Codec (Json)

/-- The characters `trim` removes. -/
def isSpace (c : Char) : Bool :=
  let n := c.toNat
  (9 ≤ n && n ≤ 13) || n = 32 || n = 160 || n = 0x1680 || (0x2000 ≤ n && n ≤ 0x200A) || n = 0x2028 || n = 0x2029 ||
    n = 0x202F || n = 0x205F || n = 0x3000 || n = 0xFEFF

/-- `text.trim() === ""`. -/
def blank (text : String) : Bool := text.toList.all isSpace

/-- What a double stays below. -/
def limit : Nat := 2 ^ 1024

/-- The double nearest to a number, unless that is infinite. -/
def double? (x : ℚ) : Option ℚ :=
  let d := Codec.Double.nearest x
  if |d| < limit then some d else none

/-- The value of a numeral like `12`, `1.5`, `.5`, `5.` or `1e-5`. -/
def numeral? (text : List Char) : Option ℚ :=
  let mantissa := text.takeWhile fun c => c ≠ 'e' ∧ c ≠ 'E'
  let whole := mantissa.takeWhile (· ≠ '.')
  let fraction := (mantissa.dropWhile (· ≠ '.')).drop 1
  let exponent := text.drop (mantissa.length + 1)
  let scale : Option ℤ :=
    if text.length = mantissa.length then some 0
    else
      let digits := if exponent.head? = some '-' ∨ exponent.head? = some '+' then exponent.drop 1 else exponent
      if digits = [] then none
      else (Json.digits? digits).map fun e : Nat => if exponent.head? = some '-' then -(e : ℤ) else e
  if whole ++ fraction = [] then none
  else
    match Json.digits? (whole ++ fraction), scale with
    | some n, some e => some (n * 10 ^ (e - fraction.length))
    | _, _ => none

def signed? (text : List Char) : Option ℚ :=
  if text.head? = some '-' then (numeral? (text.drop 1)).map fun x => -x
  else if text.head? = some '+' then numeral? (text.drop 1)
  else numeral? text

def hexValue? (c : Char) : Option Nat :=
  let n := c.toNat
  if 48 ≤ n ∧ n ≤ 57 then some (n - 48) else if 65 ≤ n ∧ n ≤ 70 then some (n - 55)
  else if 97 ≤ n ∧ n ≤ 102 then some (n - 87) else none

/-- The digits behind `0x`, `0o` or `0b`. -/
def radix? (radix : Nat) (digits : List Char) : Option ℚ :=
  if digits = [] then none
  else
    (digits.foldl (fun value c => value.bind fun n => ((hexValue? c).filter (· < radix)).map (n * radix + ·))
      (some 0)).map fun n : Nat => (n : ℚ)

/-- `Number(text)`, if it is finite. -/
def numberOf? (text : String) : Option ℚ :=
  let chars := trim isSpace text.toList
  let front := chars.take 2
  if chars = [] then some 0
  else if front = ['0', 'x'] ∨ front = ['0', 'X'] then (radix? 16 (chars.drop 2)).bind double?
  else if front = ['0', 'o'] ∨ front = ['0', 'O'] then (radix? 8 (chars.drop 2)).bind double?
  else if front = ['0', 'b'] ∨ front = ['0', 'B'] then (radix? 2 (chars.drop 2)).bind double?
  else (signed? chars).bind double?

/-- The number that `JSON.parse` has read, if it is one and finite. -/
def numeric? : Json → Option ℚ
  | .int value =>
    let magnitude := Codec.Binary64.nearest value.natAbs
    if magnitude < limit then some ((value.sign * magnitude : ℤ) : ℚ) else none
  | .float literal => (signed? literal.toList).bind double?
  | _ => none

/-- The value, if `Number.isInteger` takes it. -/
def integer? (value : Json) : Option ℤ := ((numeric? value).filter (·.den = 1)).map Rat.num

/-- `Number(value)`, if it is finite. An array is converted by way of its text. -/
def number? : Json → Option ℚ
  | .null => some 0
  | .bool value => some (if value then 1 else 0)
  | .str text => numberOf? text
  | .arr [] => some 0
  | .arr [.bool _] => none
  | .arr [item] => number? item
  | .arr _ => none
  | .obj _ => none
  | value => numeric? value

example : [Json.float "1.0", .int 9007199254740993, .float "1e400", .float "0.5"].map integer? =
    [some 1, some 9007199254740992, none, none] := by decide +kernel

example : [Json.str " -1.5e1 ", .str "0x1F", .str "", .arr [.str "7"], .str "7 8", .obj []].map number? =
    [some (-15), some 31, some 0, some 7, none, none] := by decide +kernel

/-- The double nearest to a natural number is one, and is not zero for another. -/
theorem nearest_bounds (n : Nat) :
    (Codec.Binary64.nearest n = 0 ↔ n = 0) ∧ Codec.Binary64.nearest n ≤ 2 * n := by
  by_cases zero : n = 0
  · subst zero
    decide
  · have below : 2 ^ (n.log2 - 52) ≤ n :=
      (Nat.pow_le_pow_right (by decide) (Nat.sub_le ..)).trans (Nat.log2_self_le zero)
    have positive : 0 < 2 ^ (n.log2 - 52) := Nat.pos_of_ne_zero (by simp)
    set scale := 2 ^ (n.log2 - 52) with scale_eq
    have least : 1 ≤ n / scale := (Nat.one_le_div_iff positive).mpr below
    have split := Nat.div_add_mod n scale
    have rest := Nat.mod_lt n positive
    have rounded : n / scale ≤ Codec.Binary64.halfEven n scale ∧
        (Codec.Binary64.halfEven n scale) * scale ≤ 2 * n := by
      unfold Codec.Binary64.halfEven
      dsimp only
      have more : n / scale * scale ≤ n := Nat.div_mul_le_self n scale
      split
      · exact ⟨le_rfl, by omega⟩
      · split
        · refine ⟨by omega, ?_⟩
          rw [Nat.add_mul]
          omega
        · refine ⟨by omega, ?_⟩
          have parity := Nat.mod_lt (n / scale) (show 0 < 2 by decide)
          calc (n / scale + n / scale % 2) * scale ≤ (n / scale + 1) * scale := Nat.mul_le_mul_right _ (by omega)
            _ ≤ 2 * n := by
              rw [Nat.add_mul]
              omega
    have same : Codec.Binary64.nearest n = Codec.Binary64.halfEven n scale * scale := rfl
    rw [same]
    refine ⟨?_, rounded.2⟩
    simp only [zero, iff_false]
    exact Nat.mul_ne_zero (by omega) (by omega)

theorem lt_limit {n : Nat} (small : n ≤ 2 ^ 64) : n < limit :=
  small.trans_lt (pow_lt_pow_right₀ (by omega) (by omega))

/-- Small integers are doubles. -/
theorem nearest_of_lt {n : Nat} (small : n < 2 ^ 53) : Codec.Binary64.nearest n = n := by
  have scale : n.log2 - 52 = 0 := by
    by_cases zero : n = 0
    · rw [zero]
      decide
    · have below := (Nat.log2_lt zero).mpr small
      omega
  simp [Codec.Binary64.nearest, scale, Codec.Binary64.halfEven, Nat.mod_one]

theorem numeric?_int {n : ℤ} (finite : Codec.Binary64.nearest n.natAbs < limit) :
    numeric? (.int n) = some ((n.sign * Codec.Binary64.nearest n.natAbs : ℤ) : ℚ) := by
  rw [numeric?]
  exact if_pos finite

/-- A number that an int64 holds is finite, and zero only if it is. -/
theorem integer?_int {n : ℤ} (least : -2 ^ 63 ≤ n) (greatest : n < 2 ^ 63) :
    ∃ m, integer? (.int n) = some m ∧ (m = 0 ↔ n = 0) := by
  obtain ⟨zero, bound⟩ := nearest_bounds n.natAbs
  have finite : Codec.Binary64.nearest n.natAbs < limit := lt_limit (bound.trans (by omega))
  refine ⟨n.sign * Codec.Binary64.nearest n.natAbs, ?_, ?_⟩
  · rw [integer?, numeric?_int finite, Option.filter_some, Rat.den_intCast]
    simp only [decide_true, if_true, Option.map_some, Rat.num_intCast]
  · rw [mul_eq_zero, Int.sign_eq_zero_iff_zero, Int.natCast_eq_zero, zero, Int.natAbs_eq_zero, or_self]

end MonkeyOcr.Browser
