import MonkeyOcr.Text.Trim

namespace Codec

/-- The zeros of the decimal digits of Unicode; the other nine follow each. -/
def decimalZeros : List Nat :=
  [0x30, 0x660, 0x6F0, 0x7C0, 0x966, 0x9E6, 0xA66, 0xAE6, 0xB66, 0xBE6, 0xC66, 0xCE6, 0xD66, 0xDE6, 0xE50, 0xED0, 0xF20,
    0x1040, 0x1090, 0x17E0, 0x1810, 0x1946, 0x19D0, 0x1A80, 0x1A90, 0x1B50, 0x1BB0, 0x1C40, 0x1C50, 0xA620, 0xA8D0,
    0xA900, 0xA9D0, 0xA9F0, 0xAA50, 0xABF0, 0xFF10, 0x104A0, 0x10D30, 0x11066, 0x110F0, 0x11136, 0x111D0, 0x112F0,
    0x11450, 0x114D0, 0x11650, 0x116C0, 0x11730, 0x118E0, 0x11950, 0x11C50, 0x11D50, 0x11DA0, 0x11F50, 0x16A60, 0x16AC0,
    0x16B50, 0x1D7CE, 0x1D7D8, 0x1D7E2, 0x1D7EC, 0x1D7F6, 0x1E140, 0x1E2F0, 0x1E4F0, 0x1E950, 0x1FBF0]

/-- `unicodedata.decimal` -/
def decimal? (c : Char) : Option Nat :=
  (decimalZeros.find? fun least => least ≤ c.toNat && c.toNat < least + 10).map fun least => c.toNat - least

/-- Digits, with single underscores between them. `digit` tells whether one stands before. -/
def decimals? (digit : Bool) (value : Nat) : List Char → Option Nat
  | [] => if digit then some value else none
  | c :: rest =>
    if c = '_' then if digit then decimals? false value rest else none
    else
      match decimal? c with
      | some d => decimals? true (10 * value + d) rest
      | none => none

/-- `int(text)`, which drops the blanks that `unicode.IsSpace` takes from both ends. -/
def int? (text : String) : Option Int :=
  let chars := MonkeyOcr.trim MonkeyOcr.goSpace text.toList
  let unsigned := if chars.head? = some '-' ∨ chars.head? = some '+' then chars.drop 1 else chars
  (decimals? false 0 unsigned).map fun n : Nat => if chars.head? = some '-' then -(n : Int) else n

example : int? " +1_0\n" = some 10 ∧ int? "-٣" = some (-3) ∧ int? "1__0" = none ∧ int? "" = none := by decide +kernel

theorem decimal?_of_isDigit {c : Char} (digit : c.isDigit = true) : decimal? c = some (c.toNat - '0'.toNat) := by
  simp only [Char.isDigit, Bool.and_eq_true, decide_eq_true_eq] at digit
  have low : 48 ≤ c.toNat := digit.1
  have high : c.toNat < 48 + 10 := Nat.lt_succ_of_le digit.2
  simp [decimal?, decimalZeros, low, high]

theorem digit_solid {c : Char} (digit : c.isDigit = true) : c ≠ '_' := by
  intro same
  rw [same] at digit
  exact absurd digit (by decide)

theorem decimals?_digits {digits : List Char} (all : ∀ c ∈ digits, c.isDigit = true) (value : Nat) :
    decimals? true value digits = some (Nat.ofDigitChars 10 digits value) := by
  induction digits generalizing value with
  | nil => simp [decimals?]
  | cons c rest ih =>
    have here := all c List.mem_cons_self
    have later := ih fun d member => all d (List.mem_cons_of_mem c member)
    have solid := digit_solid here
    simp only [decimals?, if_neg solid, decimal?_of_isDigit here, later, Nat.ofDigitChars_cons]

/-- A digit is no blank and no sign. -/
theorem digit_plain {c : Char} (digit : c.isDigit = true) : MonkeyOcr.goSpace c = false ∧ c ≠ '-' ∧ c ≠ '+' := by
  simp only [Char.isDigit, Bool.and_eq_true, decide_eq_true_eq] at digit
  have low : 48 ≤ c.toNat := digit.1
  have high : c.toNat ≤ 57 := digit.2
  refine ⟨?_, ?_, ?_⟩
  · simp only [MonkeyOcr.goSpace, Bool.or_eq_false_iff, Bool.and_eq_false_iff, decide_eq_false_iff_not]
    omega
  · intro same
    rw [same] at low
    exact absurd low (by decide)
  · intro same
    rw [same] at low
    exact absurd low (by decide)

/-- What `str` writes for a number, `int` reads. -/
theorem int?_toString (n : Nat) : int? (toString n) = some (n : Int) := by
  have written : (toString n).toList = Nat.toDigits 10 n := by simp
  have all : ∀ c ∈ Nat.toDigits 10 n, c.isDigit = true :=
    fun c member => Nat.isDigit_of_mem_toDigits (by decide) (by decide) member
  have trimmed : MonkeyOcr.trim MonkeyOcr.goSpace (Nat.toDigits 10 n) = Nat.toDigits 10 n := by
    have solid : ∀ {digits : List Char}, (∀ c ∈ digits, c.isDigit = true) →
        digits.dropWhile MonkeyOcr.goSpace = digits := by
      intro digits all
      cases digits with
      | nil => rfl
      | cons c rest => simp [(digit_plain (all c List.mem_cons_self)).1]
    rw [MonkeyOcr.trim, solid all, solid (by simpa using all), List.reverse_reverse]
  have value := decimals?_digits all 0
  rw [Nat.ofDigitChars_ten_toDigits] at value
  have some' := Nat.toDigits_ne_nil (n := n) (b := 10)
  simp only [int?, written, trimmed]
  generalize Nat.toDigits 10 n = digits at all value some' ⊢
  cases digits with
  | nil => exact absurd rfl some'
  | cons c rest =>
    obtain ⟨-, unnegated, unsigned⟩ := digit_plain (all c List.mem_cons_self)
    have solid : c ≠ '_' := digit_solid (all c List.mem_cons_self)
    simp only [decimals?, if_neg solid] at value
    simp only [List.head?_cons, Option.some.injEq, unnegated, unsigned, or_self, if_false, decimals?,
      if_neg solid, value, Option.map_some]

end Codec
