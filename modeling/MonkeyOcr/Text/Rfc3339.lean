import Mathlib.Data.List.Basic
import Mathlib.Data.Option.Basic

namespace MonkeyOcr

namespace Rfc3339

/-- The numbers of a timestamp. `zone` is `none` for `Z`. -/
structure Fields where
  year : Nat
  month : Nat
  day : Nat
  hour : Nat
  minute : Nat
  second : Nat
  zone : Option (Nat × Nat)
  deriving DecidableEq

def digit? (c : Char) : Option Nat := if '0' ≤ c ∧ c ≤ '9' then some (c.toNat - 48) else none

def isDigit (c : Char) : Bool := (digit? c).isSome

/-- `getnum` of Go: two digits, or one if the width is not fixed. -/
def getnum (fixed : Bool) : List Char → Option (Nat × List Char)
  | [] => none
  | [c] => if fixed then none else (digit? c).map fun high => (high, [])
  | c :: d :: rest =>
    match digit? c, digit? d with
    | some high, some low => some (10 * high + low, rest)
    | some high, none => if fixed then none else some (high, d :: rest)
    | none, _ => none

def getyear : List Char → Option (Nat × List Char)
  | a :: b :: rest => do
    let (century, _) ← getnum true [a, b]
    let (year, rest) ← getnum true rest
    return (100 * century + year, rest)
  | _ => none

def literal (expected : Char) : List Char → Option (List Char)
  | [] => none
  | c :: rest => if c = expected then some rest else none

/-- A separator and the digits behind it, if both are there. -/
def skipFraction (comma : Bool) : List Char → List Char
  | separator :: d :: rest =>
    if (separator = '.' ∨ comma ∧ separator = ',') ∧ isDigit d then rest.dropWhile isDigit else separator :: d :: rest
  | text => text

def getzone : List Char → Option (Option (Nat × Nat))
  | ['Z'] => some none
  | [sign, a, b, colon, c, d] => do
    if sign ≠ '+' ∧ sign ≠ '-' ∨ colon ≠ ':' then none
    let (hours, _) ← getnum true [a, b]
    let (minutes, _) ← getnum true [c, d]
    return some (hours, minutes)
  | _ => none

/-- A date and a time of day with its zone. Go takes an hour of one digit and a comma
before the fraction. -/
def scan (fixedHour comma : Bool) (text : List Char) : Option Fields := do
  let (year, text) ← getyear text
  let text ← literal '-' text
  let (month, text) ← getnum true text
  let text ← literal '-' text
  let (day, text) ← getnum true text
  let text ← literal 'T' text
  let (hour, text) ← getnum fixedHour text
  let text ← literal ':' text
  let (minute, text) ← getnum true text
  let text ← literal ':' text
  let (second, text) ← getnum true text
  let zone ← getzone (skipFraction comma text)
  return { year, month, day, hour, minute, second, zone }

/-- `daysIn` -/
def daysIn (month year : Nat) : Nat :=
  if month = 2 then if year % 4 = 0 ∧ (year % 100 ≠ 0 ∨ year % 400 = 0) then 29 else 28
  else if month ∈ [4, 6, 9, 11] then 30
  else 31

/-- A date and a time of day that exist. -/
def Fields.InRange (fields : Fields) : Prop :=
  (1 ≤ fields.month ∧ fields.month ≤ 12) ∧ (1 ≤ fields.day ∧ fields.day ≤ daysIn fields.month fields.year) ∧
    fields.hour < 24 ∧ fields.minute < 60 ∧ fields.second < 60

instance (fields : Fields) : Decidable fields.InRange := inferInstanceAs (Decidable (_ ∧ _))

/-- A zone of at most this many hours and minutes. -/
def Fields.ZoneWithin (fields : Fields) (hours minutes : Nat) : Prop :=
  ∀ zone ∈ fields.zone, zone.1 ≤ hours ∧ zone.2 ≤ minutes

instance (fields : Fields) (hours minutes : Nat) : Decidable (fields.ZoneWithin hours minutes) :=
  inferInstanceAs (Decidable (∀ zone ∈ fields.zone, _))

/-- `time.Parse(time.RFC3339Nano, text)`. Offsets of 24 hours or 60 minutes pass. -/
def goParse (text : String) : Option Fields :=
  (scan false true text.toList).filter fun fields => fields.InRange ∧ fields.ZoneWithin 24 60

/-- The regular expression of `isRfc3339`. -/
def matchesPattern (text : String) : Bool := (scan true false text.toList).isSome

/-- `Number.isFinite(Date.parse(text))` of a browser. The format of timestamps that
every browser reads is fixed, what it makes of others is not. -/
structure DateParse where
  finite : String → Bool
  reads : ∀ text fields, scan true false text.toList = some fields → fields.InRange → fields.ZoneWithin 23 59 →
    finite text = true

def isRfc3339 (date : DateParse) (value : String) : Bool := matchesPattern value && date.finite value

example : (goParse "2026-01-01T1:00:00,5+24:00").isSome ∧ ¬ matchesPattern "2026-01-01T1:00:00Z" := by
  decide +kernel

theorem literal_some {expected : Char} {text rest : List Char} (read : literal expected text = some rest) :
    text = expected :: rest := by
  cases text with
  | nil => simp [literal] at read
  | cons c tail =>
    by_cases same : c = expected
    · simp only [literal, same, if_true, Option.some.injEq] at read
      rw [same, read]
    · simp [literal, same] at read

/-- Two digits, and what follows them. -/
theorem getnum_fixed {text rest : List Char} {n : Nat} (read : getnum true text = some (n, rest)) :
    ∃ c d high low, text = c :: d :: rest ∧ digit? c = some high ∧ digit? d = some low := by
  unfold getnum at read
  split at read
  · cases read
  · simp at read
  · rename_i c d tail
    split at read
    · rename_i high low one two
      simp only [Option.some.injEq, Prod.mk.injEq] at read
      exact ⟨c, d, high, low, by rw [read.2], one, two⟩
    · simp at read
    · cases read

theorem getyear_some {text rest : List Char} {year : Nat} (read : getyear text = some (year, rest)) :
    rest = text.drop 4 := by
  unfold getyear at read
  split at read
  · rename_i a b tail
    simp only [Option.bind_eq_bind, Option.bind_eq_some_iff] at read
    obtain ⟨_, _, ⟨n, left⟩, second, result⟩ := read
    obtain ⟨c, d, _, _, rfl, _, _⟩ := getnum_fixed second
    simp only [pure, Option.some.injEq, Prod.mk.injEq] at result
    rw [← result.2]
    rfl
  · cases read

/-- An hour of one digit is one that is followed by something else. -/
theorem getnum_loose {text rest : List Char} {n : Nat} (read : getnum false text = some (n, rest)) :
    getnum true text = some (n, rest) ∨
      getnum true text = none ∧ ∃ c, text = c :: rest := by
  unfold getnum at read
  split at read
  · cases read
  · rename_i c
    right
    simp only [Bool.false_eq_true, if_false, Option.map_eq_some_iff, Prod.mk.injEq] at read
    obtain ⟨_, _, _, rfl⟩ := read
    exact ⟨rfl, c, rfl⟩
  · rename_i c d tail
    split at read
    · rename_i high low one two
      left
      simpa [getnum, one, two] using read
    · rename_i high one two
      right
      simp only [Bool.false_eq_true, if_false, Option.some.injEq, Prod.mk.injEq] at read
      obtain ⟨_, rfl⟩ := read
      exact ⟨by simp [getnum, one, two], c, rfl⟩
    · cases read

theorem skipFraction_eq {text : List Char} (point : text.head? ≠ some ',') :
    skipFraction false text = skipFraction true text := by
  unfold skipFraction
  split
  · rename_i separator d rest
    have other : separator ≠ ',' := by simpa using point
    simp [other]
  · rfl

theorem getzone_comma {text : List Char} (comma : text.head? = some ',') :
    getzone (skipFraction false text) = none := by
  have kept : skipFraction false text = text := by
    unfold skipFraction
    split
    · rename_i separator d rest
      have same : separator = ',' := by simpa using comma
      simp [same]
    · rfl
  rw [kept]
  unfold getzone
  split
  · simp at comma
  · rename_i sign a b colon c d
    have same : sign = ',' := by simpa using comma
    simp [same]
  · rfl

/-- What Go reads, the pattern takes if the hour has two digits and no comma follows
the seconds. -/
theorem scan_strict {text : List Char} {fields : Fields} (loose : scan false true text = some fields) :
    scan true false text = if text[13]? = some ':' ∧ text[19]? ≠ some ',' then some fields else none := by
  simp only [scan, Option.bind_eq_bind, Option.bind_eq_some_iff, pure, Option.some.injEq] at loose
  obtain ⟨⟨year, afterYear⟩, readYear, afterDash, firstDash, ⟨month, afterMonth⟩, readMonth, beforeDay, secondDash,
    ⟨day, afterDay⟩, readDay, clock, letter, ⟨hour, afterHour⟩, readHour, beforeMinute, firstColon,
    ⟨minute, afterMinute⟩, readMinute, beforeSecond, secondColon, ⟨second, tail⟩, readSecond, zone, readZone,
    result⟩ := loose
  have date : clock = text.drop 11 := by
    have one := getyear_some readYear
    have two := literal_some firstDash
    obtain ⟨_, _, _, _, three, _, _⟩ := getnum_fixed readMonth
    have four := literal_some secondDash
    obtain ⟨_, _, _, _, five, _, _⟩ := getnum_fixed readDay
    have six := literal_some letter
    subst three four five six
    simp only at two
    have whole := congrArg (List.drop 7) (two.symm.trans one)
    rw [List.drop_drop] at whole
    simpa using whole
  have at13 : text[13]? = clock[2]? := by rw [date, List.getElem?_drop]
  have at19 : text[19]? = clock[8]? := by rw [date, List.getElem?_drop]
  have minuteColon := literal_some firstColon
  obtain ⟨m, n, _, _, minuteDigits, mDigit, _⟩ := getnum_fixed readMinute
  simp only at minuteColon minuteDigits
  rcases getnum_loose readHour with strict | ⟨refused, c, single⟩
  · obtain ⟨a, b, _, _, hourDigits, _, _⟩ := getnum_fixed strict
    have secondsColon := literal_some secondColon
    obtain ⟨x, y, _, _, secondDigits, _, _⟩ := getnum_fixed readSecond
    simp only at secondsColon
    have colon : text[13]? = some ':' := by rw [at13, hourDigits, minuteColon]; rfl
    have separator : text[19]? = tail.head? := by
      rw [at19, hourDigits, minuteColon, minuteDigits, secondsColon, secondDigits]
      exact List.head?_eq_getElem?.symm
    simp only [scan, Option.bind_eq_bind, readYear, firstDash, readMonth, secondDash, readDay, letter, strict,
      firstColon, readMinute, secondColon, readSecond, Option.bind_some, colon, separator, true_and, pure]
    by_cases comma : tail.head? = some ','
    · simp [comma, getzone_comma comma]
    · rw [skipFraction_eq comma, readZone]
      simp [comma, result]
  · have digit : text[13]? = some m := by rw [at13, single, minuteColon, minuteDigits]; rfl
    have other : m ≠ ':' := by
      intro same
      rw [same] at mDigit
      simp [digit?] at mDigit
    simp only [scan, Option.bind_eq_bind, readYear, firstDash, readMonth, secondDash, readDay, letter, refused,
      Option.bind_some, Option.bind_none, digit, Option.some.injEq, other, false_and, if_false]

end Rfc3339

end MonkeyOcr
