import Mathlib.Data.List.Induction
import Mathlib.Tactic.Ring
import MonkeyOcr.Text.Rfc3339

namespace MonkeyOcr

namespace Rfc3339

/-- `time.Time` in its own zone, whose offset is given in minutes. -/
structure Timestamp where
  year : Nat
  month : Nat
  day : Nat
  hour : Nat
  minute : Nat
  second : Nat
  nanosecond : Nat
  offset : Int
  year_valid : year < 10000
  date_valid : (1 ≤ month ∧ month ≤ 12) ∧ 1 ≤ day ∧ day ≤ daysIn month year
  time_valid : hour < 24 ∧ minute < 60 ∧ second < 60 ∧ nanosecond < 10 ^ 9

def digitChar (n : Nat) : Char := Char.ofNat (48 + n)

/-- `appendInt`: the last digits of a number. -/
def digits : Nat → Nat → List Char
  | 0, _ => []
  | width + 1, n => digits width (n / 10) ++ [digitChar (n % 10)]

def value (digits : List Char) : Nat := digits.foldl (fun n c => 10 * n + (c.toNat - 48)) 0

/-- `appendNano` of `.999999999`: the fraction of a second without zeros at its end. -/
def formatFraction (nanosecond : Nat) : List Char :=
  if nanosecond = 0 then [] else '.' :: ((digits 9 nanosecond).reverse.dropWhile (· = '0')).reverse

def formatZone (offset : Int) : List Char :=
  if offset = 0 then ['Z']
  else (if offset < 0 then '-' else '+') :: digits 2 (offset.natAbs / 60) ++ ':' :: digits 2 (offset.natAbs % 60)

/-- `Time.MarshalJSON` without the quotes. It refuses offsets of 24 hours. -/
def Timestamp.marshal (t : Timestamp) : Option (List Char) :=
  if t.offset.natAbs / 60 < 24 then
    some (digits 4 t.year ++ '-' :: digits 2 t.month ++ '-' :: digits 2 t.day ++ 'T' :: digits 2 t.hour ++
      ':' :: digits 2 t.minute ++ ':' :: digits 2 t.second ++ formatFraction t.nanosecond ++ formatZone t.offset)
  else none

/-- The fraction of a second in nanoseconds, and what follows it. -/
def getfraction : List Char → Nat × List Char
  | separator :: d :: rest =>
    if (separator = '.' ∨ separator = ',') ∧ isDigit d then
      let fraction := ((d :: rest).takeWhile isDigit).take 9
      (value fraction * 10 ^ (9 - fraction.length), rest.dropWhile isDigit)
    else (0, separator :: d :: rest)
  | text => (0, text)

/-- The offset of a zone of at most 24 hours and 60 minutes. -/
def getoffset : List Char → Option Int
  | ['Z'] => some 0
  | [sign, a, b, colon, c, d] => do
    if sign ≠ '+' ∧ sign ≠ '-' ∨ colon ≠ ':' then none
    let (hours, _) ← getnum true [a, b]
    let (minutes, _) ← getnum true [c, d]
    if 24 < hours ∨ 60 < minutes then none
    return if sign = '-' then -(60 * hours + minutes : Nat) else (60 * hours + minutes : Nat)
  | _ => none

/-- `Time.UnmarshalJSON` of a text in quotes. -/
def Timestamp.unmarshal (text : List Char) : Option Timestamp := do
  let (year, text) ← getyear text
  let text ← literal '-' text
  let (month, text) ← getnum true text
  let text ← literal '-' text
  let (day, text) ← getnum true text
  let text ← literal 'T' text
  let (hour, text) ← getnum false text
  let text ← literal ':' text
  let (minute, text) ← getnum true text
  let text ← literal ':' text
  let (second, text) ← getnum true text
  let (nanosecond, text) := getfraction text
  let offset ← getoffset text
  if valid : year < 10000 ∧ ((1 ≤ month ∧ month ≤ 12) ∧ 1 ≤ day ∧ day ≤ daysIn month year) ∧
      (hour < 24 ∧ minute < 60 ∧ second < 60 ∧ nanosecond < 10 ^ 9) then
    some ⟨year, month, day, hour, minute, second, nanosecond, offset, valid.1, valid.2.1, valid.2.2⟩
  else none

/-! ### What is written is read back -/

theorem digit_digitChar : ∀ n < 10, digit? (digitChar n) = some n := by decide

theorem digitChar_toNat : ∀ n < 10, (digitChar n).toNat - 48 = n := by decide

theorem digits_length (width n : Nat) : (digits width n).length = width := by
  induction width generalizing n with
  | zero => rfl
  | succ width ih => rw [digits, List.length_append, ih, List.length_singleton]

theorem digits_isDigit (width n : Nat) : ∀ c ∈ digits width n, isDigit c = true := by
  induction width generalizing n with
  | zero => exact fun c none => absurd none List.not_mem_nil
  | succ width ih =>
    intro c member
    rcases List.mem_append.mp member with front | last
    · exact ih (n / 10) c front
    · rw [List.mem_singleton.mp last, isDigit, digit_digitChar (n % 10) (Nat.mod_lt _ (by decide))]
      rfl

theorem value_append (front : List Char) (c : Char) : value (front ++ [c]) = 10 * value front + (c.toNat - 48) := by
  rw [value, List.foldl_append]
  rfl

theorem value_digits (width n : Nat) : value (digits width n) = n % 10 ^ width := by
  induction width generalizing n with
  | zero => rw [Nat.pow_zero, Nat.mod_one]; rfl
  | succ width ih =>
    have last := digitChar_toNat (n % 10) (Nat.mod_lt _ (by decide))
    rw [digits, value_append, ih, last, Nat.pow_succ, Nat.mul_comm, Nat.mul_comm (10 ^ width) 10, Nat.mod_mul]
    omega

/-- Two digits are read back. -/
theorem getnum_digits {fixed : Bool} {n : Nat} (bound : n < 100) (rest : List Char) :
    getnum fixed (digits 2 n ++ rest) = some (n, rest) := by
  have shape : digits 2 n ++ rest = digitChar (n / 10) :: digitChar (n % 10) :: rest := by
    have tens : n / 10 % 10 = n / 10 := Nat.mod_eq_of_lt (by omega)
    simp only [digits, List.nil_append, List.cons_append, tens]
  rw [shape, getnum, digit_digitChar (n / 10) (by omega), digit_digitChar (n % 10) (by omega)]
  have whole : 10 * (n / 10) + n % 10 = n := by omega
  simp only [whole]

theorem digits_four (n : Nat) : digits 4 n = digits 2 (n / 100) ++ digits 2 n := by
  have quotient : n / 10 / 10 = n / 100 := by omega
  simp only [digits, List.nil_append, List.cons_append, quotient]

theorem getyear_digits {n : Nat} (bound : n < 10000) (rest : List Char) : getyear (digits 4 n ++ rest) = some (n, rest) := by
  have front : n / 100 < 100 := by omega
  have back : n % 100 < 100 := by omega
  have same : digits 2 n = digits 2 (n % 100) := by
    have units : n % 100 % 10 = n % 10 := by omega
    have tens : n % 100 / 10 % 10 = n / 10 % 10 := by omega
    simp only [digits, units, tens]
  rw [digits_four, List.append_assoc, same]
  have shape : digits 2 (n / 100) = [digitChar (n / 100 / 10), digitChar (n / 100 % 10)] := by
    have tens : n / 100 / 10 % 10 = n / 100 / 10 := Nat.mod_eq_of_lt (by omega)
    simp only [digits, List.nil_append, List.cons_append, tens]
  have century := @getnum_digits true _ front []
  rw [List.append_nil, shape] at century
  rw [shape]
  simp only [List.cons_append, List.nil_append, getyear, century, getnum_digits back]
  have whole : 100 * (n / 100) + n % 100 = n := by omega
  simp [whole]

theorem value_zeros (front : List Char) {zeros : List Char} (all : ∀ c ∈ zeros, c = '0') :
    value (front ++ zeros) = value front * 10 ^ zeros.length := by
  induction zeros using List.reverseRecOn with
  | nil => rw [List.append_nil, List.length_nil, Nat.pow_zero, Nat.mul_one]
  | append_singleton zeros c ih =>
    have here : c = '0' := all c (List.mem_append_right _ (List.mem_singleton.mpr rfl))
    have before := ih fun d member => all d (List.mem_append_left _ member)
    have nothing : '0'.toNat - 48 = 0 := by decide
    rw [← List.append_assoc, value_append, before, here, nothing, List.length_append, List.length_singleton, Nat.pow_succ]
    ring

/-- The fraction of a second is written without its last zeros. -/
theorem trimmed_digits (n : Nat) : ∃ zeros,
    digits 9 n = ((digits 9 n).reverse.dropWhile (· = '0')).reverse ++ zeros ∧ ∀ c ∈ zeros, c = '0' := by
  refine ⟨((digits 9 n).reverse.takeWhile (· = '0')).reverse, ?_, fun c member => ?_⟩
  · rw [← List.reverse_append, List.takeWhile_append_dropWhile, List.reverse_reverse]
  · have passes := List.all_takeWhile (p := fun c => decide (c = '0')) (l := (digits 9 n).reverse)
    exact of_decide_eq_true (List.all_eq_true.mp passes c (List.mem_reverse.mp member))

theorem takeWhile_digits {front rest : List Char} (all : ∀ c ∈ front, isDigit c = true)
    (stops : ∀ c ∈ rest.head?, isDigit c = false) :
    (front ++ rest).takeWhile isDigit = front ∧ (front ++ rest).dropWhile isDigit = rest := by
  rw [List.takeWhile_append_of_pos all, List.dropWhile_append_of_pos all]
  cases rest with
  | nil => exact ⟨List.append_nil front, rfl⟩
  | cons c rest =>
    have stop := stops c rfl
    rw [List.takeWhile_cons_of_neg (by simp [stop]), List.dropWhile_cons_of_neg (by simp [stop])]
    exact ⟨List.append_nil front, rfl⟩

theorem formatZone_head (offset : Int) : ∃ c rest, formatZone offset = c :: rest ∧ isDigit c = false ∧ c ≠ '.' ∧ c ≠ ',' := by
  rw [formatZone]
  split
  · exact ⟨'Z', [], rfl, by decide⟩
  · split
    · exact ⟨'-', _, rfl, by decide⟩
    · exact ⟨'+', _, rfl, by decide⟩

theorem getfraction_format {n : Nat} (bound : n < 10 ^ 9) (offset : Int) :
    getfraction (formatFraction n ++ formatZone offset) = (n, formatZone offset) := by
  obtain ⟨c, rest, zone, other, point, comma⟩ := formatZone_head offset
  rw [formatFraction]
  split
  · rename_i none
    rw [List.nil_append, zone, none]
    cases rest with
    | nil => rfl
    | cons d rest => rw [getfraction, if_neg (by simp [point, comma])]
  · rename_i some
    obtain ⟨zeros, split, all⟩ := trimmed_digits n
    generalize trimmed : ((digits 9 n).reverse.dropWhile (· = '0')).reverse = front at split
    have figures : ∀ c ∈ front, isDigit c = true := fun c member =>
      digits_isDigit 9 n c (split ▸ List.mem_append_left _ member)
    have size : front.length + zeros.length = 9 := by rw [← List.length_append, ← split, digits_length]
    have whole : value front * 10 ^ zeros.length = n := by
      rw [← value_zeros front all, ← split, value_digits, Nat.mod_eq_of_lt bound]
    cases front with
    | nil =>
      rw [show value [] = 0 from rfl, Nat.zero_mul] at whole
      exact absurd whole.symm some
    | cons d front =>
      have first : isDigit d = true := figures d List.mem_cons_self
      obtain ⟨taken, left⟩ := @takeWhile_digits _ (formatZone offset) figures (by
        rw [zone]
        intro e here
        cases here
        exact other)
      have left' : (front ++ formatZone offset).dropWhile isDigit = formatZone offset := by
        rw [List.cons_append, List.dropWhile_cons_of_pos first] at left
        exact left
      have short : (d :: front).take 9 = d :: front := List.take_of_length_le (by omega)
      have rest : 9 - (d :: front).length = zeros.length := by omega
      rw [List.cons_append] at taken
      simp only [List.cons_append, getfraction, first, true_or, true_and, if_true, taken, short, rest, whole, left']

theorem getoffset_digits {sign : Char} {h m : Nat} (signed : sign = '-' ∨ sign = '+') (hours : h < 24) (minutes : m < 60) :
    getoffset (sign :: digits 2 h ++ ':' :: digits 2 m) =
      some (if sign = '-' then -((60 * h + m : Nat) : Int) else ((60 * h + m : Nat) : Int)) := by
  have shape : ∀ n, digits 2 n = [digitChar (n / 10 % 10), digitChar (n % 10)] := fun n => rfl
  have first : getnum true (digits 2 h) = some (h, []) := List.append_nil (digits 2 h) ▸ getnum_digits (by omega) []
  have second : getnum true (digits 2 m) = some (m, []) := List.append_nil (digits 2 m) ▸ getnum_digits (by omega) []
  have fits : ¬ (24 < h ∨ 60 < m) := by omega
  have plain : ¬ (sign ≠ '+' ∧ sign ≠ '-' ∨ ':' ≠ ':') := by
    rcases signed with rfl | rfl <;> decide
  rw [shape] at first second
  rw [shape, shape]
  simp only [List.cons_append, List.nil_append, getoffset, if_neg plain, first, second]
  exact if_neg fits

theorem getoffset_format {offset : Int} (short : offset.natAbs / 60 < 24) : getoffset (formatZone offset) = some offset := by
  have minutes : offset.natAbs % 60 < 60 := Nat.mod_lt _ (by decide)
  have whole : 60 * (offset.natAbs / 60) + offset.natAbs % 60 = offset.natAbs := by omega
  rw [formatZone]
  split
  · rename_i none
    rw [none]
    rfl
  · by_cases negative : offset < 0
    · have back : -(offset.natAbs : Int) = offset := by omega
      rw [if_pos negative, getoffset_digits (.inl rfl) short minutes, if_pos rfl, whole, back]
    · have back : (offset.natAbs : Int) = offset := by omega
      rw [if_neg negative, getoffset_digits (.inr rfl) short minutes, if_neg (by decide), whole, back]

theorem literal_cons (c : Char) (rest : List Char) : literal c (c :: rest) = some rest := if_pos rfl

/-- A timestamp that can be written is read back as it was. -/
theorem Timestamp.unmarshal_marshal {t : Timestamp} {text : List Char} (written : t.marshal = some text) :
    Timestamp.unmarshal text = some t := by
  obtain ⟨year, month, day, hour, minute, second, nanosecond, offset, year_valid, date_valid, time_valid⟩ := t
  rw [marshal] at written
  split at written
  · rename_i short
    have text_eq := (Option.some.inj written).symm
    have days : day < 100 := by
      have most : daysIn month year ≤ 31 := by
        rw [daysIn]
        split
        · split <;> omega
        · split <;> omega
      omega
    have months : month < 100 := by omega
    have hours : hour < 100 := by omega
    have minutes : minute < 100 := by omega
    have seconds : second < 100 := by omega
    rw [text_eq, unmarshal]
    simp only [List.append_assoc, List.cons_append, getyear_digits year_valid, Option.bind_eq_bind, Option.bind_some,
      literal_cons, getnum_digits months, getnum_digits days, getnum_digits hours, getnum_digits minutes,
      getnum_digits seconds, getfraction_format time_valid.2.2.2, getoffset_format short]
    rw [dif_pos ⟨year_valid, date_valid, time_valid⟩]
  · cases written

end Rfc3339

end MonkeyOcr
