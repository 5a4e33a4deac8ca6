import MonkeyOcr.Codec.Json
import Mathlib.Data.List.TakeWhile

namespace Codec

namespace Json

/-! ### A reader of JSON texts -/

def hexValue? (c : Char) : Option Nat :=
  if '0' ≤ c ∧ c ≤ '9' then some (c.toNat - 48)
  else if 'a' ≤ c ∧ c ≤ 'f' then some (c.toNat - 87)
  else if 'A' ≤ c ∧ c ≤ 'F' then some (c.toNat - 55)
  else none

def hex4? (a b c d : Char) : Option Nat := do
  return (((← hexValue? a) * 16 + (← hexValue? b)) * 16 + (← hexValue? c)) * 16 + (← hexValue? d)

def short? (c : Char) : Option Char :=
  if c = '"' then some '"'
  else if c = '\\' then some '\\'
  else if c = '/' then some '/'
  else if c = 'b' then some (Char.ofNat 8)
  else if c = 'f' then some (Char.ofNat 12)
  else if c = 'n' then some '\n'
  else if c = 'r' then some '\r'
  else if c = 't' then some '\t'
  else none

/-- The low half of a surrogate pair, and what is left. -/
def lowHalf? : List Char → Option (Nat × List Char)
  | x :: y :: a :: b :: c :: d :: rest =>
    if x = '\\' ∧ y = 'u' then
      (hex4? a b c d).bind fun n => if 0xDC00 ≤ n ∧ n < 0xE000 then some (n, rest) else none
    else none
  | _ => none

/-- The character of a code unit. `lone` is what half a surrogate pair stands for. -/
def codeUnit (lone : Option Char) (n : Nat) (rest : List Char) : Option (Char × List Char) :=
  if 0xD800 ≤ n ∧ n < 0xDC00 then
    match lowHalf? rest with
    | some (low, rest) => some (Char.ofNat (0x10000 + (n - 0xD800) * 0x400 + (low - 0xDC00)), rest)
    | none => lone.map (·, rest)
  else if 0xDC00 ≤ n ∧ n < 0xE000 then lone.map (·, rest)
  else some (Char.ofNat n, rest)

/-- The character after `\u`. -/
def unicode (lone : Option Char) : List Char → Option (Char × List Char)
  | a :: b :: c :: d :: rest => (hex4? a b c d).bind (codeUnit lone · rest)
  | _ => none

/-- The character after a backslash. -/
def unescape (lone : Option Char) : List Char → Option (Char × List Char)
  | [] => none
  | x :: rest => if x = 'u' then unicode lone rest else (short? x).map (·, rest)

/-- One character of a string. -/
def char? (lone : Option Char) : List Char → Option (Char × List Char)
  | [] => none
  | c :: rest =>
    if c = '"' then none
    else if c = '\\' then unescape lone rest
    else if c.toNat < 32 then none
    else some (c, rest)

/-- The characters of a string up to its closing quote. -/
def chars (lone : Option Char) : Nat → List Char → Option (List Char × List Char)
  | 0, _ => none
  | fuel + 1, text =>
    if text.head? = some '"' then some ([], text.drop 1)
    else do
      let (c, rest) ← char? lone text
      let (word, rest) ← chars lone fuel rest
      return (c :: word, rest)

def string (lone : Option Char) (text : List Char) : Option (String × List Char) := do
  let (word, rest) ← chars lone (text.length + 1) text
  return (String.ofList word, rest)

def numeric (c : Char) : Bool := c.isDigit || c == '-' || c == '+' || c == '.' || c == 'e' || c == 'E'

/-- A whole number without leading zeros. -/
def wholePart (token : List Char) : Option (List Char × List Char) :=
  let digits := token.takeWhile Char.isDigit
  if digits = [] ∨ digits.head? = some '0' ∧ digits.length ≠ 1 then none
  else some (digits, token.dropWhile Char.isDigit)

/-- One or more digits, if the mark is there. -/
def afterMark (mark : Char → Bool) (signed : Bool) (token : List Char) : Option (List Char) :=
  match token with
  | [] => some []
  | c :: rest =>
    if mark c then
      let rest := if signed ∧ (rest.head? = some '+' ∨ rest.head? = some '-') then rest.drop 1 else rest
      if rest.takeWhile Char.isDigit = [] then none else some (rest.dropWhile Char.isDigit)
    else some token

/-- A number token: an integer, or a float by its literal. -/
def numberToken (token : List Char) : Option Json := do
  let negative := token.head? = some '-'
  let (digits, rest) ← wholePart (if negative then token.drop 1 else token)
  let tail ← afterMark (· == '.') false rest
  let tail ← afterMark (fun c => c == 'e' || c == 'E') true tail
  if tail ≠ [] then none
  else if rest = [] then
    let n : Int := Nat.ofDigitChars 10 digits 0
    some (.int (if negative then -n else n))
  else some (.float (String.ofList token))

def number (text : List Char) : Option (Json × List Char) :=
  (numberToken (text.takeWhile numeric)).map (·, text.dropWhile numeric)

def skip (text : List Char) : List Char :=
  text.dropWhile fun c => c == ' ' || c == '\t' || c == '\n' || c == '\r'

def keyword (word : List Char) (value : Json) (text : List Char) : Option (Json × List Char) :=
  if text.take word.length = word then some (value, text.drop word.length) else none

mutual
/-- The value at the beginning of a text, and what is left. -/
def readValue (lone : Option Char) : Nat → List Char → Option (Json × List Char)
  | 0, _ => none
  | fuel + 1, text =>
    match skip text with
    | [] => none
    | c :: rest =>
      if c = '"' then (string lone rest).map fun (s, rest) => (.str s, rest)
      else if c = '[' then
        if (skip rest).head? = some ']' then some (.arr [], (skip rest).drop 1)
        else (readItems lone fuel rest).map fun (items, rest) => (.arr items, rest)
      else if c = '\x7b' then
        if (skip rest).head? = some '\x7d' then some (.obj [], (skip rest).drop 1)
        else (readMembers lone fuel rest).map fun (members, rest) => (.obj members, rest)
      else if c = 't' then keyword ['t', 'r', 'u', 'e'] (.bool true) (c :: rest)
      else if c = 'f' then keyword ['f', 'a', 'l', 's', 'e'] (.bool false) (c :: rest)
      else if c = 'n' then keyword ['n', 'u', 'l', 'l'] .null (c :: rest)
      else number (c :: rest)
/-- The items of an array up to its closing bracket. -/
def readItems (lone : Option Char) : Nat → List Char → Option (List Json × List Char)
  | 0, _ => none
  | fuel + 1, text => do
    let (item, rest) ← readValue lone fuel text
    match skip rest with
    | ',' :: rest =>
      let (items, rest) ← readItems lone fuel rest
      return (item :: items, rest)
    | ']' :: rest => return ([item], rest)
    | _ => none
/-- The members of an object up to its closing brace. -/
def readMembers (lone : Option Char) : Nat → List Char → Option (List (String × Json) × List Char)
  | 0, _ => none
  | fuel + 1, text =>
    match skip text with
    | '"' :: rest => do
      let (key, rest) ← string lone rest
      match skip rest with
      | ':' :: rest =>
        let (value, rest) ← readValue lone fuel rest
        match skip rest with
        | ',' :: rest =>
          let (members, rest) ← readMembers lone fuel rest
          return ((key, value) :: members, rest)
        | '\x7d' :: rest => return ([(key, value)], rest)
        | _ => none
      | _ => none
    | _ => none
end

/-- The value of a whole text. -/
def read (lone : Option Char) (text : List Char) : Option Json :=
  match readValue lone (text.length + 1) text with
  | some (value, rest) => if skip rest = [] then some value else none
  | none => none

/-! ### Texts that are read back -/

/-- This text stands for one character of a string. -/
def Spells (lone : Option Char) (c : Char) (text : List Char) : Prop :=
  ∀ rest, char? lone (text ++ rest) = some (c, rest)

/-- A number ends here. -/
def Stops (rest : List Char) : Prop := ∀ c ∈ rest.head?, numeric c = false

/-- A float as a JSON number is written. -/
def Literal (literal : String) : Prop := numberToken literal.toList = some (.float literal) ∧
  literal.toList.all numeric = true

mutual
/-- All floats of the value are JSON numbers. -/
def Literals : Json → Prop
  | .float literal => Literal literal
  | .arr items => LiteralsItems items
  | .obj members => LiteralsMembers members
  | _ => True
def LiteralsItems : List Json → Prop
  | [] => True
  | item :: rest => item.Literals ∧ LiteralsItems rest
def LiteralsMembers : List (String × Json) → Prop
  | [] => True
  | (_, value) :: rest => value.Literals ∧ LiteralsMembers rest
end

mutual
/-- A compact text of the value, with the characters of strings written by `escape`. -/
def written (escape : Char → List Char) : Json → List Char
  | .null => ['n', 'u', 'l', 'l']
  | .bool true => ['t', 'r', 'u', 'e']
  | .bool false => ['f', 'a', 'l', 's', 'e']
  | .int value => (toString value).toList
  | .float literal => literal.toList
  | .str value => '"' :: (value.toList.flatMap escape ++ ['"'])
  | .arr items => '[' :: (writtenItems escape items ++ [']'])
  | .obj members => '\x7b' :: (writtenMembers escape members ++ ['\x7d'])
def writtenItems (escape : Char → List Char) : List Json → List Char
  | [] => []
  | [item] => written escape item
  | item :: rest => written escape item ++ ',' :: writtenItems escape rest
def writtenMembers (escape : Char → List Char) : List (String × Json) → List Char
  | [] => []
  | [(key, value)] => '"' :: (key.toList.flatMap escape ++ ['"']) ++ ':' :: written escape value
  | (key, value) :: rest =>
    '"' :: (key.toList.flatMap escape ++ ['"']) ++ ':' :: (written escape value ++ ',' :: writtenMembers escape rest)
end

section

variable {lone : Option Char} {escape : Char → List Char}

theorem Spells.ne_nil {c : Char} {text : List Char} (spells : Spells lone c text) : text ≠ [] := by
  intro none
  have read := spells ['"']
  rw [none] at read
  simp [char?] at read

theorem Spells.head {c : Char} {text : List Char} (spells : Spells lone c text) (rest : List Char) :
    (text ++ rest).head? ≠ some '"' := by
  intro quote
  have read := spells rest
  cases whole : text ++ rest with
  | nil => rw [whole] at quote; cases quote
  | cons d more =>
    rw [whole] at quote read
    cases quote
    simp [char?] at read

theorem chars_flatMap (spells : ∀ c, Spells lone c (escape c)) {word rest : List Char} {fuel : Nat}
    (enough : word.length < fuel) :
    chars lone fuel (word.flatMap escape ++ '"' :: rest) = some (word, rest) := by
  induction word generalizing fuel with
  | nil =>
    obtain ⟨fuel, rfl⟩ := Nat.exists_eq_succ_of_ne_zero (Nat.ne_of_gt enough)
    simp [chars]
  | cons c word ih =>
    obtain ⟨fuel, rfl⟩ := Nat.exists_eq_succ_of_ne_zero (Nat.ne_of_gt (Nat.zero_lt_of_lt enough))
    have less : word.length < fuel := Nat.lt_of_succ_lt_succ enough
    rw [List.flatMap_cons, List.append_assoc, chars, if_neg ((spells c).head _), spells c]
    simp [ih less]

theorem length_le_flatMap (spells : ∀ c, Spells lone c (escape c)) (word : List Char) :
    word.length ≤ (word.flatMap escape).length := by
  induction word with
  | nil => exact le_rfl
  | cons c word ih =>
    have some := List.length_pos_iff.mpr (spells c).ne_nil
    simp only [List.flatMap_cons, List.length_append, List.length_cons]
    omega

theorem string_flatMap (spells : ∀ c, Spells lone c (escape c)) (value : String) (rest : List Char) :
    string lone (value.toList.flatMap escape ++ '"' :: rest) = some (value, rest) := by
  have less := length_le_flatMap spells value.toList
  rw [string, chars_flatMap spells (by simp only [List.length_append]; omega)]
  simp

theorem takeWhile_stops {token rest : List Char} (all : ∀ c ∈ token, numeric c = true) (stops : Stops rest) :
    (token ++ rest).takeWhile numeric = token ∧ (token ++ rest).dropWhile numeric = rest := by
  induction token with
  | nil =>
    cases rest with
    | nil => exact ⟨rfl, rfl⟩
    | cons c rest =>
      have last := stops c rfl
      simp [last]
  | cons c token ih =>
    obtain ⟨take, drop⟩ := ih fun d member => all d (List.mem_cons_of_mem _ member)
    have first := all c List.mem_cons_self
    simp [first, take, drop]

theorem number_append {token rest : List Char} {value : Json} (all : ∀ c ∈ token, numeric c = true)
    (reads : numberToken token = some value) (stops : Stops rest) : number (token ++ rest) = some (value, rest) := by
  obtain ⟨take, drop⟩ := takeWhile_stops all stops
  rw [number, take, drop, reads]
  rfl

theorem digits_whole (n : Nat) : (Nat.toDigits 10 n).takeWhile Char.isDigit = Nat.toDigits 10 n ∧
    (Nat.toDigits 10 n).dropWhile Char.isDigit = [] := by
  have all : ∀ c ∈ Nat.toDigits 10 n, c.isDigit = true := fun c member =>
    Nat.isDigit_of_mem_toDigits (by decide) (by decide) member
  exact ⟨List.takeWhile_eq_self_iff.mpr all, List.dropWhile_eq_nil_iff.mpr all⟩

/-- A number has no leading zero. -/
theorem digits_head (n : Nat) : ¬ ((Nat.toDigits 10 n).head? = some '0' ∧ (Nat.toDigits 10 n).length ≠ 1) := by
  induction n using Nat.strongRecOn with
  | _ n ih =>
    intro ⟨zero, long⟩
    by_cases small : n < 10
    · rw [Nat.toDigits_of_lt_base small] at long
      exact long rfl
    · have split := Nat.toDigits_of_base_le (b := 10) (by decide) (Nat.le_of_not_lt small)
      rw [split] at zero
      have first : (Nat.toDigits 10 (n / 10)).head? = some '0' := by
        have some := Nat.toDigits_ne_nil (n := n / 10) (b := 10)
        cases here : Nat.toDigits 10 (n / 10) with
        | nil => exact absurd here some
        | cons d ds => rw [here] at zero; exact zero
      have single := not_and_not_right.mp (ih (n / 10) (by omega)) first
      have below : n / 10 = 0 := by
        have short := List.length_eq_one_iff.mp single
        obtain ⟨d, only⟩ := short
        rw [only] at first
        cases first
        have back := Nat.ofDigitChars_ten_toDigits (n := n / 10)
        rw [only] at back
        exact back.symm
      omega

theorem wholePart_digits (n : Nat) : wholePart (Nat.toDigits 10 n) = some (Nat.toDigits 10 n, []) := by
  obtain ⟨take, drop⟩ := digits_whole n
  unfold wholePart
  rw [take, drop, if_neg]
  rintro (none | zero)
  · exact Nat.toDigits_ne_nil none
  · exact digits_head n zero

theorem digits_sign (n : Nat) : (Nat.toDigits 10 n).head? ≠ some '-' := by
  intro sign
  have member := List.mem_of_head? sign
  have digit := Nat.isDigit_of_mem_toDigits (by decide) (by decide) member
  revert digit
  decide

theorem numberToken_int (n : Int) : numberToken (toString n).toList = some (.int n) := by
  cases n with
  | ofNat n =>
    have text : (toString (Int.ofNat n)).toList = Nat.toDigits 10 n := by
      simp [Int.repr]
    rw [text, numberToken, if_neg (by simpa using digits_sign n), wholePart_digits]
    simp [afterMark, digits_sign, Nat.ofDigitChars_ten_toDigits]
  | negSucc n =>
    have text : (toString (Int.negSucc n)).toList = '-' :: Nat.toDigits 10 (n + 1) := by
      simp [Int.repr]
    rw [text, numberToken]
    simp [afterMark, wholePart_digits, Nat.ofDigitChars_ten_toDigits]
    omega

theorem numeric_int (n : Int) : ∀ c ∈ (toString n).toList, numeric c = true := by
  intro c member
  have digit : ∀ m : Nat, c ∈ Nat.toDigits 10 m → numeric c = true := by
    intro m inside
    have digit := Nat.isDigit_of_mem_toDigits (by decide) (by decide) inside
    simp [numeric, digit]
  cases n with
  | ofNat n =>
    have text : (toString (Int.ofNat n)).toList = Nat.toDigits 10 n := by simp [Int.repr]
    exact digit n (text ▸ member)
  | negSucc n =>
    have text : (toString (Int.negSucc n)).toList = '-' :: Nat.toDigits 10 (n + 1) := by simp [Int.repr]
    rw [text] at member
    rcases List.mem_cons.mp member with rfl | inside
    · rfl
    · exact digit _ inside

/-- A character that begins a value. -/
def Begins (c : Char) : Prop :=
  c ≠ ' ' ∧ c ≠ '\t' ∧ c ≠ '\n' ∧ c ≠ '\r' ∧ c ≠ ']' ∧ c ≠ '\x7d' ∧ c ≠ ',' ∧ c ≠ ':'

instance (c : Char) : Decidable (Begins c) := inferInstanceAs (Decidable (_ ∧ _))

theorem Begins.skip {c : Char} (begins : Begins c) (rest : List Char) : skip (c :: rest) = c :: rest := by
  obtain ⟨space, tab, line, return', -⟩ := begins
  simp [Json.skip, space, tab, line, return']

theorem numeric_begins {c : Char} (number : numeric c = true) : Begins c := by
  refine ⟨?_, ?_, ?_, ?_, ?_, ?_, ?_, ?_⟩ <;> (rintro rfl; revert number; decide)

theorem number_text {token : List Char} {value : Json} (reads : numberToken token = some value)
    (all : ∀ c ∈ token, numeric c = true) : ∃ c more, token = c :: more ∧ numeric c = true := by
  cases token with
  | nil => cases reads
  | cons c more => exact ⟨c, more, rfl, all c List.mem_cons_self⟩

/-- Every value begins with a character of its own. -/
theorem written_head (escape : Char → List Char) {value : Json} (literals : value.Literals) :
    ∃ c more, written escape value = c :: more ∧ Begins c := by
  cases value with
  | null => exact ⟨'n', ['u', 'l', 'l'], by rw [written], by decide⟩
  | bool value =>
    cases value with
    | true => exact ⟨'t', ['r', 'u', 'e'], by rw [written], by decide⟩
    | false => exact ⟨'f', ['a', 'l', 's', 'e'], by rw [written], by decide⟩
  | int value =>
    obtain ⟨c, more, text, numeric⟩ := number_text (numberToken_int value) (numeric_int value)
    exact ⟨c, more, by rw [written, text], numeric_begins numeric⟩
  | float literal =>
    obtain ⟨c, more, text, numeric⟩ := number_text literals.1 (List.all_eq_true.mp literals.2)
    exact ⟨c, more, by rw [written, text], numeric_begins numeric⟩
  | str value => exact ⟨'"', value.toList.flatMap escape ++ ['"'], by rw [written], by decide⟩
  | arr items => exact ⟨'[', writtenItems escape items ++ [']'], by rw [written], by decide⟩
  | obj members => exact ⟨'\x7b', writtenMembers escape members ++ ['\x7d'], by rw [written], by decide⟩

theorem readValue_number {token rest : List Char} {value : Json} {fuel : Nat}
    (all : ∀ c ∈ token, numeric c = true) (reads : numberToken token = some value) (stops : Stops rest)
    (enough : token.length ≤ fuel) : readValue lone fuel (token ++ rest) = some (value, rest) := by
  obtain ⟨c, more, rfl, first⟩ := number_text reads all
  obtain ⟨fuel, rfl⟩ := Nat.exists_eq_succ_of_ne_zero (Nat.ne_of_gt (Nat.zero_lt_of_lt enough))
  have others : c ≠ '"' ∧ c ≠ '[' ∧ c ≠ '\x7b' ∧ c ≠ 't' ∧ c ≠ 'f' ∧ c ≠ 'n' := by
    refine ⟨?_, ?_, ?_, ?_, ?_, ?_⟩ <;> (rintro rfl; revert first; decide)
  obtain ⟨quote, bracket, brace, true', false', null'⟩ := others
  rw [readValue, List.cons_append, (numeric_begins first).skip]
  simp only [if_neg quote, if_neg bracket, if_neg brace, if_neg true', if_neg false', if_neg null']
  exact number_append all reads stops

theorem readItems_cons {fuel : Nat} {item : Json} {items : List Json} {text rest more : List Char}
    (first : readValue lone fuel text = some (item, ',' :: rest))
    (others : readItems lone fuel rest = some (items, more)) :
    readItems lone (fuel + 1) text = some (item :: items, more) := by
  rw [readItems]
  simp [first, others, skip]

theorem readItems_last {fuel : Nat} {item : Json} {text rest : List Char}
    (first : readValue lone fuel text = some (item, ']' :: rest)) :
    readItems lone (fuel + 1) text = some ([item], rest) := by
  rw [readItems]
  simp [first, skip]

theorem readMembers_cons {fuel : Nat} {key : String} {value : Json} {members : List (String × Json)}
    {text rest more : List Char} {written : List Char}
    (named : string lone written = some (key, ':' :: text))
    (first : readValue lone fuel text = some (value, ',' :: rest))
    (others : readMembers lone fuel rest = some (members, more)) :
    readMembers lone (fuel + 1) ('"' :: written) = some ((key, value) :: members, more) := by
  rw [readMembers]
  simp [named, first, others, skip]

theorem readMembers_last {fuel : Nat} {key : String} {value : Json} {text rest : List Char} {written : List Char}
    (named : string lone written = some (key, ':' :: text))
    (first : readValue lone fuel text = some (value, '\x7d' :: rest)) :
    readMembers lone (fuel + 1) ('"' :: written) = some ([(key, value)], rest) := by
  rw [readMembers]
  simp [named, first, skip]

theorem readValue_items {fuel : Nat} {c : Char} {items : List Json} {text rest : List Char} (begins : Begins c)
    (inner : readItems lone fuel (c :: text) = some (items, rest)) :
    readValue lone (fuel + 1) ('[' :: c :: text) = some (.arr items, rest) := by
  have bracket := begins.2.2.2.2.1
  have first : skip ('[' :: c :: text) = '[' :: c :: text := rfl
  rw [readValue, first]
  simp [begins.skip, bracket, inner]

theorem readValue_members {fuel : Nat} {members : List (String × Json)} {text rest : List Char}
    (inner : readMembers lone fuel ('"' :: text) = some (members, rest)) :
    readValue lone (fuel + 1) ('\x7b' :: '"' :: text) = some (.obj members, rest) := by
  have first : skip ('\x7b' :: '"' :: text) = '\x7b' :: '"' :: text := rfl
  have second : skip ('"' :: text) = '"' :: text := rfl
  rw [readValue, first]
  simp [second, inner]

theorem stops_of {c : Char} {rest : List Char} (stop : numeric c = false) : Stops (c :: rest) := by
  intro d first
  cases first
  exact stop

theorem writtenItems_cons (item next : Json) (items : List Json) : writtenItems escape (item :: next :: items) =
    written escape item ++ ',' :: writtenItems escape (next :: items) := by
  rw [writtenItems]
  exact List.cons_ne_nil _ _

theorem writtenMembers_cons (key : String) (value : Json) (next : String × Json) (members : List (String × Json)) :
    writtenMembers escape ((key, value) :: next :: members) = '"' :: (key.toList.flatMap escape ++ ['"']) ++
      ':' :: (written escape value ++ ',' :: writtenMembers escape (next :: members)) := by
  rw [writtenMembers]
  exact List.cons_ne_nil _ _

theorem writtenItems_head (escape : Char → List Char) {item : Json} (items : List Json) (literals : item.Literals) :
    ∃ c more, writtenItems escape (item :: items) = c :: more ∧ Begins c := by
  obtain ⟨c, more, text, begins⟩ := written_head escape literals
  cases items with
  | nil => exact ⟨c, more, by rw [writtenItems, text], begins⟩
  | cons next items =>
    exact ⟨c, more ++ ',' :: writtenItems escape (next :: items), by rw [writtenItems_cons, text, List.cons_append], begins⟩

theorem writtenMembers_head (escape : Char → List Char) (member : String × Json) (members : List (String × Json)) :
    ∃ more, writtenMembers escape (member :: members) = '"' :: more := by
  cases members <;> exact ⟨_, rfl⟩

mutual
/-- A written value is read back. -/
theorem readValue_written (spells : ∀ c, Spells lone c (escape c)) : ∀ (value : Json) (fuel : Nat)
    (rest : List Char), value.Literals → (written escape value).length ≤ fuel → Stops rest →
    readValue lone fuel (written escape value ++ rest) = some (value, rest)
  | .null, fuel, rest, _, enough, _ => by
    rw [written] at *
    obtain ⟨fuel, rfl⟩ := Nat.exists_eq_succ_of_ne_zero (Nat.ne_of_gt (Nat.zero_lt_of_lt enough))
    simp [readValue, skip, keyword]
  | .bool true, fuel, rest, _, enough, _ => by
    rw [written] at *
    obtain ⟨fuel, rfl⟩ := Nat.exists_eq_succ_of_ne_zero (Nat.ne_of_gt (Nat.zero_lt_of_lt enough))
    simp [readValue, skip, keyword]
  | .bool false, fuel, rest, _, enough, _ => by
    rw [written] at *
    obtain ⟨fuel, rfl⟩ := Nat.exists_eq_succ_of_ne_zero (Nat.ne_of_gt (Nat.zero_lt_of_lt enough))
    simp [readValue, skip, keyword]
  | .int value, fuel, rest, _, enough, stops => by
    rw [written] at *
    exact readValue_number (numeric_int value) (numberToken_int value) stops enough
  | .float literal, fuel, rest, literals, enough, stops => by
    rw [written] at *
    exact readValue_number (List.all_eq_true.mp literals.2) literals.1 stops enough
  | .str value, fuel, rest, _, enough, _ => by
    rw [written] at *
    obtain ⟨fuel, rfl⟩ := Nat.exists_eq_succ_of_ne_zero (Nat.ne_of_gt (Nat.zero_lt_of_lt enough))
    have text := string_flatMap spells value rest
    simp [readValue, skip, text]
  | .arr [], fuel, rest, _, enough, _ => by
    rw [written, writtenItems] at *
    obtain ⟨fuel, rfl⟩ := Nat.exists_eq_succ_of_ne_zero (Nat.ne_of_gt (Nat.zero_lt_of_lt enough))
    simp [readValue, skip]
  | .arr (item :: items), fuel, rest, literals, enough, _ => by
    rw [written] at *
    obtain ⟨fuel, rfl⟩ := Nat.exists_eq_succ_of_ne_zero (Nat.ne_of_gt (Nat.zero_lt_of_lt enough))
    have back := readItems_written spells item items fuel rest literals (by simp at enough; omega)
    obtain ⟨c, more, text, begins⟩ := writtenItems_head escape items literals.1
    rw [text] at back ⊢
    simp only [List.cons_append, List.append_assoc, List.nil_append] at back ⊢
    exact readValue_items begins back
  | .obj [], fuel, rest, _, enough, _ => by
    rw [written, writtenMembers] at *
    obtain ⟨fuel, rfl⟩ := Nat.exists_eq_succ_of_ne_zero (Nat.ne_of_gt (Nat.zero_lt_of_lt enough))
    simp [readValue, skip]
  | .obj (member :: members), fuel, rest, literals, enough, _ => by
    rw [written] at *
    obtain ⟨fuel, rfl⟩ := Nat.exists_eq_succ_of_ne_zero (Nat.ne_of_gt (Nat.zero_lt_of_lt enough))
    have back := readMembers_written spells member members fuel rest literals (by simp at enough; omega)
    obtain ⟨more, text⟩ := writtenMembers_head escape member members
    rw [text] at back ⊢
    simp only [List.cons_append, List.append_assoc, List.nil_append] at back ⊢
    exact readValue_members back
theorem readItems_written (spells : ∀ c, Spells lone c (escape c)) : ∀ (item : Json) (items : List Json) (fuel : Nat)
    (rest : List Char), LiteralsItems (item :: items) → (writtenItems escape (item :: items)).length < fuel →
    readItems lone fuel (writtenItems escape (item :: items) ++ ']' :: rest) = some (item :: items, rest)
  | item, [], fuel, rest, literals, enough => by
    rw [writtenItems] at *
    obtain ⟨fuel, rfl⟩ := Nat.exists_eq_succ_of_ne_zero (Nat.ne_of_gt (Nat.zero_lt_of_lt enough))
    exact readItems_last (readValue_written spells item fuel _ literals.1 (Nat.le_of_lt_succ enough) (stops_of rfl))
  | item, next :: items, fuel, rest, literals, enough => by
    rw [writtenItems_cons] at *
    obtain ⟨fuel, rfl⟩ := Nat.exists_eq_succ_of_ne_zero (Nat.ne_of_gt (Nat.zero_lt_of_lt enough))
    simp only [List.length_append, List.length_cons] at enough
    have others := readItems_written spells next items fuel rest literals.2 (by omega)
    rw [List.append_assoc, List.cons_append]
    exact readItems_cons (readValue_written spells item fuel _ literals.1 (by omega) (stops_of rfl)) others
theorem readMembers_written (spells : ∀ c, Spells lone c (escape c)) : ∀ (member : String × Json)
    (members : List (String × Json)) (fuel : Nat) (rest : List Char), LiteralsMembers (member :: members) →
    (writtenMembers escape (member :: members)).length < fuel →
    readMembers lone fuel (writtenMembers escape (member :: members) ++ '\x7d' :: rest) =
      some (member :: members, rest)
  | (key, value), [], fuel, rest, literals, enough => by
    rw [writtenMembers] at *
    obtain ⟨fuel, rfl⟩ := Nat.exists_eq_succ_of_ne_zero (Nat.ne_of_gt (Nat.zero_lt_of_lt enough))
    simp only [List.length_append, List.length_cons] at enough
    have named := string_flatMap spells key (':' :: (written escape value ++ '\x7d' :: rest))
    simp only [List.cons_append, List.append_assoc, List.nil_append]
    exact readMembers_last named (readValue_written spells value fuel _ literals.1 (by omega) (stops_of rfl))
  | (key, value), next :: members, fuel, rest, literals, enough => by
    rw [writtenMembers_cons] at *
    obtain ⟨fuel, rfl⟩ := Nat.exists_eq_succ_of_ne_zero (Nat.ne_of_gt (Nat.zero_lt_of_lt enough))
    simp only [List.length_append, List.length_cons] at enough
    have others := readMembers_written spells next members fuel rest literals.2 (by omega)
    have named := string_flatMap spells key
      (':' :: (written escape value ++ ',' :: (writtenMembers escape (next :: members) ++ '\x7d' :: rest)))
    simp only [List.cons_append, List.append_assoc, List.nil_append]
    exact readMembers_cons named
      (readValue_written spells value fuel _ literals.1 (by omega) (stops_of rfl)) others
end

end

section

variable {lone : Option Char} {escape : Char → List Char}

theorem read_written (spells : ∀ c, Spells lone c (escape c)) {value : Json} (literals : value.Literals) :
    read lone (written escape value) = some value := by
  have back := readValue_written spells value ((written escape value).length + 1) [] literals (Nat.le_succ _)
    (fun _ first => by cases first)
  rw [List.append_nil] at back
  simp [read, back, skip]

/-! ### Texts on one line -/

theorem newline_numeric {text : List Char} (all : ∀ c ∈ text, numeric c = true) : '\n' ∉ text := by
  intro member
  exact absurd (all '\n' member) (by decide)

theorem newline_quoted (plain : ∀ c, '\n' ∉ escape c) (text : String) :
    '\n' ∉ '"' :: (text.toList.flatMap escape ++ ['"']) := by
  intro member
  rcases List.mem_cons.mp member with first | member
  · exact absurd first (by decide)
  · rcases List.mem_append.mp member with inside | last
    · obtain ⟨c, -, there⟩ := List.mem_flatMap.mp inside
      exact plain c there
    · exact absurd (List.mem_singleton.mp last) (by decide)

/-- Text between two other characters. -/
theorem newline_between {first last : Char} {text : List Char} (open_ : '\n' ≠ first) (close : '\n' ≠ last)
    (plain : '\n' ∉ text) : '\n' ∉ first :: (text ++ [last]) := by
  intro member
  rcases List.mem_cons.mp member with here | member
  · exact open_ here
  · rcases List.mem_append.mp member with inside | end_
    · exact plain inside
    · exact close (List.mem_singleton.mp end_)

theorem newline_append {first second : List Char} (before : '\n' ∉ first) (after : '\n' ∉ second) :
    '\n' ∉ first ++ second := by
  intro member
  rcases List.mem_append.mp member with here | there
  · exact before here
  · exact after there

theorem newline_cons {c : Char} {text : List Char} (other : '\n' ≠ c) (plain : '\n' ∉ text) : '\n' ∉ c :: text := by
  intro member
  rcases List.mem_cons.mp member with here | there
  · exact other here
  · exact plain there

mutual
/-- Where line breaks in strings are escaped, the text of a value is one line. -/
theorem newline_written (plain : ∀ c, '\n' ∉ escape c) : ∀ value : Json, value.Literals → '\n' ∉ written escape value
  | .null, _ => by rw [written]; decide
  | .bool true, _ => by rw [written]; decide
  | .bool false, _ => by rw [written]; decide
  | .int value, _ => by rw [written]; exact newline_numeric (numeric_int value)
  | .float literal, literals => by rw [written]; exact newline_numeric (List.all_eq_true.mp literals.2)
  | .str value, _ => by rw [written]; exact newline_quoted plain value
  | .arr items, literals => by
    rw [written]
    exact newline_between (by decide) (by decide) (newline_writtenItems plain items literals)
  | .obj members, literals => by
    rw [written]
    exact newline_between (by decide) (by decide) (newline_writtenMembers plain members literals)
theorem newline_writtenItems (plain : ∀ c, '\n' ∉ escape c) : ∀ items : List Json, LiteralsItems items →
    '\n' ∉ writtenItems escape items
  | [], _ => List.not_mem_nil
  | [item], ⟨here, _⟩ => by rw [writtenItems]; exact newline_written plain item here
  | item :: next :: items, ⟨here, later⟩ => by
    rw [writtenItems_cons]
    exact newline_append (newline_written plain item here)
      (newline_cons (by decide) (newline_writtenItems plain (next :: items) later))
theorem newline_writtenMembers (plain : ∀ c, '\n' ∉ escape c) : ∀ members : List (String × Json), LiteralsMembers members →
    '\n' ∉ writtenMembers escape members
  | [], _ => List.not_mem_nil
  | [(key, value)], ⟨here, _⟩ => by
    rw [writtenMembers]
    exact newline_append (newline_quoted plain key) (newline_cons (by decide) (newline_written plain value here))
  | (key, value) :: next :: members, ⟨here, later⟩ => by
    rw [writtenMembers_cons]
    exact newline_append (newline_quoted plain key) (newline_cons (by decide) (newline_append
      (newline_written plain value here) (newline_cons (by decide) (newline_writtenMembers plain (next :: members) later))))
end

end

/-! ### The texts of `json.dumps` -/

mutual
theorem dumpsChars_written : ∀ value : Json, value.dumpsChars = written escape value
  | .null => by rw [dumpsChars, written]
  | .bool true => by rw [dumpsChars, written]
  | .bool false => by rw [dumpsChars, written]
  | .int value => by rw [dumpsChars, written]
  | .float literal => by rw [dumpsChars, written]
  | .str value => by rw [dumpsChars, written, quoted]
  | .arr items => by rw [dumpsChars, written, dumpsItems_written items]
  | .obj members => by rw [dumpsChars, written, dumpsMembers_written members]
theorem dumpsItems_written : ∀ items : List Json, dumpsItems items = writtenItems escape items
  | [] => by rw [dumpsItems, writtenItems]
  | [item] => by rw [dumpsItems, writtenItems, dumpsChars_written item]
  | item :: next :: items => by
    rw [writtenItems_cons, ← dumpsItems_written (next :: items), ← dumpsChars_written item, dumpsItems]
    exact List.cons_ne_nil _ _
theorem dumpsMembers_written : ∀ members : List (String × Json), dumpsMembers members = writtenMembers escape members
  | [] => by rw [dumpsMembers, writtenMembers]
  | [(key, value)] => by rw [dumpsMembers, writtenMembers, dumpsChars_written value, quoted]
  | (key, value) :: next :: members => by
    rw [writtenMembers_cons, ← dumpsMembers_written (next :: members), ← dumpsChars_written value, dumpsMembers, quoted]
    exact List.cons_ne_nil _ _
end

theorem hex_control : ∀ n, n < 32 → hex4? '0' '0' (hexDigit (n / 16)) (hexDigit (n % 16)) = some n := by
  decide

/-- What `json.dumps` writes for a character stands for it. -/
theorem spells_escape (lone : Option Char) (c : Char) : Spells lone c (escape c) := by
  intro rest
  by_cases quote : c = '"'
  · subst quote
    rfl
  by_cases slash : c = '\\'
  · subst slash
    rfl
  by_cases line : c = '\n'
  · subst line
    rfl
  by_cases return' : c = '\r'
  · subst return'
    rfl
  by_cases tab : c = '\t'
  · subst tab
    rfl
  have same : Char.ofNat c.toNat = c := Char.ofNat_toNat c
  simp only [escape, if_neg quote, if_neg slash, if_neg line, if_neg return', if_neg tab]
  split
  · rename_i feed
    rw [feed] at same
    subst same
    rfl
  · split
    · rename_i back
      rw [back] at same
      subst same
      rfl
    · split
      · rename_i control
        have unit : codeUnit lone c.toNat rest = some (c, rest) := by
          rw [codeUnit, if_neg (by omega), if_neg (by omega), same]
        have code := hex_control c.toNat control
        simp only [List.cons_append, List.nil_append]
        simp [char?, unescape, unicode, code, unit]
      · rename_i plain
        simp [char?, quote, slash, plain]

/-- `json.loads`. Half a surrogate pair is no character. -/
def loads (text : String) : Option Json := read none text.toList

theorem loads_dumps {value : Json} (literals : value.Literals) : loads value.dumps = some value := by
  rw [loads, dumps, String.toList_ofList, dumpsChars_written]
  exact read_written (spells_escape none) literals

end Json
end Codec
