import MonkeyOcr.Codec.Binary64
import MonkeyOcr.Codec.Integer

namespace Codec

/-- A JSON value as Python holds it: an `int` by its value, a `float` by the
literal it is written with, a `dict` by its items in insertion order. -/
inductive Json where
  | null
  | bool (value : Bool)
  | int (value : Int)
  | float (literal : String)
  | str (value : String)
  | arr (items : List Json)
  | obj (members : List (String × Json))

namespace Json

def nat (n : Nat) : Json := .int n

def ofOption (f : α → Json) : Option α → Json
  | some a => f a
  | none => .null

/-- `value.get(key)` of a `dict`; the last of duplicate keys wins. -/
def get? (members : List (String × Json)) (key : String) : Option Json :=
  (members.reverse.find? fun member => member.1 == key).map Prod.snd

/-- `{**members, key: value}`. -/
def set (members : List (String × Json)) (key : String) (value : Json) : List (String × Json) :=
  if members.any (·.1 == key) then members.map fun m => if m.1 == key then (key, value) else m
  else members ++ [(key, value)]

def digits? (digits : List Char) : Option Nat :=
  if digits.all Char.isDigit then some (digits.foldl (fun n c => n * 10 + (c.toNat - 48)) 0) else none

/-- The whole number that a literal like `12.0`, `-0.0` or `1.2e+16` stands for. -/
def wholeFloat? (literal : String) : Option Int :=
  let negative := literal.toList.head? = some '-'
  let text := if negative then literal.toList.drop 1 else literal.toList
  let mantissa := text.takeWhile (· ≠ 'e')
  let whole := mantissa.takeWhile (· ≠ '.')
  let fraction := (((mantissa.dropWhile (· ≠ '.')).drop 1).reverse.dropWhile (· = '0')).reverse
  let exponent := ((text.dropWhile (· ≠ 'e')).drop 1).dropWhile (· = '+')
  match digits? (whole ++ fraction), digits? exponent with
  | some n, some e =>
    if fraction.length ≤ e then
      let value := (Binary64.nearest (n * 10 ^ (e - fraction.length)) : Int)
      some (if negative then -value else value)
    else none
  | _, _ => none

def whole? : Json → Option Int
  | .bool value => some (if value then 1 else 0)
  | .int value => some value
  | .float literal => wholeFloat? literal
  | _ => none

/-- `==` of two numbers. `True` is one, and whole numbers compare by value. -/
def sameNumber (a b : Json) : Bool :=
  match whole? a, whole? b with
  | some m, some n => m == n
  | _, _ => false

mutual
/-- `==`, which ignores the order of the items of a `dict`. -/
def same : Json → Json → Bool
  | .null, .null => true
  | .str a, .str b => a == b
  | .arr a, .arr b => sameItems a b
  | .obj a, .obj b => a.length == b.length && sameMembers a b
  | .float a, .float b => a == b || sameNumber (.float a) (.float b)
  | a, b => sameNumber a b
def sameItems : List Json → List Json → Bool
  | [], [] => true
  | a :: as, b :: bs => same a b && sameItems as bs
  | _, _ => false
def sameMembers : List (String × Json) → List (String × Json) → Bool
  | [], _ => true
  | (key, a) :: rest, other =>
    (match get? other key with
    | some b => same a b
    | none => false) && sameMembers rest other
end

example : same (.obj [("dpi", .int 200), ("fast", .bool true)]) (.obj [("fast", .int 1), ("dpi", .float "200.0")]) =
    true := by decide +kernel

/-- `bool(value)`. -/
def truthy : Json → Bool
  | .null => false
  | .bool value => value
  | .int value => value ≠ 0
  | .float literal => literal.toList.any fun c => '1' ≤ c && c ≤ '9'
  | .str value => value ≠ ""
  | .arr items => !items.isEmpty
  | .obj members => !members.isEmpty

/-- `int(value)` of a float, which drops its fraction. It is written by `repr`, which has a
negative exponent only below `1e-4`, and another from `1e16` on. -/
def truncated? (literal : String) : Option Int :=
  match wholeFloat? literal with
  | some value => some value
  | none =>
    let negative := literal.toList.head? = some '-'
    let text := if negative then literal.toList.drop 1 else literal.toList
    match digits? (text.takeWhile fun c => c ≠ '.' ∧ c ≠ 'e') with
    | some n => some (if text.contains 'e' then 0 else if negative then -n else n)
    | none => none

/-- `int(value)`. -/
def toInt? : Json → Option Int
  | .int value => some value
  | .bool value => some (if value then 1 else 0)
  | .float literal => truncated? literal
  | .str value => int? value
  | _ => none

example : [Json.float "-2.75", .float "1e-05", .float "1e+16", .float "inf", .str " 7 "].map toInt? =
    [some (-2), some 0, some 10000000000000000, none, some 7] := by decide +kernel

def hexDigit (n : Nat) : Char :=
  if n < 10 then Char.ofNat (48 + n) else Char.ofNat (87 + n)

/-- The escape `json.dumps(..., ensure_ascii=False)` writes for a character. -/
def escape (c : Char) : List Char :=
  if c = '"' then ['\\', '"']
  else if c = '\\' then ['\\', '\\']
  else if c = '\n' then ['\\', 'n']
  else if c = '\r' then ['\\', 'r']
  else if c = '\t' then ['\\', 't']
  else if c.toNat = 12 then ['\\', 'f']
  else if c.toNat = 8 then ['\\', 'b']
  else if c.toNat < 32 then
    ['\\', 'u', '0', '0', hexDigit (c.toNat / 16), hexDigit (c.toNat % 16)]
  else [c]

def quoted (s : String) : List Char :=
  '"' :: (s.toList.flatMap escape ++ ['"'])

mutual
/-- `json.dumps(value, ensure_ascii=False, separators=(",", ":"))`. -/
def dumpsChars : Json → List Char
  | .null => ['n', 'u', 'l', 'l']
  | .bool true => ['t', 'r', 'u', 'e']
  | .bool false => ['f', 'a', 'l', 's', 'e']
  | .int value => (toString value).toList
  | .float literal => literal.toList
  | .str value => quoted value
  | .arr items => '[' :: (dumpsItems items ++ [']'])
  | .obj members => '\x7b' :: (dumpsMembers members ++ ['\x7d'])
def dumpsItems : List Json → List Char
  | [] => []
  | [item] => dumpsChars item
  | item :: rest => dumpsChars item ++ ',' :: dumpsItems rest
def dumpsMembers : List (String × Json) → List Char
  | [] => []
  | [(key, value)] => quoted key ++ ':' :: dumpsChars value
  | (key, value) :: rest => quoted key ++ ':' :: (dumpsChars value ++ ',' :: dumpsMembers rest)
end

def dumps (value : Json) : String := String.ofList value.dumpsChars

end Json
end Codec
