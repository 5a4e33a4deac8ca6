import MonkeyOcr.Codec.Json

namespace Codec

/-- What `str.isprintable` refuses of the characters beyond ASCII that are assigned. -/
def unprintable : List (Nat × Nat) :=
  [(0x7F, 0xA0), (0xAD, 0xAD), (0x600, 0x605), (0x61C, 0x61C), (0x6DD, 0x6DD), (0x70F, 0x70F), (0x890, 0x891),
    (0x8E2, 0x8E2), (0x1680, 0x1680), (0x180E, 0x180E), (0x2000, 0x200F), (0x2028, 0x202F), (0x205F, 0x2064),
    (0x2066, 0x206F), (0x3000, 0x3000), (0xE000, 0xF8FF), (0xFEFF, 0xFEFF), (0xFFF9, 0xFFFB), (0x110BD, 0x110BD),
    (0x110CD, 0x110CD), (0x13430, 0x1343F), (0x1BCA0, 0x1BCA3), (0x1D173, 0x1D17A), (0xE0001, 0xE0001),
    (0xE0020, 0xE007F), (0xF0000, 0xFFFFD), (0x100000, 0x10FFFD)]

def printable (c : Char) : Bool :=
  if c.toNat < 127 then 32 ≤ c.toNat
  else !unprintable.any fun (least, greatest) => least ≤ c.toNat && c.toNat ≤ greatest

/-- `str.isspace` -/
def isSpace (c : Char) : Bool := MonkeyOcr.goSpace c || (0x1C ≤ c.toNat && c.toNat ≤ 0x1F)

/-- `text.strip()` -/
def strip (text : String) : String := String.ofList (MonkeyOcr.trim isSpace text.toList)

namespace Json

/-- The last digits of a number in hexadecimal. -/
def hexDigits (digits n : Nat) : List Char := (List.range digits).map fun i => hexDigit (n / 16 ^ (digits - 1 - i) % 16)

/-- `repr` of a `str`. -/
def reprString (text : String) : List Char :=
  let apostrophe := Char.ofNat 39
  let quote := if text.toList.contains apostrophe ∧ ¬ text.toList.contains '"' then '"' else apostrophe
  let written := text.toList.flatMap fun c =>
    if c = quote ∨ c = '\\' then ['\\', c]
    else if c = '\n' then ['\\', 'n']
    else if c = '\r' then ['\\', 'r']
    else if c = '\t' then ['\\', 't']
    else if printable c then [c]
    else if c.toNat < 256 then '\\' :: 'x' :: hexDigits 2 c.toNat
    else if c.toNat < 65536 then '\\' :: 'u' :: hexDigits 4 c.toNat
    else '\\' :: 'U' :: hexDigits 8 c.toNat
  quote :: (written ++ [quote])

mutual
/-- `repr(value)` -/
def reprChars : Json → List Char
  | .null => ['N', 'o', 'n', 'e']
  | .bool true => ['T', 'r', 'u', 'e']
  | .bool false => ['F', 'a', 'l', 's', 'e']
  | .int value => (toString value).toList
  | .float literal => literal.toList
  | .str value => reprString value
  | .arr items => '[' :: (reprItems items ++ [']'])
  | .obj members => '\x7b' :: (reprMembers members ++ ['\x7d'])
def reprItems : List Json → List Char
  | [] => []
  | [item] => reprChars item
  | item :: rest => reprChars item ++ ',' :: ' ' :: reprItems rest
def reprMembers : List (String × Json) → List Char
  | [] => []
  | [(key, value)] => reprString key ++ ':' :: ' ' :: reprChars value
  | (key, value) :: rest => reprString key ++ ':' :: ' ' :: (reprChars value ++ ',' :: ' ' :: reprMembers rest)
end

/-- `str(value)` -/
def pyStr : Json → String
  | .str value => value
  | value => String.ofList value.reprChars

example : pyStr (.obj [("a", .str "it's"), ("b", .arr [.null, .bool true, .float "1.5", .str "\x07\"'"])]) =
    "\x7b'a': \"it's\", 'b': [None, True, 1.5, '\\x07\"\\'']\x7d" := by decide +kernel

end Json

end Codec
