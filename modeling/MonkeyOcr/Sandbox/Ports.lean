import MonkeyOcr.Calls.Program
import MonkeyOcr.Codec.Reader
import MonkeyOcr.Domain.Models
import MonkeyOcr.Files.Volume
import MonkeyOcr.Text.Bytes

namespace MonkeyOcr

namespace Sandbox

open Calls Codec

/-- A path below the exchange directory. -/
abbrev Path := Files.Path String

abbrev Volume := Files.Volume String (BitVec 8)

/-- A Python `str` by its code points. Half a surrogate pair is one of them. -/
abbrev PyStr := List Nat

def PyStr.ofString (text : String) : PyStr := text.toList.map Char.toNat

/-- The text, if UTF-8 can encode it. -/
def PyStr.encodable? (text : PyStr) : Option String :=
  if ∀ n ∈ text, n.isValidChar then some (String.ofList (text.map Char.ofNat)) else none

/-- What the two sides raise. `exit` is no `Exception`. -/
inductive Raised where
  | fileNotFound (text : PyStr)
  | preprocessing (text : String)
  | exception (className : String) (text : PyStr)
  | exit (className : String)

namespace Raised

def isException : Raised → Bool
  | exit _ => false
  | _ => true

/-- `type(exc).__name__`. -/
def className : Raised → String
  | fileNotFound _ => "FileNotFoundError"
  | preprocessing _ => "PreprocessingError"
  | exception className _ | exit className => className

/-- `str(exc)`. -/
def text : Raised → PyStr
  | fileNotFound text | exception _ text => text
  | preprocessing text => PyStr.ofString text
  | exit _ => []

/-- `str(exc)[:160] or type(exc).__name__`. -/
def reason (raised : Raised) : PyStr :=
  if raised.text = [] then PyStr.ofString raised.className else raised.text.take 160

/-- The process can be told of it: an `Exception` with a reason that UTF-8 can encode. -/
def Reportable (raised : Raised) : Prop := raised.isException = true ∧ (raised.reason.encodable?).isSome = true

instance (raised : Raised) : Decidable raised.Reportable := inferInstanceAs (Decidable (_ ∧ _))

end Raised

/-- The `OSError` of a failed operation on some paths. -/
def osError (error : Files.Errno) (paths : List Path) : Raised :=
  let place := "' -> '".intercalate (paths.map fun path => "/".intercalate ("/exchange" :: path.reverse))
  match error with
  | .noent => .fileNotFound (PyStr.ofString s!"[Errno 2] No such file or directory: '{place}'")
  | .exist => .exception "FileExistsError" (PyStr.ofString s!"[Errno 17] File exists: '{place}'")
  | .notDir => .exception "NotADirectoryError" (PyStr.ofString s!"[Errno 20] Not a directory: '{place}'")
  | .isDir => .exception "IsADirectoryError" (PyStr.ofString s!"[Errno 21] Is a directory: '{place}'")
  | .notEmpty => .exception "OSError" (PyStr.ofString s!"[Errno 39] Directory not empty: '{place}'")

/-- What the daemon and its clients await: the operations on the exchange directory,
`validate_and_render`, which `render` calls and `rendering` waits for, `asyncio.sleep` and
`time.sleep` (`pause`). -/
inductive Op
  | mkdir (path : Path)
  | openWrite (path : Path)
  | write (handle : Nat) (data : List (BitVec 8))
  | rename (src dst : Path)
  | openRead (path : Path)
  | readAll (handle : Nat)
  | exists_ (path : Path)
  | scandir (path : Path)
  | unlink (path : Path)
  | rmdir (path : Path)
  | render (source output : Path) (expectedSha256 : String) (maxPages maxPixels dpi : Int)
  | rendering (output : Path)
  | uuid4
  | getBytes (key : ObjectKey)
  | putBytes (key : ObjectKey) (data : List (BitVec 8))
  | loopTime
  | sleep
  | pause

/-- `rendering` tells whether `validate_and_render` has returned. -/
abbrev Op.Val : Op → Type
  | mkdir _ | rename .. | unlink _ | rmdir _ | render .. | putBytes .. | sleep | pause => Unit
  | openWrite _ | openRead _ | write .. | loopTime => Nat
  | readAll _ | getBytes _ => List (BitVec 8)
  | exists_ _ | rendering _ => Bool
  | scandir _ => List (String × Bool)
  | uuid4 => String

abbrev Sig : Signature := ⟨Op, fun op => Except Raised op.Val⟩

abbrev Program (α : Type) := Prog Sig Raised α

def await (op : Op) : Program op.Val := .call (S := Sig) op .ofExcept

/-! ### Texts in files -/

/-- `bytes.decode("utf-8")`. -/
def decode (bytes : List (BitVec 8)) : Option String :=
  ((bytes.map UInt8.ofBitVec).toByteArray.utf8Decode?).map fun chars => String.ofList chars.toList

theorem decode_utf8 (text : String) : decode (Bytes.utf8 text) = some text := by
  have same : ((Bytes.utf8 text).map UInt8.ofBitVec).toByteArray = text.toList.utf8Encode := by
    rw [Bytes.utf8, List.map_flatMap, List.utf8Encode]
    congr 2
    funext c
    have back : UInt8.ofBitVec ∘ UInt8.toBitVec = id := rfl
    rw [Bytes.utf8Char, List.map_map, back, List.map_id]
  rw [decode, same, List.utf8Decode?_utf8Encode]
  simp

/-- `Path.read_text`. -/
def readText (path : Path) : Program String := do
  let handle ← await (.openRead path)
  let bytes ← await (.readAll handle)
  match decode bytes with
  | some text => return text
  | none => .raise (.exception "UnicodeDecodeError" (PyStr.ofString "invalid start byte"))

/-- The operating system takes some bytes of a write at a time. -/
def writeAll (handle : Nat) : Nat → List (BitVec 8) → Program Unit
  | 0, _ => return ()
  | fuel + 1, data =>
    if data = [] then return ()
    else do
      let count ← await (.write handle data)
      writeAll handle fuel (data.drop count)

/-- `Path.write_bytes`. -/
def writeBytes (path : Path) (data : List (BitVec 8)) : Program Unit := do
  let handle ← await (.openWrite path)
  writeAll handle data.length data

/-- `Path.write_text` of a text, if UTF-8 can encode it. The file is opened first. -/
def writeText (path : Path) (text : Option String) : Program Unit := do
  let handle ← await (.openWrite path)
  match text with
  | some text => writeAll handle (Bytes.utf8 text).length (Bytes.utf8 text)
  | none => .raise (.exception "UnicodeEncodeError" (PyStr.ofString "surrogates not allowed"))

/-- `PurePath.with_suffix`, of a name. -/
def withSuffix (suffix name : String) : String :=
  let stem := (name.toList.reverse.dropWhile (· ≠ '.')).drop 1
  if stem = [] then name ++ suffix else String.ofList stem.reverse ++ suffix

end Sandbox

end MonkeyOcr
