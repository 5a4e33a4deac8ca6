import MonkeyOcr.Codec.Repr
import MonkeyOcr.Sandbox.Ports

namespace MonkeyOcr

namespace Sandbox

open Calls Codec

/-- `atomic_json`, of a payload that is written as `text`, if UTF-8 can encode it. -/
def atomicJson (path : Path) (text : Option String) : Program Unit := do
  match path with
  | [] => .raise (.exception "ValueError" (PyStr.ofString "'/' has an empty name"))
  | name :: parent =>
    let temporary := withSuffix ".tmp" name :: parent
    writeText temporary text
    await (.rename temporary path)

/-- `{"ok": True}`. -/
def okPayload : Json := .obj [("ok", .bool true)]

/-- `{"ok": False, "error_reason": ...}`. -/
def failedPayload (reason : String) : Json := .obj [("ok", .bool false), ("error_reason", .str reason)]

/-- `(base / relative).resolve()`, where nothing is a link; `none` is outside the exchange directory. -/
def resolve (base : Path) (relative : String) : Option Path :=
  if relative.toList.head? = some '/' then none
  else (relative.toList.splitOn '/').foldlM (fun path part =>
    if part = [] ∨ part = ['.'] then some path
    else if part = ['.', '.'] then path.tail? else some (String.ofList part :: path)) base

/-- `directory in path.parents`. -/
def inParents (directory path : Path) : Bool := directory.isSuffixOf path.tail

/-- `request[key]`. -/
def item (members : List (String × Json)) (key : String) : Program Json :=
  match Json.get? members key with
  | some value => return value
  | none => .raise (.exception "KeyError" (PyStr.ofString s!"'{key}'"))

/-- `int(request.get(key, default))`. -/
def integer (members : List (String × Json)) (key : String) (default : Int) : Program Int :=
  match Json.get? members key with
  | none => return default
  | some value =>
    match value.toInt? with
    | some n => return n
    | none => .raise (.exception "ValueError" (PyStr.ofString "invalid literal for int() with base 10"))

/-- The rest of `validate_and_render`, as far as `turns` steps take it. -/
def rendered (output : Path) : Nat → Program Unit
  | 0 => .halt
  | turns + 1 => do
    if ← await (.rendering output) then return () else rendered output turns

/-- The body of the `try` of `process_request`. -/
def answerRequest (turns : Nat) (requestDir : Path) : Program Unit := do
  let text ← readText ("processing.json" :: requestDir)
  let members ← match Json.loads text with
    | some (.obj members) => pure members
    | some _ => .raise (.exception "TypeError" (PyStr.ofString "indices must be integers or slices, not str"))
    | none => .raise (.exception "JSONDecodeError" (PyStr.ofString "Expecting value: line 1 column 1 (char 0)"))
  let input ← item members "input"
  let source := resolve requestDir input.pyStr
  let output := "output" :: requestDir
  match source.filter fun source => inParents requestDir source && inParents requestDir output with
  | none => .raise (.exception "ValueError" (PyStr.ofString "sandbox_path_escape"))
  | some source =>
    let sha256 ← item members "sha256"
    let maxPages ← integer members "max_pages" 500
    let maxPixels ← integer members "max_pixels" 100000000
    let dpi ← integer members "dpi" 180
    await (.render source output sha256.pyStr maxPages maxPixels dpi)
    rendered output turns
    atomicJson ("response.json" :: requestDir) (some okPayload.dumps)

def processRequest (turns : Nat) (requestFile : Path) : Program Unit := do
  let requestDir := requestFile.tail
  let claimed := "processing.json" :: requestDir
  match ← (await (.rename requestFile claimed)).attempt with
  | .error (.fileNotFound _) => return ()
  | .error e => .raise e
  | .ok () =>
    (answerRequest turns requestDir).catchError fun e =>
      if e.isException then
        atomicJson ("response.json" :: requestDir) (e.reason.encodable?.map fun reason => (failedPayload reason).dumps)
      else .raise e

/-- One pass of `main` over `root.glob("*/request.json")`. -/
def pass (turns : Nat) : List (String × Bool) → Program Unit
  | [] => return ()
  | (_, false) :: rest => pass turns rest
  | (name, true) :: rest => do
    if ← await (.exists_ ["request.json", name]) then processRequest turns ["request.json", name]
    pass turns rest

/-- `main`, for some passes. -/
def main (turns : Nat) : Nat → Program Unit
  | 0 => .halt
  | rounds + 1 => do
    let names ← await (.scandir [])
    pass turns names
    await .pause
    main turns rounds

end Sandbox

end MonkeyOcr
