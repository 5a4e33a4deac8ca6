import MonkeyOcr.Calls.Machine
import MonkeyOcr.Sandbox.Preprocessor

namespace MonkeyOcr

namespace Sandbox

open Calls

/-- What `validate_and_render` does to files on its way. -/
inductive Work where
  | mkdir (parents : Bool)
  | openFile (name : String)
  | append (name : String) (data : List (BitVec 8))

/-- What an operation leaves open. -/
inductive Choice where
  | go
  | fail (raised : Raised)
  | count (n : Nat)
  | listing (entries : List (String × Bool))
  | work (work : Work)
  | hex (hex : String)
  | data (data : List (BitVec 8))
  | time (now : Nat)

structure World where
  volume : Volume := {}
  /-- The tokens `uuid4` has drawn. -/
  drawn : List String := []

namespace World

variable (w : World)

/-- An operation that changes the volume. -/
def change {α : Type} (paths : List Path) (result : Except Files.Errno (α × Volume)) : Except Raised α × World :=
  match result with
  | .ok (a, volume) => (.ok a, { w with volume })
  | .error e => (.error (osError e paths), w)

/-- An operation that looks. -/
def look {α : Type} (paths : List Path) (result : Except Files.Errno α) : Except Raised α × World :=
  (result.mapError (osError · paths), w)

/-- One step of the work in an output directory. An operation that fails changes nothing. -/
def perform (output : Path) : Work → Volume
  | .mkdir false => (w.volume.mkdir output).toOption.getD w.volume
  | .mkdir true => (w.volume.mkdir output.tail).toOption.getD w.volume
  | .openFile name => ((w.volume.openWrite (name :: output)).toOption.map Prod.snd).getD w.volume
  | .append name data =>
    match w.volume.node (name :: output) with
    | some (.file k) => w.volume.write k data
    | _ => w.volume

/-- The kind of each entry. -/
def entries (path : Path) : List (String × Bool) :=
  (w.volume.children path).map fun entry => (entry.1, decide (entry.2 = .dir))

/-- One operation, as one step. -/
def exec : (op : Op) → Choice → Option (Except Raised op.Val × World)
  | .mkdir path, .go => some (w.change [path] ((w.volume.mkdir path).map fun volume => ((), volume)))
  | .openWrite path, .go => some (w.change [path] (w.volume.openWrite path))
  | .write handle data, .count n =>
    if 1 ≤ n ∧ n ≤ data.length then some (.ok n, { w with volume := w.volume.write handle (data.take n) }) else none
  | .rename src dst, .go => some (w.change [src, dst] ((w.volume.rename src dst).map fun volume => ((), volume)))
  | .openRead path, .go => some (w.look [path] (w.volume.openRead path))
  | .readAll handle, .go => some (.ok (w.volume.data handle), w)
  | .exists_ path, .go => some (.ok (w.volume.exists? path), w)
  | .scandir path, .listing listing =>
    match w.volume.node path with
    | some .dir => if listing.isPerm (w.entries path) then some (.ok listing, w) else none
    | some (.file _) => some (.error (osError .notDir [path]), w)
    | none => some (.error (osError .noent [path]), w)
  | .unlink path, .go => some (w.change [path] ((w.volume.unlink path).map fun volume => ((), volume)))
  | .rmdir path, .go => some (w.change [path] ((w.volume.rmdir path).map fun volume => ((), volume)))
  | .render .., .go => some (.ok (), w)
  | .rendering output, .work work => some (.ok false, { w with volume := w.perform output work })
  | .rendering _, .go => some (.ok true, w)
  | .rendering _, .fail raised => some (.error raised, w)
  | .uuid4, .hex hex =>
    if hex ∉ w.drawn ∧ '-' ∉ hex.toList then some (.ok hex, { w with drawn := hex :: w.drawn }) else none
  | .getBytes _, .data data => some (.ok data, w)
  | .getBytes _, .fail raised => some (.error raised, w)
  | .putBytes .., .go => some (.ok (), w)
  | .putBytes .., .fail raised => some (.error raised, w)
  | .loopTime, .time now => some (.ok now, w)
  | .sleep, .go => some (.ok (), w)
  | .sleep, .fail raised => some (.error raised, w)
  | .pause, .go => some (.ok (), w)
  | _, _ => none

end World

/-- The calls of `prepare`, and the daemon. -/
inductive Task
  | prepare (turns : Nat) (upload : Upload) (job : Job)
  | main (turns rounds : Nat)

inductive Reply
  | pages (pages : List PreparedPage)
  | ended

def program (settings : Preprocessor) : Task → Program Reply
  | .prepare turns upload job => do
    let pages ← settings.prepare turns upload job
    return .pages pages
  | .main turns rounds => do
    main turns rounds
    return .ended

abbrev State := Sys Sig World Task Raised Reply

abbrev SandboxCall := Call Sig Task Raised Reply

abbrev Step := Action Task Choice Empty

/-- Every interleaving of calls of `prepare` with the loop of the daemon. -/
def system (settings : Preprocessor) : Machine Sig World Task Choice Empty Raised Reply where
  program := program settings
  exec _ op choice w := w.exec op choice
  env event _ := event.elim

/-- An empty exchange directory. -/
def idle : State := ⟨{}, []⟩

end Sandbox

end MonkeyOcr
