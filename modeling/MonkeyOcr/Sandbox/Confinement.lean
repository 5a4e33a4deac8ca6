import MonkeyOcr.Files.Links
import MonkeyOcr.Sandbox.Preprocessor

namespace MonkeyOcr

namespace Sandbox

namespace Confinement

open Codec
open Files.Links (Tree Target LinkFree walk openFile)

abbrev RealPath := Files.Links.Path

/-- Where the worker has made the directory of its request. -/
structure RequestDir (tree : Tree) where
  path : RealPath
  free : LinkFree tree path

/-- What Python makes of bytes and values: `json.loads` of the text of a file, whether it
is UTF-8 at all, and `int(value)`. -/
structure Python where
  loads : List (BitVec 8) → Option Json
  isText : List (BitVec 8) → Bool
  int : Json → Option Int

/-- The real paths of the files opened, the objects put, and what `prepare` returns or the
text of its `PreprocessingError`. -/
structure Outcome where
  opened : List RealPath
  puts : List (ObjectKey × List (BitVec 8))
  result : Except String (List PreparedPage)

def failed (text : String) : Outcome := ⟨[], [], .error text⟩

section

variable (python : Python) (tree : Tree) (links : Nat) (dir : RealPath) (maxPages : Int) (job : Job) (stored : Nat → Bool)

/-- The path of a page, which is resolved over so many links. A loop is an error. -/
def pagePath (root : RealPath) (number : Nat) : Json → Except String RealPath
  | .obj members =>
    match (match Json.get? members "page_number" with
      | none => some (number : Int)
      | some value => python.int value) with
    | none => .error "sandbox exchange failed"
    | some given =>
      if given ≠ number then .error "sandbox pages must be contiguous and one-based"
      else
        match Json.get? members "path" with
        | some (.str relativePath) =>
          let target := Target.parse relativePath
          match (if target.absolute then walk tree false links [] target.parts
            else walk tree false links dir ("output" :: target.parts)) with
          | none => .error "sandbox exchange failed"
          | some page =>
            if root <+: page ∧ root ≠ page then .ok page else .error "sandbox page path escapes output directory"
        | _ => .error "sandbox page path is missing"
  | _ => .error "sandbox page descriptor is invalid"

/-- The loop of `_upload_pages`. The put of a page may fail. -/
def uploadEach (root : RealPath) (number : Nat) : List Json → Outcome
  | [] => ⟨[], [], .ok []⟩
  | descriptor :: rest =>
    match pagePath python tree links dir root number descriptor with
    | .error text => failed text
    | .ok page =>
      match openFile tree [] page with
      | none => failed "sandbox exchange failed"
      | some (real, data) =>
        if data = [] then ⟨[real], [], .error "sandbox produced an empty page"⟩
        else
          let objectKey := ObjectKey.page job.id job.attempt (Preprocessor.sixDigits number ++ ".png")
          if stored number then
            let later := uploadEach root (number + 1) rest
            ⟨real :: later.opened, (objectKey, data) :: later.puts, later.result.map (⟨number, objectKey⟩ :: ·)⟩
          else ⟨[real], [(objectKey, data)], .error "sandbox exchange failed"⟩

/-- What `_upload_pages` does with the manifest it has read. -/
def uploadListed (text : List (BitVec 8)) : Outcome :=
  match python.loads text with
  | none => failed (if python.isText text then "sandbox did not produce a valid manifest" else "sandbox exchange failed")
  | some manifest =>
    match Preprocessor.pagesOf manifest with
    | some (.arr descriptors) =>
      if 1 ≤ descriptors.length ∧ descriptors.length ≤ maxPages then
        match walk tree false links dir ["output"] with
        | none => failed "sandbox exchange failed"
        | some root => uploadEach python tree links dir job stored root 1 descriptors
      else failed "sandbox page count is invalid"
    | _ => failed "sandbox page count is invalid"

/-- `_upload_pages`. -/
def uploadPages : Outcome :=
  match openFile tree dir ["output", "manifest.json"] with
  | none => failed "sandbox did not produce a valid manifest"
  | some (real, text) =>
    let after := uploadListed python tree links dir maxPages job stored text
    { after with opened := real :: after.opened }

/-- `response.get("ok")`, as a truth value. -/
def accepted (text : List (BitVec 8)) : Bool :=
  match python.loads text with
  | some (.obj members) => ((Json.get? members "ok").map Json.truthy).getD false
  | _ => false

/-- What `prepare` does with the response it has read. -/
def answered (text : List (BitVec 8)) : Outcome :=
  match python.loads text with
  | some (.obj members) =>
    if accepted python text then uploadPages python tree links dir maxPages job stored
    else
      let given := (Json.get? members "error_reason").getD .null
      let reason := if given.truthy then given.pyStr else "sandbox_failed"
      failed ("sandbox preprocessor rejected input: " ++ String.ofList (reason.toList.take 160))
  | _ => failed "sandbox exchange failed"

/-- `prepare`, from its wait for the response on. The tree does not change any more. -/
def prepare : Outcome :=
  match walk tree true 40 dir ["response.json"] with
  | none => failed "sandbox preprocessor timed out"
  | some _ =>
    match openFile tree dir ["response.json"] with
    | none => failed "sandbox exchange failed"
    | some (real, text) =>
      let after := answered python tree links dir maxPages job stored text
      { after with opened := real :: after.opened }

/-- Only files in the directory of the request are opened, and only objects of the pages
of this attempt are put. -/
structure Safe (outcome : Outcome) : Prop where
  opened : ∀ real ∈ outcome.opened, dir <+: real
  puts : ∀ put ∈ outcome.puts, ∃ name, put.1.text = s!"jobs/{job.id}/attempts/{job.attempt}/pages/" ++ name

/-- The page of a descriptor has been read and put. -/
def Stored (root : RealPath) (number : Nat) (descriptor : Json) : Prop :=
  ∃ page real data, pagePath python tree links dir root number descriptor = .ok page ∧
    openFile tree [] page = some (real, data) ∧ data ≠ [] ∧ stored number = true

def AllStored (root : RealPath) (number : Nat) : List Json → Prop
  | [] => True
  | descriptor :: rest => Stored python tree links dir stored root number descriptor ∧ AllStored root (number + 1) rest

/-- Of the listed pages, each whose turn comes is in the directory of the request, if there
is such a file. -/
def PagesInside (root : RealPath) (number : Nat) (descriptors : List Json) : Prop :=
  ∀ before descriptor after page content, descriptors = before ++ descriptor :: after →
    AllStored python tree links dir stored root number before →
    pagePath python tree links dir root (number + before.length) descriptor = .ok page →
    openFile tree [] page = some (page, content) → dir <+: page

/-- Where the links lead: neither the response nor the manifest is a file outside, and the
output directory is inside, or else the pages are. -/
structure Confined : Prop where
  response : ∀ real text, openFile tree dir ["response.json"] = some (real, text) → dir <+: real
  manifest : ∀ real text, openFile tree dir ["response.json"] = some (real, text) → accepted python text = true →
    ∀ real text, openFile tree dir ["output", "manifest.json"] = some (real, text) → dir <+: real
  output : ∀ real text, openFile tree dir ["response.json"] = some (real, text) → accepted python text = true →
    ∀ real text, openFile tree dir ["output", "manifest.json"] = some (real, text) →
      ∀ manifest descriptors, python.loads text = some manifest → Preprocessor.pagesOf manifest = some (.arr descriptors) →
        1 ≤ descriptors.length → descriptors.length ≤ maxPages →
          ∀ root, walk tree false links dir ["output"] = some root →
            dir <+: root ∨ PagesInside python tree links dir stored root 1 descriptors

end

variable {python : Python} {tree : Tree} {links : Nat} {dir root page real : RealPath} {maxPages : Int} {job : Job}
  {stored : Nat → Bool} {number : Nat} {descriptor : Json} {descriptors : List Json} {text : List (BitVec 8)}

/-- A page that passes the check is a real path below the output directory. -/
theorem pagePath_ok (free : LinkFree tree dir)
    (passed : pagePath python tree links dir root number descriptor = .ok page) : root <+: page ∧ LinkFree tree page := by
  cases descriptor with
  | obj members =>
    simp only [pagePath] at passed
    split at passed
    · cases passed
    · split at passed
      · cases passed
      · split at passed
        · rename_i relativePath _
          split at passed
          · cases passed
          · rename_i resolved went
            split at passed
            · rename_i below
              cases passed
              refine ⟨below.1, ?_⟩
              split at went
              · exact Files.Links.walk_linkFree .nil went
              · exact Files.Links.walk_linkFree free went
            · cases passed
        · cases passed
  | _ => cases passed

/-- Opened is the page itself. -/
theorem openFile_page {data : List (BitVec 8)} (free : LinkFree tree dir)
    (passed : pagePath python tree links dir root number descriptor = .ok page)
    (opened : openFile tree [] page = some (real, data)) : real = page :=
  Files.Links.openFile_real (pagePath_ok free passed).2 opened

theorem pagesInside_cons : PagesInside python tree links dir stored root number (descriptor :: descriptors) ↔
    (∀ page content, pagePath python tree links dir root number descriptor = .ok page →
      openFile tree [] page = some (page, content) → dir <+: page) ∧
    (Stored python tree links dir stored root number descriptor →
      PagesInside python tree links dir stored root (number + 1) descriptors) := by
  constructor
  · intro inside
    refine ⟨fun page content => inside [] descriptor descriptors page content rfl trivial, ?_⟩
    intro first before other after page content split all passed
    have next : number + 1 + before.length = number + (descriptor :: before).length := by
      rw [List.length_cons]
      omega
    rw [next] at passed
    exact inside (descriptor :: before) other after page content (by rw [split]; rfl) ⟨first, all⟩ passed
  · intro ⟨first, later⟩ before other after page content split all passed
    cases before with
    | nil =>
      obtain ⟨rfl, _⟩ := List.cons.inj split
      exact first page content passed
    | cons head before =>
      obtain ⟨rfl, rest⟩ := List.cons.inj split
      have next : number + (descriptor :: before).length = number + 1 + before.length := by
        rw [List.length_cons]
        omega
      rw [next] at passed
      exact later all.1 before other after page content rest all.2 passed

/-- The loop opens what is listed, in turn. -/
theorem uploadEach_inside_iff (free : LinkFree tree dir) :
    (∀ real ∈ (uploadEach python tree links dir job stored root number descriptors).opened, dir <+: real) ↔
      PagesInside python tree links dir stored root number descriptors := by
  induction descriptors generalizing number with
  | nil =>
    refine iff_of_true nofun ?_
    intro before descriptor after page content split
    simp at split
  | cons descriptor rest ih =>
    rw [pagesInside_cons]
    unfold uploadEach
    split
    · rename_i text refused
      refine iff_of_true nofun ⟨fun page content passed => ?_, fun stores => ?_⟩
      · rw [refused] at passed
        cases passed
      · obtain ⟨page, real, data, passed, _⟩ := stores
        rw [refused] at passed
        cases passed
    · rename_i page passed
      split
      · rename_i missing
        refine iff_of_true nofun ⟨fun page' content passed' opened => ?_, fun stores => ?_⟩
        · rw [Except.ok.inj (passed.symm.trans passed'), opened] at missing
          cases missing
        · obtain ⟨page', real, data, passed', opened, _⟩ := stores
          rw [Except.ok.inj (passed.symm.trans passed'), opened] at missing
          cases missing
      · rename_i real data opened
        have same : real = page := openFile_page free passed opened
        subst same
        have only : (∀ page content, pagePath python tree links dir root number descriptor = .ok page →
            openFile tree [] page = some (page, content) → dir <+: page) ↔ dir <+: real := by
          constructor
          · intro all
            exact all real data passed opened
          · intro inside page content passed' _
            rw [← Except.ok.inj (passed.symm.trans passed')]
            exact inside
        have stops : ∀ outcome : Outcome, outcome.opened = [real] →
            ¬ Stored python tree links dir stored root number descriptor →
            ((∀ real ∈ outcome.opened, dir <+: real) ↔ dir <+: real ∧
              (Stored python tree links dir stored root number descriptor →
                PagesInside python tree links dir stored root (number + 1) rest)) := by
          intro outcome one unstored
          rw [one, List.forall_mem_singleton]
          exact (and_iff_left fun stores => absurd stores unstored).symm
        rw [only]
        split
        · rename_i empty
          refine stops _ rfl fun stores => ?_
          obtain ⟨page, real', data', passed', opened', nonempty, _⟩ := stores
          rw [← Except.ok.inj (passed.symm.trans passed'), opened] at opened'
          cases opened'
          exact nonempty empty
        · rename_i nonempty
          dsimp only
          split
          · rename_i put
            rw [List.forall_mem_cons, ih]
            have stores : Stored python tree links dir stored root number descriptor :=
              ⟨real, real, data, passed, opened, nonempty, put⟩
            exact and_congr_right fun _ => (imp_iff_right stores).symm
          · rename_i refused
            refine stops _ rfl fun stores => ?_
            obtain ⟨_, _, _, _, _, _, put⟩ := stores
            exact refused put

/-- Every put is one of a page of the attempt. -/
theorem uploadEach_puts : ∀ put ∈ (uploadEach python tree links dir job stored root number descriptors).puts,
    ∃ name, put.1.text = s!"jobs/{job.id}/attempts/{job.attempt}/pages/" ++ name := by
  induction descriptors generalizing number with
  | nil => exact nofun
  | cons descriptor rest ih =>
    have here : ∀ name, ∃ name', (ObjectKey.page job.id job.attempt name).text =
        s!"jobs/{job.id}/attempts/{job.attempt}/pages/" ++ name' := by
      intro name
      exact ⟨name, rfl⟩
    unfold uploadEach
    split
    · exact nofun
    · split
      · exact nofun
      · split
        · exact nofun
        · dsimp only
          split
          · intro put member
            rcases List.mem_cons.mp member with rfl | later
            · exact here _
            · exact ih put later
          · intro put member
            rw [List.mem_singleton.mp member]
            exact here _

theorem prefix_of_root (free : LinkFree tree dir) (inside : dir <+: root) :
    PagesInside python tree links dir stored root number descriptors := by
  intro before descriptor after page content _ _ passed _
  exact inside.trans (pagePath_ok free passed).1

/-- What is read after the manifest. -/
theorem uploadListed_inside_iff (free : LinkFree tree dir) :
    (∀ real ∈ (uploadListed python tree links dir maxPages job stored text).opened, dir <+: real) ↔
      ∀ manifest descriptors, python.loads text = some manifest → Preprocessor.pagesOf manifest = some (.arr descriptors) →
        1 ≤ descriptors.length → descriptors.length ≤ maxPages →
          ∀ root, walk tree false links dir ["output"] = some root →
            dir <+: root ∨ PagesInside python tree links dir stored root 1 descriptors := by
  have nothing : ∀ text, ∀ real ∈ (failed text).opened, dir <+: real := fun _ => nofun
  unfold uploadListed
  split
  · rename_i unreadable
    refine iff_of_true (nothing _) fun manifest descriptors read => ?_
    rw [unreadable] at read
    cases read
  · rename_i manifest read
    split
    · rename_i descriptors pages
      have only : ∀ {holds : List Json → Prop}, (∀ manifest descriptors', python.loads text = some manifest →
          Preprocessor.pagesOf manifest = some (.arr descriptors') → holds descriptors') ↔ holds descriptors := by
        intro holds
        constructor
        · intro all
          exact all manifest descriptors read pages
        · intro here manifest' descriptors' read' pages'
          have same : manifest = manifest' := Option.some.inj (read.symm.trans read')
          subst same
          cases pages.symm.trans pages'
          exact here
      rw [only]
      split
      · rename_i count
        split
        · rename_i loop
          refine iff_of_true (nothing _) fun _ _ root went => ?_
          rw [loop] at went
          cases went
        · rename_i root went
          rw [uploadEach_inside_iff free]
          constructor
          · intro inside _ _ root' went'
            rw [← Option.some.inj (went.symm.trans went')]
            exact .inr inside
          · intro all
            rcases all count.1 count.2 root went with inside | inside
            · exact prefix_of_root free inside
            · exact inside
      · rename_i count
        exact iff_of_true (nothing _) fun some few => absurd ⟨some, few⟩ count
    · rename_i pages
      refine iff_of_true (nothing _) fun manifest' descriptors read' pages' => ?_
      rw [← Option.some.inj (read.symm.trans read')] at pages'
      exact absurd pages' (pages descriptors)

theorem uploadListed_puts : ∀ put ∈ (uploadListed python tree links dir maxPages job stored text).puts,
    ∃ name, put.1.text = s!"jobs/{job.id}/attempts/{job.attempt}/pages/" ++ name := by
  unfold uploadListed
  split
  · exact nofun
  · split
    · split
      · split
        · exact nofun
        · exact uploadEach_puts
      · exact nofun
    · exact nofun

theorem uploadPages_inside_iff (free : LinkFree tree dir) :
    (∀ real ∈ (uploadPages python tree links dir maxPages job stored).opened, dir <+: real) ↔
      (∀ real text, openFile tree dir ["output", "manifest.json"] = some (real, text) → dir <+: real) ∧
      ∀ real text, openFile tree dir ["output", "manifest.json"] = some (real, text) →
        ∀ manifest descriptors, python.loads text = some manifest → Preprocessor.pagesOf manifest = some (.arr descriptors) →
          1 ≤ descriptors.length → descriptors.length ≤ maxPages →
            ∀ root, walk tree false links dir ["output"] = some root →
              dir <+: root ∨ PagesInside python tree links dir stored root 1 descriptors := by
  unfold uploadPages
  split
  · rename_i missing
    refine iff_of_true nofun ⟨fun real text opened => ?_, fun real text opened => ?_⟩
    · rw [missing] at opened
      cases opened
    · rw [missing] at opened
      cases opened
  · rename_i real text opened
    dsimp only
    rw [List.forall_mem_cons, uploadListed_inside_iff free]
    constructor
    · intro ⟨inside, later⟩
      refine ⟨fun real' text' opened' => ?_, fun real' text' opened' => ?_⟩
      · cases opened.symm.trans opened'
        exact inside
      · cases opened.symm.trans opened'
        exact later
    · intro ⟨inside, later⟩
      exact ⟨inside real text opened, later real text opened⟩

theorem uploadPages_puts : ∀ put ∈ (uploadPages python tree links dir maxPages job stored).puts,
    ∃ name, put.1.text = s!"jobs/{job.id}/attempts/{job.attempt}/pages/" ++ name := by
  unfold uploadPages
  split
  · exact nofun
  · exact uploadListed_puts

/-- A response that is not accepted ends it. -/
theorem answered_refused (refused : accepted python text = false) :
    ∃ reason, answered python tree links dir maxPages job stored text = failed reason := by
  unfold answered
  split
  · rw [refused]
    exact ⟨_, rfl⟩
  · exact ⟨_, rfl⟩

theorem answered_accepted (accept : accepted python text = true) :
    answered python tree links dir maxPages job stored text = uploadPages python tree links dir maxPages job stored := by
  unfold answered
  split
  · rw [if_pos accept]
  · rename_i other
    unfold accepted at accept
    split at accept
    · rename_i members same
      exact absurd same (other members)
    · cases accept

theorem prepare_puts : ∀ put ∈ (prepare python tree links dir maxPages job stored).puts,
    ∃ name, put.1.text = s!"jobs/{job.id}/attempts/{job.attempt}/pages/" ++ name := by
  unfold prepare
  split
  · exact nofun
  · split
    · exact nofun
    · rename_i text _
      dsimp only
      cases accept : accepted python text with
      | false =>
        obtain ⟨reason, refused⟩ := @answered_refused python tree links dir maxPages job stored _ accept
        rw [refused]
        exact nofun
      | true =>
        rw [answered_accepted accept]
        exact uploadPages_puts

theorem walk_of_openFile {parts : List String} (opened : openFile tree dir parts = some (real, text)) :
    ∃ path, walk tree true 40 dir parts = some path := by
  unfold openFile at opened
  split at opened
  · rename_i path went
    exact ⟨path, went⟩
  · cases opened

end Confinement

end Sandbox

end MonkeyOcr
