import Mathlib.Data.List.Basic

namespace Files.Links

/-- A path from the root, by its names. -/
abbrev Path := List String

/-- The text of a path or of a link, with its empty names, dots and double dots. -/
structure Target where
  absolute : Bool
  parts : List String

def Target.parse (text : String) : Target where
  absolute := text.toList.head? = some '/'
  parts := (text.toList.splitOn '/').map String.ofList

inductive Node where
  | dir
  | file (content : List (BitVec 8))
  | link (target : Target)

abbrev Tree := Path → Option Node

/-- What a walk goes on past: anything, or only what is there, with directories on the way. -/
def passes (strict : Bool) (node : Option Node) (rest : List String) : Bool :=
  !strict || match node with
    | some .dir => true
    | some (.file _) => rest.isEmpty
    | _ => false

/-- Go on from a real path along these parts, and leave to `jump` what follows a link. -/
def follow (tree : Tree) (strict : Bool) (jump : Path → List String → Option Path) : Path → List String → Option Path
  | path, [] => some path
  | path, name :: rest =>
    if name = "" ∨ name = "." then follow tree strict jump path rest
    else if name = ".." then follow tree strict jump path.dropLast rest
    else
      match tree (path ++ [name]) with
      | some (.link target) => jump (if target.absolute then [] else path) (target.parts ++ rest)
      | node => if passes strict node rest then follow tree strict jump (path ++ [name]) rest else none

/-- The real path at the end, over so many links at most. -/
def walk (tree : Tree) (strict : Bool) : Nat → Path → List String → Option Path
  | 0 => follow tree strict fun _ _ => none
  | links + 1 => follow tree strict (walk tree strict links)

/-- `open` of a file, with its real path and its content. The kernel follows 40 links. -/
def openFile (tree : Tree) (path : Path) (parts : List String) : Option (Path × List (BitVec 8)) :=
  match walk tree true 40 path parts with
  | some real =>
    match tree real with
    | some (.file content) => some (real, content)
    | _ => none
  | none => none

/-- A link that leads up and out, and one that leads to itself. -/
example :
    let tree : Tree := fun path =>
      if path = ["a", "up"] then some (.link (.parse "../b")) else
      if path = ["a", "loop"] then some (.link (.parse "loop/x")) else
      if path = ["b"] then some (.file [7]) else none
    openFile tree ["a"] ["up"] = some (["b"], [7]) ∧ openFile tree ["a"] ["loop"] = none := by decide +kernel

/-- A path whose names are names, none of them that of a link. -/
def LinkFree (tree : Tree) (path : Path) : Prop :=
  ∀ before name after, path = before ++ name :: after →
    name ≠ "" ∧ name ≠ "." ∧ name ≠ ".." ∧ ∀ target, tree (before ++ [name]) ≠ some (.link target)

variable {tree : Tree} {strict : Bool} {links : Nat} {path real : Path} {name : String} {parts : List String}

theorem LinkFree.nil : LinkFree tree [] := by
  intro before name after split
  simp at split

theorem LinkFree.of_prefix {more : Path} (free : LinkFree tree (path ++ more)) : LinkFree tree path := by
  intro before name after split
  apply free before name (after ++ more)
  rw [split, List.append_assoc, List.cons_append]

theorem LinkFree.dropLast (free : LinkFree tree path) : LinkFree tree path.dropLast := by
  obtain ⟨last, split⟩ := List.dropLast_prefix path
  rw [← split] at free
  exact free.of_prefix

theorem LinkFree.append (free : LinkFree tree path) (isName : name ≠ "" ∧ name ≠ "." ∧ name ≠ "..")
    (noLink : ∀ target, tree (path ++ [name]) ≠ some (.link target)) : LinkFree tree (path ++ [name]) := by
  intro before other after split
  rcases List.eq_nil_or_concat after with rfl | ⟨middle, last, rfl⟩
  · obtain ⟨rfl, same⟩ := List.append_inj' split rfl
    cases same
    exact ⟨isName.1, isName.2.1, isName.2.2, noLink⟩
  · rw [List.concat_eq_append, ← List.cons_append, ← List.append_assoc] at split
    obtain ⟨same, _⟩ := List.append_inj' split rfl
    exact free before other middle same

theorem follow_linkFree {jump : Path → List String → Option Path}
    (jumps : ∀ path parts, LinkFree tree path → jump path parts = some real → LinkFree tree real)
    (free : LinkFree tree path) (went : follow tree strict jump path parts = some real) : LinkFree tree real := by
  induction parts generalizing path with
  | nil =>
    cases went
    exact free
  | cons name rest ih =>
    rw [follow] at went
    split at went
    · exact ih free went
    · rename_i dot
      split at went
      · exact ih free.dropLast went
      · rename_i dots
        split at went
        · rename_i target _
          refine jumps _ _ ?_ went
          split
          · exact .nil
          · exact free
        · rename_i noLink
          split at went
          · refine ih (free.append ⟨fun empty => dot (.inl empty), fun same => dot (.inr same), dots⟩ ?_) went
            intro target link
            exact noLink target link
          · cases went

/-- A walk ends at a path without links. -/
theorem walk_linkFree (free : LinkFree tree path) (went : walk tree strict links path parts = some real) :
    LinkFree tree real := by
  induction links generalizing path parts with
  | zero =>
    have stops : ∀ path parts, LinkFree tree path → (fun _ _ => none : Path → List String → Option Path) path parts =
        some real → LinkFree tree real := by
      intro path parts _ none
      cases none
    exact follow_linkFree stops free went
  | succ links ih => exact follow_linkFree (fun _ _ free went => ih free went) free went

theorem follow_of_linkFree {jump : Path → List String → Option Path} (free : LinkFree tree (path ++ parts))
    (went : follow tree strict jump path parts = some real) : real = path ++ parts := by
  induction parts generalizing path with
  | nil =>
    cases went
    exact (List.append_nil _).symm
  | cons name rest ih =>
    obtain ⟨some, dot, dots, noLink⟩ := free path name rest rfl
    have whole : path ++ name :: rest = path ++ [name] ++ rest := by simp
    rw [follow, if_neg (not_or.mpr ⟨some, dot⟩), if_neg dots] at went
    split at went
    · rename_i target link
      exact absurd link (noLink target)
    · split at went
      · rw [whole] at free ⊢
        exact ih free went
      · cases went

/-- A path without links leads to itself. -/
theorem walk_of_linkFree (free : LinkFree tree (path ++ parts)) (went : walk tree strict links path parts = some real) :
    real = path ++ parts := by
  cases links with
  | zero => exact follow_of_linkFree free went
  | succ => exact follow_of_linkFree free went

/-- What is opened under a path without links is what stands there. -/
theorem openFile_real {content : List (BitVec 8)} (free : LinkFree tree path)
    (opened : openFile tree [] path = some (real, content)) : real = path := by
  unfold openFile at opened
  split at opened
  · rename_i end_ went
    split at opened
    · cases opened
      exact walk_of_linkFree free went
    · cases opened
  · cases opened

end Files.Links
