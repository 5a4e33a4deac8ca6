import Mathlib.Data.List.Basic
import Mathlib.Logic.Function.Basic

/-! A tree of directories and files. A name stands for a file, a process that has opened
a file keeps it, and what is written to a file is seen under every name it gets. -/

namespace Files

/-- A path by its names, the innermost first. -/
abbrev Path (N : Type) := List N

inductive Node where
  | dir
  | file (inode : Nat)
  deriving DecidableEq

/-- Why an operation fails. -/
inductive Errno where
  | noent
  | exist
  | notDir
  | isDir
  | notEmpty
  deriving DecidableEq

variable {N β : Type} [DecidableEq N]

/-- What a path stands for in a table of names. The root is always there. -/
def find (names : List (Path N × Node)) : Path N → Option Node
  | [] => some .dir
  | name :: parent => names.lookup (name :: parent)

/-- Every name is in a directory, and every file has one name. -/
structure Volume (N β : Type) [DecidableEq N] where
  names : List (Path N × Node) := []
  data : Nat → List β := fun _ => []
  next : Nat := 0
  closed : ∀ name parent, (find names (name :: parent)).isSome → find names parent = some .dir := by
    intro name parent some
    cases some
  unshared : ∀ p q k, find names p = some (.file k) → find names q = some (.file k) → p = q := by
    intro p q k here
    cases p <;> cases here
  fresh : ∀ p k, find names p = some (.file k) → k < next := by
    intro p k here
    cases p <;> cases here

/-- The names without `p`. -/
def without (p : Path N) (names : List (Path N × Node)) : List (Path N × Node) :=
  names.filter fun entry => entry.1 ≠ p

theorem lookup_cons (p q : Path N) (n : Node) (names : List (Path N × Node)) :
    ((p, n) :: names).lookup q = if q = p then some n else names.lookup q := by
  rw [List.lookup_cons]
  by_cases here : q = p
  · rw [beq_iff_eq.mpr here, if_pos here]
  · rw [beq_false_of_ne here, if_neg here]

theorem lookup_without (p q : Path N) (names : List (Path N × Node)) :
    (without p names).lookup q = if q = p then none else names.lookup q := by
  induction names with
  | nil => split <;> rfl
  | cons entry names ih =>
    obtain ⟨r, n⟩ := entry
    by_cases gone : r = p
    · have same : without p ((r, n) :: names) = without p names := by simp [without, gone]
      rw [same, ih, lookup_cons, gone]
      split <;> rfl
    · have kept : without p ((r, n) :: names) = (r, n) :: without p names := by simp [without, gone]
      rw [kept, lookup_cons, lookup_cons, ih]
      by_cases here : q = r
      · rw [if_pos here, if_neg (here ▸ gone), if_pos here]
      · rw [if_neg here, if_neg here]

theorem find_without {p : Path N} (inner : p ≠ []) (names : List (Path N × Node)) (q : Path N) :
    find (without p names) q = if q = p then none else find names q := by
  cases q with
  | nil => rw [if_neg inner.symm]; rfl
  | cons name parent => exact lookup_without p _ names

theorem find_cons {p : Path N} (inner : p ≠ []) (n : Node) (names : List (Path N × Node)) (q : Path N) :
    find ((p, n) :: names) q = if q = p then some n else find names q := by
  cases q with
  | nil => rw [if_neg inner.symm]; rfl
  | cons name parent =>
    exact lookup_cons p _ n names

namespace Volume

variable (v : Volume N β)

def node : Path N → Option Node := find v.names

@[simp] theorem node_root : v.node [] = some .dir := rfl

/-- What is in a directory, with the kind of each entry. -/
def children (p : Path N) : List (N × Node) :=
  v.names.filterMap fun entry =>
    match entry.1 with
    | [] => none
    | name :: parent => if parent = p then some (name, entry.2) else none

/-- A new name. -/
def link (name : N) (parent : Path N) (n : Node) (inside : v.node parent = some .dir)
    (free : v.node (name :: parent) = none) (own : ∀ k, n = .file k → k < v.next ∧ ∀ q, v.node q ≠ some (.file k)) :
    Volume N β where
  names := (name :: parent, n) :: v.names
  data := v.data
  next := v.next
  closed other up there := by
    have inner : name :: parent ≠ [] := List.cons_ne_nil _ _
    rw [find_cons inner] at there ⊢
    have above : v.node up = some .dir := by
      split at there
      · rename_i same
        cases same
        exact inside
      · exact v.closed other up there
    split
    · rename_i same
      rw [same, free] at above
      cases above
    · exact above
  unshared p q k here there := by
    have inner : name :: parent ≠ [] := List.cons_ne_nil _ _
    rw [find_cons inner] at here there
    split at here
    · rename_i first
      split at there
      · rename_i second
        exact first.trans second.symm
      · exact absurd there ((own k (Option.some.inj here)).2 q)
    · split at there
      · exact absurd here ((own k (Option.some.inj there)).2 p)
      · exact v.unshared p q k here there
  fresh p k here := by
    rw [find_cons (List.cons_ne_nil _ _)] at here
    split at here
    · exact (own k (Option.some.inj here)).1
    · exact v.fresh p k here

/-- A name is taken away from what has no entries. -/
def unname (name : N) (parent : Path N) (leaf : ∀ inner, v.node (inner :: name :: parent) = none) : Volume N β where
  names := without (name :: parent) v.names
  data := v.data
  next := v.next
  closed other up some := by
    have inner : name :: parent ≠ [] := List.cons_ne_nil _ _
    rw [find_without inner] at some ⊢
    split at some
    · cases some
    · have above := v.closed other up some
      split
      · rename_i same
        subst same
        have none : find v.names (other :: name :: parent) = Option.none := leaf other
        rw [none] at some
        cases some
      · exact above
  unshared p q k here there := by
    rw [find_without (List.cons_ne_nil _ _)] at here there
    split at here
    · cases here
    · split at there
      · cases there
      · exact v.unshared p q k here there
  fresh p k here := by
    rw [find_without (List.cons_ne_nil _ _)] at here
    split at here
    · cases here
    · exact v.fresh p k here

/-- One more file, which has no name yet. -/
def allot : Volume N β where
  names := v.names
  data := Function.update v.data v.next []
  next := v.next + 1
  closed := v.closed
  unshared := v.unshared
  fresh p k here := Nat.lt_succ_of_lt (v.fresh p k here)

def setData (k : Nat) (data : List β) : Volume N β where
  names := v.names
  data := Function.update v.data k data
  next := v.next
  closed := v.closed
  unshared := v.unshared
  fresh := v.fresh

variable {v}

theorem node_link {name : N} {parent : Path N} {n : Node} {inside free own} (r : Path N) :
    (v.link name parent n inside free own).node r = if r = name :: parent then some n else v.node r :=
  find_cons (List.cons_ne_nil _ _) n v.names r

theorem node_unname {name : N} {parent : Path N} {leaf} (r : Path N) :
    (v.unname name parent leaf).node r = if r = name :: parent then none else v.node r :=
  find_without (List.cons_ne_nil _ _) v.names r

/-- What is no directory has no entries. -/
theorem leaf_of {p : Path N} (other : v.node p ≠ some .dir) (inner : N) : v.node (inner :: p) = none := by
  cases below : v.node (inner :: p) with
  | none => rfl
  | some n => exact absurd (v.closed inner p (by rw [show find v.names (inner :: p) = some n from below]; rfl)) other

theorem leaf_of_children {p : Path N} (empty : v.children p = []) (inner : N) : v.node (inner :: p) = none := by
  cases below : v.names.lookup (inner :: p) with
  | none => exact below
  | some n =>
    obtain ⟨before, after, split, -⟩ := List.lookup_eq_some_iff.mp below
    have member : (inner, n) ∈ v.children p := by
      rw [children, split]
      simp
    rw [empty] at member
    cases member

/-! ### The operations -/

variable (v)

def mkdir : Path N → Except Errno (Volume N β)
  | [] => .error .exist
  | name :: parent =>
    match inside : v.node parent with
    | none => .error .noent
    | some (.file _) => .error .notDir
    | some .dir =>
      match free : v.node (name :: parent) with
      | some _ => .error .exist
      | none => .ok (v.link name parent .dir inside free fun _ same => by cases same)

/-- Open a file for writing from its beginning, and make it if it is not there. -/
def openWrite : Path N → Except Errno (Nat × Volume N β)
  | [] => .error .isDir
  | name :: parent =>
    match inside : v.node parent with
    | none => .error .noent
    | some (.file _) => .error .notDir
    | some .dir =>
      match free : v.node (name :: parent) with
      | some .dir => .error .isDir
      | some (.file k) => .ok (k, v.setData k [])
      | none => .ok (v.next, v.allot.link name parent (.file v.next) inside free fun _ same => by
          cases same
          exact ⟨Nat.lt_succ_self _, fun q here => Nat.lt_irrefl _ (v.fresh q _ here)⟩)

/-- Write at the end of an open file. -/
def write (k : Nat) (data : List β) : Volume N β := v.setData k (v.data k ++ data)

def openRead (p : Path N) : Except Errno Nat :=
  match v.node p with
  | none => .error .noent
  | some .dir => .error .isDir
  | some (.file k) => .ok k

def exists? (p : Path N) : Bool := (v.node p).isSome

def unlink : Path N → Except Errno (Volume N β)
  | [] => .error .isDir
  | name :: parent =>
    match here : v.node (name :: parent) with
    | none => .error .noent
    | some .dir => .error .isDir
    | some (.file _) => .ok (v.unname name parent (leaf_of (by rw [here]; exact fun same => by cases same)))

def rmdir : Path N → Except Errno (Volume N β)
  | [] => .error .notEmpty
  | name :: parent =>
    match v.node (name :: parent) with
    | none => .error .noent
    | some (.file _) => .error .notDir
    | some .dir =>
      if empty : v.children (name :: parent) = [] then .ok (v.unname name parent (leaf_of_children empty))
      else .error .notEmpty

/-- The file gets the name `b` in place of the name `a`, and what had the name loses it. -/
def move (a : N) (up : Path N) (b : N) (parent : Path N) (k : Nat) (here : v.node (a :: up) = some (.file k))
    (inside : v.node parent = some .dir) (other : v.node (b :: parent) ≠ some .dir) : Volume N β :=
  have first : ∀ inner, v.node (inner :: a :: up) = none := leaf_of (by rw [here]; exact fun same => by cases same)
  have second : ∀ inner, (v.unname a up first).node (inner :: b :: parent) = none := fun inner => by
    rw [node_unname, leaf_of other inner]
    split <;> rfl
  ((v.unname a up first).unname b parent second).link b parent (.file k)
    (by
      rw [node_unname, if_neg (List.cons_ne_self b parent).symm, node_unname, if_neg, inside]
      intro same
      rw [same, here] at inside
      cases inside)
    (by rw [node_unname, if_pos rfl])
    (fun j same => by
      cases same
      refine ⟨v.fresh _ _ here, fun q there => ?_⟩
      rw [node_unname, node_unname] at there
      split at there
      · cases there
      · split at there
        · cases there
        · rename_i apart
          exact apart (v.unshared _ _ _ there here))

/-- Rename a file. -/
def rename : Path N → Path N → Except Errno (Volume N β)
  | [], _ => .error .isDir
  | a :: up, q =>
    match here : v.node (a :: up) with
    | none => .error .noent
    | some .dir => .error .isDir
    | some (.file k) =>
      match q with
      | [] => .error .isDir
      | b :: parent =>
        match inside : v.node parent with
        | none => .error .noent
        | some (.file _) => .error .notDir
        | some .dir =>
          if other : v.node (b :: parent) = some .dir then .error .isDir
          else .ok (v.move a up b parent k here inside other)

variable {v} {v' : Volume N β} {p q : Path N} {k : Nat}

theorem node_move {a b : N} {up parent : Path N} {here inside other} (r : Path N) :
    (v.move a up b parent k here inside other).node r =
      if r = b :: parent then some (.file k) else if r = a :: up then none else v.node r := by
  rw [move, node_link, node_unname, node_unname]
  split <;> rfl

/-- The names are as before but for `p`. -/
structure Puts (v : Volume N β) (p : Path N) (n : Option Node) (v' : Volume N β) : Prop where
  node : ∀ r, v'.node r = if r = p then n else v.node r
  data : v'.data = v.data
  next : v'.next = v.next

theorem mkdir_ok (made : v.mkdir p = .ok v') : v.node p = none ∧ v.Puts p (some .dir) v' := by
  unfold mkdir at made
  split at made
  · cases made
  · split at made
    · cases made
    · cases made
    · split at made
      · cases made
      · rename_i free
        cases made
        exact ⟨free, node_link, rfl, rfl⟩

theorem openWrite_ok (opened : v.openWrite p = .ok (k, v')) :
    v.node p = some (.file k) ∧ v' = v.setData k [] ∨
      v.node p = none ∧ k = v.next ∧ (∀ r, v'.node r = if r = p then some (.file k) else v.node r) ∧
        v'.data = Function.update v.data k [] ∧ v'.next = v.next + 1 := by
  unfold openWrite at opened
  split at opened
  · cases opened
  · split at opened
    · cases opened
    · cases opened
    · split at opened
      · cases opened
      · rename_i here
        cases opened
        exact .inl ⟨here, rfl⟩
      · rename_i free
        cases opened
        exact .inr ⟨free, rfl, fun r => node_link r, rfl, rfl⟩

theorem openWrite_dir {name : N} {parent : Path N} (inside : v.node parent = some .dir)
    (other : v.node (name :: parent) ≠ some .dir) : ∃ k v', v.openWrite (name :: parent) = .ok (k, v') := by
  rw [openWrite]
  split
  · rename_i none
    rw [inside] at none
    cases none
  · rename_i file
    rw [inside] at file
    cases file
  · split
    · rename_i dir
      exact absurd dir other
    · exact ⟨_, _, rfl⟩
    · exact ⟨_, _, rfl⟩

theorem openRead_ok (opened : v.openRead p = .ok k) : v.node p = some (.file k) := by
  unfold openRead at opened
  split at opened
  · cases opened
  · cases opened
  · rename_i here
    cases opened
    exact here

theorem unlink_ok (gone : v.unlink p = .ok v') : v.Puts p none v' := by
  unfold unlink at gone
  split at gone
  · cases gone
  · split at gone
    · cases gone
    · cases gone
    · cases gone
      exact ⟨node_unname, rfl, rfl⟩

theorem rmdir_ok (gone : v.rmdir p = .ok v') : v.Puts p none v' := by
  unfold rmdir at gone
  split at gone
  · cases gone
  · split at gone
    · cases gone
    · cases gone
    · split at gone
      · cases gone
        exact ⟨node_unname, rfl, rfl⟩
      · cases gone

theorem rename_ok (moved : v.rename p q = .ok v') : ∃ k, v.node p = some (.file k) ∧
    (∀ r, v'.node r = if r = q then some (.file k) else if r = p then none else v.node r) ∧
    v'.data = v.data ∧ v'.next = v.next := by
  unfold rename at moved
  split at moved
  · cases moved
  · split at moved
    · cases moved
    · cases moved
    · rename_i k here
      split at moved
      · cases moved
      · split at moved
        · cases moved
        · cases moved
        · split at moved
          · cases moved
          · cases moved
            exact ⟨k, here, node_move, rfl, rfl⟩

/-- Within a directory, a file that is there can be renamed. -/
theorem rename_file {a b : N} {parent : Path N} (here : v.node (a :: parent) = some (.file k))
    (other : v.node (b :: parent) ≠ some .dir) : ∃ v', v.rename (a :: parent) (b :: parent) = .ok v' := by
  have inside : v.node parent = some .dir :=
    v.closed a parent (by rw [show find v.names (a :: parent) = some (.file k) from here]; rfl)
  rw [rename]
  split
  · rename_i none
    rw [here] at none
    cases none
  · rename_i dir
    rw [here] at dir
    cases dir
  · dsimp only
    split
    · rename_i none
      rw [inside] at none
      cases none
    · rename_i file
      rw [inside] at file
      cases file
    · rw [dif_neg other]
      exact ⟨_, rfl⟩

theorem rename_none {a : N} {up : Path N} (none : v.node (a :: up) = none) : v.rename (a :: up) q = .error .noent := by
  rw [rename]
  split
  · rfl
  · rename_i dir
    rw [none] at dir
    cases dir
  · rename_i file
    rw [none] at file
    cases file

end Volume
end Files
