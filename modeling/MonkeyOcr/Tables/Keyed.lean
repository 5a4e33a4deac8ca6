import Mathlib.Data.List.Nodup

namespace Tables

variable {α : Type}

/-- `INSERT ... ON CONFLICT (key) DO UPDATE` on rows kept in the order of
their key. -/
def upsert (key : α → Nat) (row : α) : List α → List α
  | [] => [row]
  | old :: rest =>
    if key row < key old then row :: old :: rest
    else if key row = key old then row :: rest
    else old :: upsert key row rest

def upsertAll (key : α → Nat) (rows new : List α) : List α :=
  new.foldl (fun rows row => upsert key row rows) rows

/-- The rows are in the order of their key, and no two share one. -/
def Sorted (key : α → Nat) (rows : List α) : Prop := rows.Pairwise fun a b => key a < key b

def find (key : α → Nat) (rows : List α) (k : Nat) : Option α := rows.find? fun row => key row == k

variable {key : α → Nat} {rows new : List α} {row : α}

theorem mem_upsert {other : α} (member : other ∈ upsert key row rows) : other = row ∨ other ∈ rows := by
  induction rows with
  | nil => exact .inl (List.mem_singleton.mp member)
  | cons old rest ih =>
    simp only [upsert] at member
    split at member
    · exact (List.mem_cons.mp member).imp_right id
    · split at member
      · exact (List.mem_cons.mp member).imp_right (List.mem_cons_of_mem _)
      · rcases List.mem_cons.mp member with rfl | later
        · exact .inr List.mem_cons_self
        · exact (ih later).imp_right (List.mem_cons_of_mem _)

/-- No two rows share a key. -/
theorem Sorted.unique {other : α} (sorted : Sorted key rows) (here : row ∈ rows) (there : other ∈ rows)
    (same : key row = key other) : row = other := by
  have distinct : (rows.map key).Nodup := List.pairwise_map.mpr (sorted.imp fun below => Nat.ne_of_lt below)
  exact List.inj_on_of_nodup_map distinct here there same

theorem Sorted.upsert (sorted : Sorted key rows) : Sorted key (upsert key row rows) := by
  induction rows with
  | nil => exact List.pairwise_singleton _ _
  | cons old rest ih =>
    have ⟨first, tail⟩ := List.pairwise_cons.mp sorted
    simp only [Tables.upsert]
    split
    · rename_i before
      refine List.pairwise_cons.mpr ⟨fun other member => ?_, sorted⟩
      rcases List.mem_cons.mp member with rfl | later
      · exact before
      · exact Nat.lt_trans before (first other later)
    · split
      · rename_i same
        exact List.pairwise_cons.mpr ⟨fun other member => same ▸ first other member, tail⟩
      · refine List.pairwise_cons.mpr ⟨fun other member => ?_, ih tail⟩
        rcases mem_upsert member with rfl | later
        · omega
        · exact first other later

theorem Sorted.upsertAll (sorted : Sorted key rows) : Sorted key (upsertAll key rows new) := by
  induction new generalizing rows with
  | nil => exact sorted
  | cons row rest ih => exact ih sorted.upsert

theorem find_cons (old : α) (k : Nat) :
    find key (old :: rows) k = if key old = k then some old else find key rows k := by
  by_cases same : key old = k
  · rw [find, List.find?_cons_of_pos (by simpa using same), if_pos same]
  · rw [find, List.find?_cons_of_neg (by simpa using same), if_neg same]
    rfl

theorem find_upsert (k : Nat) :
    find key (upsert key row rows) k = if key row = k then some row else find key rows k := by
  induction rows with
  | nil => rw [upsert, find_cons]
  | cons old rest ih =>
    simp only [upsert]
    split
    · rw [find_cons]
    · split
      · rename_i same
        rw [find_cons, find_cons, same]
        split <;> rfl
      · rename_i different
        rw [find_cons, find_cons, ih]
        split
        · rw [if_neg (by omega)]
        · rfl

theorem find_eq_none {k : Nat} (absent : ∀ row ∈ rows, key row ≠ k) : find key rows k = none := by
  refine List.find?_eq_none.mpr fun row member => ?_
  simpa using absent row member

/-- Ordered rows are determined by their lookups. -/
theorem Sorted.ext {other : List α} (left : Sorted key rows) (right : Sorted key other)
    (same : ∀ k, find key rows k = find key other k) : rows = other := by
  induction rows generalizing other with
  | nil => cases other with
    | nil => rfl
    | cons b rest => simpa [find] using same (key b)
  | cons a rest ih => cases other with
    | nil => simpa [find] using same (key a)
    | cons b rest' =>
      have ⟨first, tail⟩ := List.pairwise_cons.mp left
      have ⟨first', tail'⟩ := List.pairwise_cons.mp right
      have head : key a = key b := by
        have atA := same (key a)
        have atB := same (key b)
        rw [find_cons, if_pos rfl] at atA
        rw [find_cons b, if_pos rfl] at atB
        rcases Nat.lt_trichotomy (key a) (key b) with less | equal | more
        · rw [find_eq_none fun row member => ?_] at atA
          · cases atA
          · rcases List.mem_cons.mp member with rfl | later
            · omega
            · have := first' row later; omega
        · exact equal
        · rw [find_eq_none fun row member => ?_] at atB
          · cases atB
          · rcases List.mem_cons.mp member with rfl | later
            · omega
            · have := first row later; omega
      have value := same (key a)
      rw [find_cons, find_cons, if_pos rfl, if_pos head.symm] at value
      cases Option.some.inj value
      refine congrArg (a :: ·) (ih tail tail' fun k => ?_)
      by_cases here : key a = k
      · rw [find_eq_none fun row member => ?_, find_eq_none fun row member => ?_]
        · have := first' row member; omega
        · have := first row member; omega
      · have := same k
        rwa [find_cons, find_cons, if_neg here, if_neg here] at this

theorem find_upsertAll (sorted : Sorted key new) (k : Nat) :
    find key (upsertAll key rows new) k = (find key new k).or (find key rows k) := by
  induction new generalizing rows with
  | nil => rfl
  | cons row rest ih =>
    have ⟨first, tail⟩ := List.pairwise_cons.mp sorted
    change find key (upsertAll key (upsert key row rows) rest) k = _
    rw [ih tail, find_upsert]
    rw [find_cons]
    split
    · have later : find key rest k = none :=
        find_eq_none fun other member => by have := first other member; omega
      rw [later]
      rfl
    · rfl

/-- An upsert of rows that cover all stored keys replaces the table. -/
theorem upsertAll_of_covers (sorted : Sorted key rows) (sortedNew : Sorted key new)
    (covers : ∀ row ∈ rows, ∃ other ∈ new, key other = key row) : upsertAll key rows new = new := by
  refine sorted.upsertAll.ext sortedNew fun k => ?_
  rw [find_upsertAll sortedNew]
  cases found : find key new k with
  | some row => rfl
  | none =>
    refine find_eq_none fun row member same => ?_
    obtain ⟨other, memberNew, equal⟩ := covers row member
    exact absurd (List.find?_eq_none.mp found other memberNew) (by simp [equal, same])

end Tables
