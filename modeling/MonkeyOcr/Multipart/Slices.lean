import Mathlib.Data.List.Pairwise
import Mathlib.Data.List.Sort

namespace MonkeyOcr

namespace Slices

variable {α : Type*}

/-- How many slices of the given width cover a length. -/
def count (length width : Nat) : Nat := (length + width - 1) / width

/-- The slice at an index, which is shorter than the others where the list ends. -/
def slice (list : List α) (width index : Nat) : List α := (list.drop (index * width)).take width

theorem le_count_mul {length width : Nat} (positive : 0 < width) : length ≤ count length width * width := by
  have below := Nat.lt_div_mul_add (a := length + width - 1) positive
  unfold count
  omega

theorem mul_lt_length {length width index : Nat} (inside : index < count length width) :
    index * width < length := by
  have upper := Nat.div_mul_le_self (length + width - 1) width
  have step := Nat.mul_le_mul_right width (Nat.succ_le_of_lt inside)
  have next := Nat.succ_mul index width
  unfold count at step
  by_cases empty : width = 0
  · simp [count, empty] at inside
  · omega

/-- The slices in order give the list back. -/
theorem flatMap_slice (list : List α) {width : Nat} (positive : 0 < width) :
    (List.range (count list.length width)).flatMap (slice list width) = list := by
  have upTo : ∀ n, (List.range n).flatMap (slice list width) = list.take (n * width) := by
    intro n
    induction n with
    | zero => simp
    | succ n ih => rw [List.range_succ, List.flatMap_append, ih, Nat.succ_mul, List.take_add]; simp [slice]
  rw [upTo, List.take_of_length_le (le_count_mul positive)]

theorem slice_ne_nil {list : List α} {width index : Nat} (positive : 0 < width)
    (inside : index < count list.length width) : slice list width index ≠ [] := by
  have before := mul_lt_length inside
  rw [← List.length_pos_iff]
  simp only [slice, List.length_take, List.length_drop]
  omega

theorem length_slice_le (list : List α) (width index : Nat) : (slice list width index).length ≤ width := by
  simp [slice]

end Slices

/-- However a sort treats equal keys, it restores a list whose keys increase. -/
theorem mergeSort_eq_of_perm {α : Type*} {le : α → α → Bool} {list sorted : List α}
    (trans : ∀ a b c, le a b → le b c → le a c) (total : ∀ a b, (le a b || le b a) = true)
    (strict : sorted.Pairwise fun a b => le a b = true ∧ le b a = false) (same : list.Perm sorted) :
    list.mergeSort le = sorted := by
  have ordered := List.pairwise_mergeSort trans total list
  have increasing : sorted.Pairwise fun a b => le a b = true := strict.imp And.left
  have perm := (List.mergeSort_perm list le).trans same
  apply perm.eq_of_pairwise _ ordered increasing
  intro a b atSort atSorted below above
  by_contra different
  have inOrder : sorted.Pairwise fun a b => ¬ (le a b ∧ le b a) :=
    strict.imp fun apart both => by simp [apart.2] at both
  have : Std.Symm fun a b => ¬ (le a b = true ∧ le b a = true) := { symm _ _ apart both := apart both.symm }
  exact inOrder.forall (same.mem_iff.mp ((List.mergeSort_perm list le).mem_iff.mp atSort)) atSorted different
    ⟨below, above⟩

end MonkeyOcr
