import Mathlib.Data.String.Basic
import MonkeyOcr.Codec.Reader

/-! Objects as maps: the order of their members does not matter, and a map is written by
its keys in order. -/

namespace Codec

namespace Json

/-- A new entry of a map in order, in place of an old one of its key. -/
def insertKey (key : String) (value : Json) : List (String × Json) → List (String × Json)
  | [] => [(key, value)]
  | entry :: rest =>
    if key < entry.1 then (key, value) :: entry :: rest
    else if key = entry.1 then (key, value) :: rest
    else entry :: insertKey key value rest

mutual
/-- The value with its maps in order. -/
def normal : Json → Json
  | .arr items => .arr (normalItems items)
  | .obj members => .obj (normalMembers [] members)
  | .null => .null
  | .bool value => .bool value
  | .int value => .int value
  | .float literal => .float literal
  | .str value => .str value
def normalItems : List Json → List Json
  | [] => []
  | item :: rest => normal item :: normalItems rest
def normalMembers (map : List (String × Json)) : List (String × Json) → List (String × Json)
  | [] => map
  | (key, value) :: rest => normalMembers (insertKey key (normal value) map) rest
end

mutual
/-- Every map is in order. -/
def Ordered : Json → Prop
  | .arr items => OrderedItems items
  | .obj members => OrderedMembers members
  | .null | .bool _ | .int _ | .float _ | .str _ => True
def OrderedItems : List Json → Prop
  | [] => True
  | item :: rest => Ordered item ∧ OrderedItems rest
def OrderedMembers : List (String × Json) → Prop
  | [] => True
  | (key, value) :: rest => Ordered value ∧ (∀ later ∈ rest, key < later.1) ∧ OrderedMembers rest
end

theorem mem_insertKey {key : String} {value : Json} {map : List (String × Json)} {entry : String × Json}
    (member : entry ∈ insertKey key value map) : entry = (key, value) ∨ entry ∈ map := by
  induction map with
  | nil => exact .inl (List.mem_singleton.mp member)
  | cons first rest ih =>
    rw [insertKey] at member
    split at member
    · exact List.mem_cons.mp member
    · split at member
      · rcases List.mem_cons.mp member with new | old
        · exact .inl new
        · exact .inr (List.mem_cons_of_mem _ old)
      · rcases List.mem_cons.mp member with here | later
        · exact .inr (here ▸ List.mem_cons_self)
        · exact (ih later).imp_right (List.mem_cons_of_mem _)

theorem orderedMembers_insertKey {key : String} {value : Json} {map : List (String × Json)} (ordered : value.Ordered)
    (before : OrderedMembers map) : OrderedMembers (insertKey key value map) := by
  induction map with
  | nil => exact ⟨ordered, fun _ member => absurd member List.not_mem_nil, trivial⟩
  | cons first rest ih =>
    obtain ⟨k, v⟩ := first
    obtain ⟨own, above, later⟩ := before
    rw [insertKey]
    split
    · rename_i less
      refine ⟨ordered, fun entry member => ?_, own, above, later⟩
      rcases List.mem_cons.mp member with rfl | deeper
      · exact less
      · exact less.trans (above entry deeper)
    · rename_i greater
      split
      · rename_i same
        exact ⟨ordered, fun entry member => same ▸ above entry member, later⟩
      · rename_i other
        refine ⟨own, fun entry member => ?_, ih later⟩
        rcases mem_insertKey member with rfl | old
        · exact lt_of_le_of_ne (not_lt.mp greater) (Ne.symm other)
        · exact above entry old

/-- The greatest key is the last one. -/
theorem insertKey_last {key : String} {value : Json} {map : List (String × Json)} (less : ∀ entry ∈ map, entry.1 < key) :
    insertKey key value map = map ++ [(key, value)] := by
  induction map with
  | nil => rfl
  | cons first rest ih =>
    have here := less first List.mem_cons_self
    rw [insertKey, if_neg (lt_asymm here), if_neg (ne_of_gt here), ih fun entry member =>
      less entry (List.mem_cons_of_mem _ member)]
    rfl

mutual
theorem normal_ordered : ∀ value : Json, value.normal.Ordered
  | .arr items => normalItems_ordered items
  | .obj members => @normalMembers_ordered [] trivial members
  | .null | .bool _ | .int _ | .float _ | .str _ => trivial
theorem normalItems_ordered : ∀ items : List Json, OrderedItems (normalItems items)
  | [] => trivial
  | item :: rest => ⟨normal_ordered item, normalItems_ordered rest⟩
theorem normalMembers_ordered {map : List (String × Json)} (before : OrderedMembers map) :
    ∀ members, OrderedMembers (normalMembers map members)
  | [] => before
  | (_, value) :: rest => normalMembers_ordered (orderedMembers_insertKey (normal_ordered value) before) rest
end

mutual
/-- What is in order stays as it is. -/
theorem normal_of_ordered : ∀ value : Json, value.Ordered → value.normal = value
  | .arr items, ordered => congrArg Json.arr (normalItems_of_ordered items ordered)
  | .obj members, ordered =>
    congrArg Json.obj (normalMembers_of_ordered [] members (fun _ none => absurd none List.not_mem_nil) ordered)
  | .null, _ | .bool _, _ | .int _, _ | .float _, _ | .str _, _ => rfl
theorem normalItems_of_ordered : ∀ items : List Json, OrderedItems items → normalItems items = items
  | [], _ => rfl
  | item :: rest, ⟨here, later⟩ => by
    rw [normalItems, normal_of_ordered item here, normalItems_of_ordered rest later]
theorem normalMembers_of_ordered (map : List (String × Json)) : ∀ members : List (String × Json),
    (∀ first ∈ map, ∀ later ∈ members, first.1 < later.1) → OrderedMembers members →
      normalMembers map members = map ++ members
  | [], _, _ => (List.append_nil map).symm
  | (key, value) :: rest, less, ⟨here, above, later⟩ => by
    have last : insertKey key value map = map ++ [(key, value)] :=
      insertKey_last fun entry member => less entry member _ List.mem_cons_self
    have less' : ∀ first ∈ map ++ [(key, value)], ∀ later ∈ rest, first.1 < later.1 := by
      intro first member entry among
      rcases List.mem_append.mp member with old | new
      · exact less first old entry (List.mem_cons_of_mem _ among)
      · rw [List.mem_singleton.mp new]
        exact above entry among
    rw [normalMembers, normal_of_ordered value here, last, normalMembers_of_ordered _ rest less' later, List.append_assoc,
      List.singleton_append]
end

theorem normal_normal (value : Json) : value.normal.normal = value.normal :=
  normal_of_ordered _ (normal_ordered value)

theorem literalsMembers_insertKey {key : String} {value : Json} {map : List (String × Json)} (literals : value.Literals)
    (before : LiteralsMembers map) : LiteralsMembers (insertKey key value map) := by
  induction map with
  | nil => exact ⟨literals, trivial⟩
  | cons first rest ih =>
    obtain ⟨own, later⟩ := before
    rw [insertKey]
    split
    · exact ⟨literals, own, later⟩
    · split
      · exact ⟨literals, later⟩
      · exact ⟨own, ih later⟩

mutual
theorem normal_literals : ∀ value : Json, value.Literals → value.normal.Literals
  | .arr items, literals => normalItems_literals items literals
  | .obj members, literals => @normalMembers_literals [] trivial members literals
  | .null, literals | .bool _, literals | .int _, literals | .float _, literals | .str _, literals => literals
theorem normalItems_literals : ∀ items : List Json, LiteralsItems items → LiteralsItems (normalItems items)
  | [], _ => trivial
  | item :: rest, ⟨here, later⟩ => ⟨normal_literals item here, normalItems_literals rest later⟩
theorem normalMembers_literals {map : List (String × Json)} (before : LiteralsMembers map) :
    ∀ members, LiteralsMembers members → LiteralsMembers (normalMembers map members)
  | [], _ => before
  | (_, value) :: rest, ⟨here, later⟩ =>
    normalMembers_literals (literalsMembers_insertKey (normal_literals value here) before) rest later
end

end Json

end Codec
