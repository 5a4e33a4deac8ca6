import Mathlib.Data.List.TakeWhile

namespace MonkeyOcr

section

variable {α : Type*} (space : α → Bool)

/-- What is left between the spaces at both ends of a text. -/
def trim (text : List α) : List α := ((text.dropWhile space).reverse.dropWhile space).reverse

/-- `unicode.IsSpace` of Go. -/
def goSpace (c : Char) : Bool :=
  let n := c.toNat
  (9 ≤ n && n ≤ 13) || n = 32 || n = 0x85 || n = 0xA0 || n = 0x1680 || (0x2000 ≤ n && n ≤ 0x200A) || n = 0x2028 ||
    n = 0x2029 || n = 0x202F || n = 0x205F || n = 0x3000

/-- `strings.TrimSpace` -/
def trimSpace (text : String) : String := String.ofList (trim goSpace text.toList)

theorem trim_eq_nil {text : List α} : trim space text = [] ↔ ∀ c ∈ text, space c := by
  simp only [trim, List.reverse_eq_nil_iff, List.dropWhile_eq_nil_iff, List.mem_reverse]
  constructor
  · intro inner c member
    by_contra blank
    have split := List.takeWhile_append_dropWhile (p := space) (l := text)
    rw [← split] at member
    rcases List.mem_append.mp member with front | back
    · exact blank (List.mem_takeWhile_imp front)
    · exact blank (inner c back)
  · intro all c member
    exact all c ((List.dropWhile_sublist space).mem member)

theorem trimSpace_eq_empty {text : String} : trimSpace text = "" ↔ ∀ c ∈ text.toList, goSpace c := by
  rw [← trim_eq_nil goSpace, trimSpace]
  constructor
  · intro empty
    have lists := congrArg String.toList empty
    simpa using lists
  · intro empty
    rw [empty]

end

end MonkeyOcr
