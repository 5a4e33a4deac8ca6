import Mathlib.Data.List.Basic
import Mathlib.Data.List.Infix
import Mathlib.Data.List.TakeWhile

namespace MonkeyOcr

namespace Bytes

def utf8Char (c : Char) : List (BitVec 8) := (String.utf8EncodeChar c).map UInt8.toBitVec

/-- The bytes of a text in UTF-8. -/
def utf8 (text : String) : List (BitVec 8) := text.toList.flatMap utf8Char

/-- The text of bytes in Latin-1. -/
def latin1 (bytes : List (BitVec 8)) : String := String.ofList (bytes.map fun b => Char.ofNat b.toNat)

/-- The two bytes of a character from U+0080 to U+00FF. -/
def high (b : BitVec 8) : BitVec 8 := 0xC0 ||| (b >>> 6)

def low (b : BitVec 8) : BitVec 8 := 0x80 ||| (b &&& 0x3F)

/-- Bytes that were read as Latin-1 and written as UTF-8. -/
def recoded (bytes : List (BitVec 8)) : List (BitVec 8) := bytes.flatMap fun b => if b < 128 then [b] else [high b, low b]

/-- The word that recoding repeats, byte by byte. -/
def echoByte (n : Nat) : BitVec 8 :=
  if n = 0 then 0xC3 else if n % 2 = 0 then high (echoByte (n / 2)) else low (echoByte (n / 2))
termination_by n

def echo (length : Nat) : List (BitVec 8) := (List.range length).map echoByte

theorem utf8_latin1 (bytes : List (BitVec 8)) : utf8 (latin1 bytes) = recoded bytes := by
  have each : ∀ n < 256, utf8Char (Char.ofNat n) =
      if BitVec.ofNat 8 n < 128 then [BitVec.ofNat 8 n] else [high (BitVec.ofNat 8 n), low (BitVec.ofNat 8 n)] := by
    decide +kernel
  rw [utf8, latin1, String.toList_ofList, List.flatMap_map, recoded]
  apply List.flatMap_congr
  intro b _
  rw [each b.toNat b.isLt, BitVec.ofNat_toNat, BitVec.setWidth_eq]

theorem recoded_append (first second : List (BitVec 8)) : recoded (first ++ second) = recoded first ++ recoded second :=
  List.flatMap_append

theorem recoded_wide {b : BitVec 8} (wide : ¬ b < 128) (rest : List (BitVec 8)) :
    recoded (b :: rest) = high b :: low b :: recoded rest := by
  change (if b < 128 then [b] else [high b, low b]) ++ recoded rest = _
  rw [if_neg wide]
  rfl

theorem recoded_ascii {bytes : List (BitVec 8)} (ascii : ∀ b ∈ bytes, b < 128) : recoded bytes = bytes := by
  induction bytes with
  | nil => rfl
  | cons b rest ih =>
    have here := ascii b List.mem_cons_self
    have later := ih fun c member => ascii c (List.mem_cons_of_mem b member)
    change (if b < 128 then [b] else [high b, low b]) ++ recoded rest = b :: rest
    rw [if_pos here, later]
    rfl

theorem high_wide : ∀ b : BitVec 8, ¬ high b < 128 := by decide

theorem low_wide : ∀ b : BitVec 8, ¬ low b < 128 := by decide

theorem echoByte_wide (n : Nat) : ¬ echoByte n < 128 := by
  unfold echoByte
  split
  · decide
  · split
    · exact high_wide _
    · exact low_wide _

theorem echoByte_double (n : Nat) : echoByte (2 * n) = high (echoByte n) := by
  by_cases zero : n = 0
  · subst zero
    simp only [Nat.mul_zero]
    unfold echoByte
    decide
  · have halves : 2 * n / 2 = n := by omega
    rw [echoByte, if_neg (by omega), if_pos (by omega), halves]

theorem echoByte_succ (n : Nat) : echoByte (2 * n + 1) = low (echoByte n) := by
  have halves : (2 * n + 1) / 2 = n := by omega
  rw [echoByte, if_neg (by omega), if_neg (by omega), halves]

theorem echo_succ (n : Nat) : echo (n + 1) = echo n ++ [echoByte n] := by simp [echo, List.range_succ]

theorem length_echo (n : Nat) : (echo n).length = n := by simp [echo]

theorem take_echo {m n : Nat} (less : m ≤ n) : (echo n).take m = echo m := by
  simp [echo, ← List.map_take, List.take_range, Nat.min_eq_left less]

/-- The word is twice as long after recoding, and begins alike. -/
theorem recoded_echo (n : Nat) : recoded (echo n) = echo (2 * n) := by
  induction n with
  | zero => rfl
  | succ n ih =>
    have last : recoded [echoByte n] = [echoByte (2 * n), echoByte (2 * n + 1)] := by
      rw [echoByte_double, echoByte_succ]
      exact recoded_wide (echoByte_wide n) []
    have twice : 2 * (n + 1) = 2 * n + 1 + 1 := by omega
    rw [echo_succ, recoded_append, ih, last, twice, echo_succ, echo_succ, List.append_assoc]
    rfl

/-- Bytes that recoding only continues are the word, if they begin beyond ASCII. -/
theorem eq_echo_of_prefix {b : BitVec 8} {rest : List (BitVec 8)} (wide : ¬ b < 128)
    (continues : b :: rest <+: recoded (b :: rest)) : b :: rest = echo (b :: rest).length := by
  have same : ∀ n ≤ (b :: rest).length, (b :: rest).take n = (recoded (b :: rest)).take n := by
    intro n less
    have whole := List.prefix_iff_eq_take.mp continues
    calc (b :: rest).take n = ((recoded (b :: rest)).take (b :: rest).length).take n := by rw [← whole]
      _ = (recoded (b :: rest)).take n := by rw [List.take_take, Nat.min_eq_left less]
  have steps : ∀ n, 1 ≤ n → n ≤ (b :: rest).length → (b :: rest).take n = echo n := by
    intro n some'
    induction n, some' using Nat.le_induction with
    | base =>
      intro less
      have first := same 1 less
      simp only [recoded_wide wide, List.take_succ_cons, List.take_zero, List.cons.injEq, and_true] at first
      have fixed : ∀ c : BitVec 8, ¬ c < 128 → c = high c → c = 0xC3 := by decide
      rw [List.take_succ_cons, List.take_zero, fixed b wide first]
      simp [echo, echoByte]
    | succ n positive ih =>
      intro less
      have before := ih (by omega)
      have split := List.take_append_drop n (b :: rest)
      rw [before] at split
      rw [same (n + 1) less, ← split, recoded_append, recoded_echo,
        List.take_append_of_le_length (by rw [length_echo]; omega), take_echo (by omega)]
  rw [← steps (b :: rest).length (by simp) le_rfl, List.take_length]

/-- The code points `unicode.IsSpace` takes. -/
def spaceCodes : List Nat :=
  [9, 10, 11, 12, 13, 32, 0x85, 0xA0, 0x1680] ++ List.range' 0x2000 11 ++ [0x2028, 0x2029, 0x202F, 0x205F, 0x3000]

def spaces : List (List (BitVec 8)) := spaceCodes.map fun code => utf8Char (Char.ofNat code)

/-- Drop codes from the front as long as there is one. -/
def strip (codes : List (List (BitVec 8))) : Nat → List (BitVec 8) → List (BitVec 8)
  | 0, bytes => bytes
  | fuel + 1, bytes =>
    match codes.find? fun code => code.isPrefixOf bytes with
    | some code => strip codes fuel (bytes.drop code.length)
    | none => bytes

/-- `strings.TrimSpace` of a string that need not be UTF-8. -/
def trimSpace (bytes : List (BitVec 8)) : List (BitVec 8) :=
  let front := strip spaces bytes.length bytes
  (strip (spaces.map List.reverse) front.length front.reverse).reverse

/-- No space stands at either end. -/
def Trimmed (bytes : List (BitVec 8)) : Prop := ∀ code ∈ spaces, ¬ code <+: bytes ∧ ¬ code <:+ bytes

theorem strip_suffix (codes : List (List (BitVec 8))) (fuel : Nat) (bytes : List (BitVec 8)) :
    strip codes fuel bytes <:+ bytes := by
  induction fuel generalizing bytes with
  | zero => exact List.suffix_rfl
  | succ fuel ih =>
    unfold strip
    split
    · exact (ih _).trans (List.drop_suffix _ bytes)
    · exact List.suffix_rfl

/-- With as much fuel as there are bytes nothing is left to drop. -/
theorem strip_done {codes : List (List (BitVec 8))} (nonempty : ∀ code ∈ codes, code ≠ []) {fuel : Nat}
    {bytes : List (BitVec 8)} (enough : bytes.length ≤ fuel) : ∀ code ∈ codes, ¬ code <+: strip codes fuel bytes := by
  induction fuel generalizing bytes with
  | zero =>
    intro code member front
    have empty := List.eq_nil_of_length_eq_zero (Nat.le_zero.mp enough)
    rw [strip, empty, List.prefix_nil] at front
    exact nonempty code member front
  | succ fuel ih =>
    unfold strip
    split
    · rename_i code found
      apply ih
      have positive := List.length_pos_iff.mpr (nonempty code (List.mem_of_find?_eq_some found))
      rw [List.length_drop]
      omega
    · rename_i absent
      intro code member front
      have refused := List.find?_eq_none.mp absent code member
      exact refused (List.isPrefixOf_iff_prefix.mpr front)

theorem strip_eq_self {codes : List (List (BitVec 8))} {bytes : List (BitVec 8)}
    (done : ∀ code ∈ codes, ¬ code <+: bytes) (fuel : Nat) : strip codes fuel bytes = bytes := by
  cases fuel with
  | zero => rfl
  | succ fuel =>
    have absent : codes.find? (fun code => code.isPrefixOf bytes) = none := by
      rw [List.find?_eq_none]
      intro code member front
      exact done code member (List.isPrefixOf_iff_prefix.mp front)
    simp only [strip, absent]

theorem spaces_ne_nil : ∀ code ∈ spaces, code ≠ [] := by decide +kernel

theorem trimSpace_of_trimmed {bytes : List (BitVec 8)} (trimmed : Trimmed bytes) : trimSpace bytes = bytes := by
  have front : strip spaces bytes.length bytes = bytes := strip_eq_self (fun code member => (trimmed code member).1) _
  have back : ∀ code ∈ spaces.map List.reverse, ¬ code <+: bytes.reverse := by
    intro code member
    obtain ⟨space, inSpaces, rfl⟩ := List.mem_map.mp member
    rw [List.reverse_prefix]
    exact (trimmed space inSpaces).2
  rw [trimSpace, front]
  simp only [strip_eq_self back, List.reverse_reverse]

theorem trimmed_trimSpace (bytes : List (BitVec 8)) : Trimmed (trimSpace bytes) := by
  have nonempty : ∀ code ∈ spaces.map List.reverse, code ≠ [] := by
    intro code member
    obtain ⟨space, inSpaces, rfl⟩ := List.mem_map.mp member
    simpa using spaces_ne_nil space inSpaces
  have front := strip_done spaces_ne_nil (le_refl bytes.length)
  generalize fronted : strip spaces bytes.length bytes = text at front
  have back := strip_done nonempty (le_of_eq text.length_reverse)
  intro code member
  constructor
  · intro begins
    have kept : (strip (spaces.map List.reverse) text.length text.reverse).reverse <+: text := by
      have suffix := strip_suffix (spaces.map List.reverse) text.length text.reverse
      rw [← List.reverse_prefix, List.reverse_reverse] at suffix
      exact suffix
    have whole : code <+: text := by
      rw [trimSpace, fronted] at begins
      exact begins.trans kept
    exact front code member whole
  · intro ends
    rw [trimSpace, fronted, ← List.reverse_prefix, List.reverse_reverse] at ends
    exact back code.reverse (List.mem_map_of_mem member) ends

/-- Visible ASCII at both ends is no space. -/
theorem trimmed_of_visible {bytes : List (BitVec 8)} (visible : ∀ b ∈ bytes, 32 < b ∧ b < 128) : Trimmed bytes := by
  have ends : ∀ code ∈ spaces, (∃ b ∈ code.head?, ¬ (32 < b ∧ b < 128)) ∧ ∃ b ∈ code.getLast?, ¬ (32 < b ∧ b < 128) := by
    decide +kernel
  intro code member
  obtain ⟨⟨first, atFirst, odd⟩, last, atLast, odd'⟩ := ends code member
  constructor
  · intro front
    exact odd (visible first (front.mem (List.mem_of_mem_head? atFirst)))
  · intro back
    exact odd' (visible last (back.mem (List.mem_of_mem_getLast? atLast)))

end Bytes

end MonkeyOcr
