import Mathlib
import MonkeyOcr.Text.Bytes

namespace Codec.Percent

open MonkeyOcr (Bytes.utf8)

/-- The bytes that are escaped in a path. -/
def shouldEscape (c : BitVec 8) : Bool :=
  ¬ ((97 ≤ c ∧ c ≤ 122) ∨ (65 ≤ c ∧ c ≤ 90) ∨ (48 ≤ c ∧ c ≤ 57) ∨ (Bytes.utf8 "-_.~$&+,/:;=@").contains c)

def upperHex (n : Nat) : BitVec 8 := if n < 10 then BitVec.ofNat 8 (48 + n) else BitVec.ofNat 8 (55 + n)

def escapeByte (c : BitVec 8) : List (BitVec 8) :=
  if shouldEscape c then [37, upperHex (c.toNat / 16), upperHex (c.toNat % 16)] else [c]

def escape (path : List (BitVec 8)) : List (BitVec 8) := path.flatMap escapeByte

def unhex? (c : BitVec 8) : Option Nat :=
  if 48 ≤ c ∧ c ≤ 57 then some (c.toNat - 48)
  else if 97 ≤ c ∧ c ≤ 102 then some (c.toNat - 87)
  else if 65 ≤ c ∧ c ≤ 70 then some (c.toNat - 55)
  else none

def unescape : List (BitVec 8) → Option (List (BitVec 8))
  | [] => some []
  | 37 :: high :: low :: rest =>
    match unhex? high, unhex? low with
    | some high, some low => (unescape rest).map (BitVec.ofNat 8 (high * 16 + low) :: ·)
    | _, _ => none
  | c :: rest => if c = 37 then none else (unescape rest).map (c :: ·)

/-- Whether a text may stand for an escaped path. -/
def validEncoded (text : List (BitVec 8)) : Bool :=
  text.all fun c => (Bytes.utf8 "!$&'()*+,;=:@[]%").contains c || !shouldEscape c

theorem unhex?_upperHex : ∀ n < 16, unhex? (upperHex n) = some n := by decide

theorem unescape_cons {c : BitVec 8} (plain : c ≠ 37) (rest : List (BitVec 8)) :
    unescape (c :: rest) = (unescape rest).map (c :: ·) := by
  rw [unescape.eq_def]
  split
  · contradiction
  · rename_i same
    exact absurd (List.cons.inj same).1 plain
  · rename_i same
    cases same
    exact if_neg plain

theorem unescape_escapeByte (c : BitVec 8) (rest : List (BitVec 8)) :
    unescape (escapeByte c ++ rest) = (unescape rest).map (c :: ·) := by
  have below := c.isLt
  unfold escapeByte
  split
  · have whole : BitVec.ofNat 8 (c.toNat / 16 * 16 + c.toNat % 16) = c := by
      rw [Nat.div_add_mod', BitVec.ofNat_toNat, BitVec.setWidth_eq]
    simp [unescape, unhex?_upperHex (c.toNat / 16) (by omega), unhex?_upperHex (c.toNat % 16) (by omega), whole]
  · rename_i usual
    apply unescape_cons
    rintro rfl
    exact usual (by decide)

/-- What is escaped is read back. -/
theorem unescape_escape (path : List (BitVec 8)) : unescape (escape path) = some path := by
  induction path with
  | nil => rfl
  | cons c rest ih =>
    rw [escape, List.flatMap_cons, unescape_escapeByte, ← escape, ih, Option.map_some]

/-- A text that can be read is read before what follows. -/
theorem unescape_append {front path : List (BitVec 8)} (read : unescape front = some path) (back : List (BitVec 8)) :
    unescape (front ++ back) = (unescape back).map (path ++ ·) := by
  induction front using unescape.induct generalizing path with
  | case1 =>
    cases read
    simp
  | case2 high low rest a b first second ih =>
    simp only [unescape, first, second] at read
    obtain ⟨later, found, rfl⟩ := Option.map_eq_some_iff.mp read
    simp only [List.cons_append, unescape, first, second, ih found, Option.map_map]
    rfl
  | case3 high low rest unread =>
    rw [unescape] at read
    split at read
    · rename_i first second
      exact (unread _ _ first second).elim
    · cases read
  | case4 rest short =>
    rw [unescape.eq_def] at read
    split at read
    · contradiction
    · rename_i same
      exact (short _ _ _ rfl (List.cons.inj same).2).elim
    · rename_i same
      cases same
      cases read
  | case5 c rest _ plain ih =>
    rw [unescape_cons plain] at read
    obtain ⟨later, found, rfl⟩ := Option.map_eq_some_iff.mp read
    rw [List.cons_append, unescape_cons plain, ih found, Option.map_map]
    rfl

theorem shouldEscape_upperHex : ∀ n < 16, shouldEscape (upperHex n) = false := by decide

theorem validEncoded_append (front back : List (BitVec 8)) :
    validEncoded (front ++ back) = (validEncoded front && validEncoded back) := List.all_append

theorem validEncoded_escape (path : List (BitVec 8)) : validEncoded (escape path) = true := by
  rw [validEncoded, List.all_eq_true]
  intro b member
  obtain ⟨c, -, within⟩ := List.mem_flatMap.mp member
  have below := c.isLt
  unfold escapeByte at within
  split at within
  · rcases List.mem_cons.mp within with rfl | digit
    · decide
    · have hex : ∃ n < 16, b = upperHex n := by
        simp only [List.mem_cons, List.not_mem_nil, or_false] at digit
        rcases digit with rfl | rfl
        · exact ⟨_, by omega, rfl⟩
        · exact ⟨_, by omega, rfl⟩
      obtain ⟨n, small, rfl⟩ := hex
      rw [shouldEscape_upperHex n small, Bool.not_false, Bool.or_true]
  · rename_i usual
    rw [List.mem_singleton.mp within]
    simp [usual]

@[simp] theorem escape_append (front back : List (BitVec 8)) : escape (front ++ back) = escape front ++ escape back :=
  List.flatMap_append

theorem escape_cons (c : BitVec 8) (rest : List (BitVec 8)) : escape (c :: rest) = escapeByte c ++ escape rest := rfl

/-- A slash is not escaped, and nothing that is begins or ends with one. -/
theorem escapeByte_slash : ∀ c : BitVec 8,
    ((escapeByte c).head? = some 47 ↔ c = 47) ∧ ((escapeByte c).getLast? = some 47 ↔ c = 47) := by decide +kernel

theorem escapeByte_ne_nil (c : BitVec 8) : escapeByte c ≠ [] := by
  unfold escapeByte
  split <;> exact List.cons_ne_nil _ _

theorem escape_head (path : List (BitVec 8)) : (escape path).head? = some 47 ↔ path.head? = some 47 := by
  cases path with
  | nil => simp [escape]
  | cons c rest =>
    rw [escape_cons, List.head?_append_of_ne_nil _ (escapeByte_ne_nil c), (escapeByte_slash c).1, List.head?_cons,
      Option.some.injEq]

theorem escape_getLast (path : List (BitVec 8)) : (escape path).getLast? = some 47 ↔ path.getLast? = some 47 := by
  induction path using List.reverseRecOn with
  | nil => simp [escape]
  | append_singleton front c _ =>
    have last : escape [c] = escapeByte c := List.append_nil _
    rw [escape_append, last, List.getLast?_append_of_ne_nil _ (escapeByte_ne_nil c), (escapeByte_slash c).2,
      List.getLast?_concat, Option.some.injEq]

end Codec.Percent
