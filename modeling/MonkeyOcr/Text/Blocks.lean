import Mathlib.Data.List.Basic

namespace Text

/-- `text.split(/\r?\n\r?\n/)`: the blocks that a blank line ends, and what
follows the last of them. -/
def blocks : List Char → List (List Char) × List Char
  | [] => ([], [])
  | '\n' :: '\n' :: rest => ([] :: (blocks rest).1, (blocks rest).2)
  | '\n' :: '\r' :: '\n' :: rest => ([] :: (blocks rest).1, (blocks rest).2)
  | '\r' :: '\n' :: '\n' :: rest => ([] :: (blocks rest).1, (blocks rest).2)
  | '\r' :: '\n' :: '\r' :: '\n' :: rest => ([] :: (blocks rest).1, (blocks rest).2)
  | c :: rest =>
    match (blocks rest).1 with
    | [] => ([], c :: (blocks rest).2)
    | block :: more => ((c :: block) :: more, (blocks rest).2)

/-- `text.split(/\r?\n/)`. -/
def lines : List Char → List (List Char)
  | [] => [[]]
  | '\n' :: rest => [] :: lines rest
  | '\r' :: '\n' :: rest => [] :: lines rest
  | c :: rest =>
    match lines rest with
    | [] => [[c]]
    | line :: more => (c :: line) :: more

/-- The text has no line end. -/
def Inline (text : List Char) : Prop := ∀ c ∈ text, c ≠ '\r' ∧ c ≠ '\n'

instance {text : List Char} : Decidable (Inline text) := List.decidableBAll _ text

theorem Inline.append {first second : List Char} (before : Inline first) (after : Inline second) :
    Inline (first ++ second) := by
  intro c member
  rcases List.mem_append.mp member with left | right
  · exact before c left
  · exact after c right

/-- A text without a whole block is its own rest. -/
theorem blocks_rest {text : List Char} (none : (blocks text).1 = []) : (blocks text).2 = text := by
  induction text using blocks.induct with
  | case1 => rfl
  | case2 => simp [blocks] at none
  | case3 => simp [blocks] at none
  | case4 => simp [blocks] at none
  | case5 => simp [blocks] at none
  | case6 c rest _ _ _ _ empty ih => 
    rw [blocks] at none ⊢
    all_goals simp_all
  | case7 c rest _ _ _ _ block more same ih =>
    rw [blocks] at none
    all_goals simp_all

/-- The text begins with a blank line. -/
def Blank (text : List Char) : Prop :=
  ∃ rest, text = '\n' :: '\n' :: rest ∨ text = '\n' :: '\r' :: '\n' :: rest ∨
    text = '\r' :: '\n' :: '\n' :: rest ∨ text = '\r' :: '\n' :: '\r' :: '\n' :: rest

theorem blocks_cons {c : Char} {rest : List Char} (solid : ¬ Blank (c :: rest)) :
    blocks (c :: rest) =
      match (blocks rest).1 with
      | [] => ([], c :: (blocks rest).2)
      | block :: more => ((c :: block) :: more, (blocks rest).2) := by
  rw [blocks]
  · intro tail first second
    exact solid ⟨tail, .inl (by rw [first, second])⟩
  · intro tail first second
    exact solid ⟨tail, .inr (.inl (by rw [first, second]))⟩
  · intro tail first second
    exact solid ⟨tail, .inr (.inr (.inl (by rw [first, second])))⟩
  · intro tail first second
    exact solid ⟨tail, .inr (.inr (.inr (by rw [first, second])))⟩

/-- Whether a text with a whole block begins with a blank line does not depend
on what follows. -/
theorem Blank.of_append {c : Char} {text more : List Char} (whole : (blocks text).1 ≠ [])
    (blank : Blank (c :: (text ++ more))) : Blank (c :: text) := by
  match text with
  | [] => simp [blocks] at whole
  | [x] => simp [blocks] at whole
  | [x, y] =>
    have ends : x = '\n' ∧ y = '\n' := by
      by_contra other
      rw [blocks_cons (by simp [Blank]; grind)] at whole
      simp [blocks] at whole
    obtain ⟨rfl, rfl⟩ := ends
    simp [Blank] at blank ⊢
    grind
  | x :: y :: z :: rest =>
    simp [Blank] at blank ⊢
    grind

/-- Cutting a text into chunks does not change its blocks: what is left of the
first chunk is kept for the next. -/
theorem blocks_append (text more : List Char) :
    blocks (text ++ more) = ((blocks text).1 ++ (blocks ((blocks text).2 ++ more)).1,
      (blocks ((blocks text).2 ++ more)).2) := by
  induction text using blocks.induct with
  | case1 => simp [blocks]
  | case2 rest ih => simp [blocks, ih]
  | case3 rest ih => simp [blocks, ih]
  | case4 rest ih => simp [blocks, ih]
  | case5 rest ih => simp [blocks, ih]
  | case6 c rest open₁ open₂ open₃ open₄ none ih =>
    have alone : blocks (c :: rest) = ([], c :: rest) := by
      rw [blocks, none, blocks_rest none] <;> assumption
    simp [alone]
  | case7 c rest open₁ open₂ open₃ open₄ block others same ih =>
    have solid : ¬ Blank (c :: rest) := by
      simp [Blank]
      grind
    have solid' : ¬ Blank (c :: (rest ++ more)) := by
      intro blank
      exact solid (blank.of_append (by rw [same]; exact List.cons_ne_nil _ _))
    rw [List.cons_append, blocks_cons solid', blocks_cons solid, same, ih, same]
    rfl

/-- The whole blocks of what was read so far are the first ones of the text. -/
theorem blocks_take_grows (text : List Char) (n : Nat) : (blocks (text.take n)).1 <+: (blocks text).1 := by
  have whole := blocks_append (text.take n) (text.drop n)
  rw [List.take_append_drop] at whole
  rw [whole]
  exact List.prefix_append _ _

/-- The blocks of a text after its next chunk was read. -/
theorem blocks_chunk (text : List Char) (n length : Nat) :
    blocks (text.take (n + ((text.drop n).take length).length)) =
      ((blocks (text.take n)).1 ++ (blocks ((blocks (text.take n)).2 ++ (text.drop n).take length)).1,
        (blocks ((blocks (text.take n)).2 ++ (text.drop n).take length)).2) := by
  have chunk := List.prefix_iff_eq_take.mp (List.take_prefix length (text.drop n))
  rw [List.take_add, ← chunk, blocks_append]

/-- A text put before the blocks of another. -/
def prepend (text : List Char) : List (List Char) × List Char → List (List Char) × List Char
  | ([], rest) => ([], text ++ rest)
  | (block :: more, rest) => ((text ++ block) :: more, rest)

theorem blocks_prepend {c : Char} {rest : List Char} (solid : ¬ Blank (c :: rest)) :
    blocks (c :: rest) = prepend [c] (blocks rest) := by
  rw [blocks_cons solid]
  rcases blocks rest with ⟨_ | ⟨block, more⟩, last⟩ <;> rfl

theorem prepend_append (first second : List Char) (blocks : List (List Char) × List Char) :
    prepend (first ++ second) blocks = prepend first (prepend second blocks) := by
  rcases blocks with ⟨_ | ⟨block, more⟩, last⟩ <;> simp [prepend]

theorem blocks_inline {text : List Char} (inline : Inline text) (more : List Char) :
    blocks (text ++ more) = prepend text (blocks more) := by
  induction text with
  | nil =>
    rw [List.nil_append]
    rcases blocks more with ⟨_ | ⟨block, others⟩, last⟩ <;> rfl
  | cons c rest ih =>
    have here := inline c List.mem_cons_self
    have solid : ¬ Blank (c :: (rest ++ more)) := by
      simp [Blank, here]
    have later : Inline rest := fun d member => inline d (List.mem_cons_of_mem _ member)
    rw [List.cons_append, blocks_prepend solid, ih later, ← prepend_append]
    rfl

/-- The lines of a frame, one below the other. -/
def unlines : List (List Char) → List Char
  | [] => []
  | [line] => line
  | line :: rest => line ++ '\n' :: unlines rest

/-- A frame of lines that are not empty, with the blank line after it, is one
block. -/
theorem blocks_unlines {frame : List (List Char)} (more : List Char) (some : frame ≠ [])
    (written : ∀ line ∈ frame, Inline line ∧ line ≠ []) :
    blocks (unlines frame ++ '\n' :: '\n' :: more) = (unlines frame :: (blocks more).1, (blocks more).2) := by
  induction frame with
  | nil => exact absurd rfl some
  | cons line rest ih =>
    have here := written line List.mem_cons_self
    cases rest with
    | nil => simp [unlines, blocks_inline here.1, blocks, prepend]
    | cons next others =>
      have after := ih (List.cons_ne_nil _ _) fun other member => written other (List.mem_cons_of_mem _ member)
      obtain ⟨inline, full⟩ := written next (List.mem_cons_of_mem _ List.mem_cons_self)
      have start : ∃ c tail, unlines (next :: others) = c :: tail ∧ c ≠ '\r' ∧ c ≠ '\n' := by
        obtain ⟨c, tail, rfl⟩ := List.exists_cons_of_ne_nil full
        cases others with
        | nil => exact ⟨c, tail, rfl, inline c List.mem_cons_self⟩
        | cons => exact ⟨c, _, rfl, inline c List.mem_cons_self⟩
      obtain ⟨c, tail, starts, other⟩ := start
      have solid : ¬ Blank ('\n' :: (unlines (next :: others) ++ '\n' :: '\n' :: more)) := by
        simp [starts, Blank, other]
      have body : unlines (line :: next :: others) = line ++ '\n' :: unlines (next :: others) := rfl
      rw [body, List.append_assoc, blocks_inline here.1, List.cons_append, blocks_prepend solid, after]
      simp [prepend]

theorem lines_inline {line : List Char} (inline : Inline line) (more : List Char) :
    lines (line ++ '\n' :: more) = line :: lines more := by
  induction line with
  | nil => rfl
  | cons c rest ih =>
    have here := inline c List.mem_cons_self
    have later := ih fun d member => inline d (List.mem_cons_of_mem _ member)
    rw [List.cons_append, lines, later]
    · simp [here]
    · simp [here]

theorem lines_single {line : List Char} (inline : Inline line) : lines line = [line] := by
  induction line with
  | nil => rfl
  | cons c rest ih =>
    have here := inline c List.mem_cons_self
    have later := ih fun d member => inline d (List.mem_cons_of_mem _ member)
    rw [lines, later]
    · simp [here]
    · simp [here]

/-- Splitting a frame gives its lines back. -/
theorem lines_unlines {frame : List (List Char)} (some : frame ≠ []) (inline : ∀ line ∈ frame, Inline line) :
    lines (unlines frame) = frame := by
  induction frame with
  | nil => exact absurd rfl some
  | cons line rest ih =>
    have here := inline line List.mem_cons_self
    cases rest with
    | nil => exact lines_single here
    | cons next others =>
      have after := ih (List.cons_ne_nil _ _) fun other member => inline other (List.mem_cons_of_mem _ member)
      have body : unlines (line :: next :: others) = line ++ '\n' :: unlines (next :: others) := rfl
      rw [body, lines_inline here, after]

end Text
