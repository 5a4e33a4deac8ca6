import MonkeyOcr.Logging.Event
import Mathlib.Data.List.Infix
import Mathlib.Tactic.IntervalCases

namespace MonkeyOcr

namespace Logging

open Codec

def redactedValue : String := "[REDACTED]"

section

variable (sensitive : String → Bool)

mutual
/-- A value with what stands under a sensitive key taken out, at every depth. -/
def redact : Json → Json
  | .obj members => .obj (redactMembers members)
  | .arr items => .arr (redactItems items)
  | value => value
def redactMembers : List (String × Json) → List (String × Json)
  | [] => []
  | (key, value) :: rest =>
    (key, if sensitive key then .str redactedValue else redact value) :: redactMembers rest
def redactItems : List Json → List Json
  | [] => []
  | item :: rest => redact item :: redactItems rest
end

end

/-- The lower case of the letters outside ASCII, which the versions of Unicode
decide. A character of Python has a context and may become several. -/
structure CaseTables where
  toLower : Char → Char
  lower : List Char → Char → List Char → List Char

def asciiLower (c : Char) : Char := if 'A' ≤ c ∧ c ≤ 'Z' then Char.ofNat (c.toNat + 32) else c

variable (tables : CaseTables)

/-- `strings.ToLower` -/
def goLower (text : List Char) : List Char :=
  text.map fun c => if c.toNat < 128 then asciiLower c else tables.toLower c

/-- `str.lower`, behind what was read before. -/
def pythonLower (before : List Char) : List Char → List Char
  | [] => []
  | c :: after => (if c.toNat < 128 then [asciiLower c] else tables.lower before c after) ++
      pythonLower (before ++ [c]) after

/-- `str.isspace` -/
def pythonSpace (c : Char) : Bool := goSpace c ∨ (0x1C ≤ c.toNat ∧ c.toNat ≤ 0x1F)

/-- `NewReplacer("-", "_", " ", "_")` -/
def fold (c : Char) : Char := if c = '-' ∨ c = ' ' then '_' else c

/-- A word among the characters of a text. -/
def contains (text : List Char) (word : String) : Bool := word.toList <:+: text

def goNormalized (key : String) : List Char := goLower tables ((trim goSpace key.toList).map fold)

def pythonNormalized (key : String) : List Char := pythonLower tables [] (trim pythonSpace key.toList)

def safeIdentityFields : List String := ["api_key_id", "api_key_fingerprint", "content_type"]

/-- The names that `isSensitiveMetadataKey` compares with. -/
def metadataKeys : List String :=
  ["authorization", "api_key", "presigned_url", "ocr_text", "markdown", "document_content", "content"]

def isSensitiveMetadataKey (key : String) : Bool :=
  let normalized := String.ofList (goNormalized tables key)
  if normalized ∈ safeIdentityFields then false
  else if normalized ∈ metadataKeys then true
  else ["password", "secret", "token"].any (contains normalized.toList)

/-- The names that `is_sensitive_field` compares with. -/
def fieldNames : List String :=
  ["authorization", "api_key", "content", "document_content", "file_content", "markdown", "ocr_content", "ocr_text",
    "presigned_url", "request_body", "response_body"]

def isSensitiveField (key : String) : Bool :=
  let normalized := String.ofList (pythonNormalized tables key)
  if normalized ∈ safeIdentityFields then false
  else if normalized ∈ fieldNames then true
  else ["password", "secret", "token", "presigned", "api_key_value"].any (contains normalized.toList)

/-- `redactMap` and `redactValue` of the logging service. -/
def redactMap : List (String × Json) → List (String × Json) := redactMembers (isSensitiveMetadataKey tables)

def redactEvent {τ : Type} (event : LogEvent τ) : LogEvent τ :=
  { event with metadata := event.metadata.map (redactMap tables) }

/-- `sanitize_fields` and `sanitize_value` of the backend. -/
def sanitizeFields : List (String × Json) → List (String × Json) := redactMembers (isSensitiveField tables)

section

variable (first second : String → Bool)

mutual
/-- Two notions of a sensitive key agree on every key that is reached, or the value is
redacted already. -/
def Alike : Json → Prop
  | .obj members => AlikeMembers members
  | .arr items => AlikeItems items
  | _ => True
def AlikeMembers : List (String × Json) → Prop
  | [] => True
  | (key, value) :: rest =>
    (if first key = second key then first key = true ∨ Alike value else value = .str redactedValue) ∧
      AlikeMembers rest
def AlikeItems : List Json → Prop
  | [] => True
  | item :: rest => Alike item ∧ AlikeItems rest
end

theorem redact_eq_redacted {sensitive : String → Bool} {value : Json} :
    redact sensitive value = .str redactedValue ↔ value = .str redactedValue := by
  cases value <;> simp [redact]

mutual
theorem redact_eq_iff (value : Json) : redact first value = redact second value ↔ Alike first second value := by
  cases value with
  | obj members => simp only [redact, Alike, Json.obj.injEq, redactMembers_eq_iff members]
  | arr items => simp only [redact, Alike, Json.arr.injEq, redactItems_eq_iff items]
  | null => simp [redact, Alike]
  | bool value => simp [redact, Alike]
  | int value => simp [redact, Alike]
  | float literal => simp [redact, Alike]
  | str value => simp [redact, Alike]
theorem redactMembers_eq_iff (members : List (String × Json)) :
    redactMembers first members = redactMembers second members ↔ AlikeMembers first second members := by
  cases members with
  | nil => simp [redactMembers, AlikeMembers]
  | cons member rest =>
    obtain ⟨key, value⟩ := member
    have here := redact_eq_iff value
    have later := redactMembers_eq_iff rest
    simp only [redactMembers, AlikeMembers, List.cons.injEq, Prod.mk.injEq, true_and, later]
    apply and_congr_left'
    cases one : first key with
    | true =>
      cases other : second key with
      | true => simp
      | false =>
        have done : redact second value = .str redactedValue ↔ value = .str redactedValue := redact_eq_redacted
        simpa [eq_comm] using done
    | false =>
      cases other : second key with
      | true => simp [redact_eq_redacted]
      | false => simp [here]
theorem redactItems_eq_iff (items : List Json) :
    redactItems first items = redactItems second items ↔ AlikeItems first second items := by
  cases items with
  | nil => simp [redactItems, AlikeItems]
  | cons item rest =>
    have here := redact_eq_iff item
    have later := redactItems_eq_iff rest
    simp only [redactItems, AlikeItems, List.cons.injEq, here, later]
end

end

/-- The two redactions of a metadata object give the same tree exactly when every key
that is reached is judged alike, up to values that are redacted already. -/
theorem redactions_agree_iff (metadata : List (String × Json)) :
    redactMap tables metadata = sanitizeFields tables metadata ↔
      AlikeMembers (isSensitiveMetadataKey tables) (isSensitiveField tables) metadata :=
  redactMembers_eq_iff _ _ metadata

/-- `api-key` is taken out by the logging service and kept by the backend,
`file_content` the other way round. -/
theorem redactions_disagree :
    let tables : CaseTables := { toLower := id, lower := fun _ c _ => [c] }
    redactMap tables [("api-key", .str "k"), ("file_content", .str "text")] =
        [("api-key", .str redactedValue), ("file_content", .str "text")] ∧
      sanitizeFields tables [("api-key", .str "k"), ("file_content", .str "text")] =
        [("api-key", .str "k"), ("file_content", .str redactedValue)] ∧
      redactMap tables [("api-key", .str "k")] ≠ sanitizeFields tables [("api-key", .str "k")] := by
  intro tables
  have service : isSensitiveMetadataKey tables "api-key" = true ∧
      isSensitiveMetadataKey tables "file_content" = false := by decide +kernel
  have backend : isSensitiveField tables "api-key" = false ∧ isSensitiveField tables "file_content" = true := by
    decide +kernel
  refine ⟨?_, ?_, ?_⟩
  · simp [redactMap, redactMembers, redact, service]
  · simp [sanitizeFields, redactMembers, redact, backend]
  · simp [redactMap, sanitizeFields, redactMembers, redact, service, backend, redactedValue]

section

theorem fold_eq_self {c : Char} (plain : fold c ≠ '_') : fold c = c := by
  unfold fold at plain ⊢
  split
  · rename_i separator
    simp [separator] at plain
  · rfl

/-- A word without separators is folded to by itself only. -/
theorem map_fold_eq {word text : List Char} (plain : '_' ∉ word) (same : text.map fold = word) : text = word := by
  have fixed : ∀ c ∈ text, fold c = id c := by
    intro c member
    apply fold_eq_self
    intro separator
    apply plain
    rw [← same, ← separator]
    exact List.mem_map_of_mem member
  rw [← same, List.map_congr_left fixed, List.map_id]

theorem infix_map_fold {word text : List Char} (plain : '_' ∉ word) (fixed : word.map fold = word) :
    word <:+: text.map fold ↔ word <:+: text := by
  constructor
  · intro inside
    obtain ⟨part, within, same⟩ := List.infix_map_iff.mp inside
    rwa [map_fold_eq plain same.symm] at within
  · intro inside
    rw [← fixed]
    exact inside.map fold

variable {tables}

theorem asciiLower_fold (c : Char) : asciiLower (fold c) = fold (asciiLower c) := by
  by_cases separator : c = '-' ∨ c = ' '
  · rcases separator with rfl | rfl <;> decide
  · have kept : fold c = c := by simp [fold, separator]
    rw [kept]
    unfold asciiLower
    split
    · rename_i upper
      have letter : ∀ n : Nat, 65 ≤ n → n ≤ 90 → fold (Char.ofNat (n + 32)) = Char.ofNat (n + 32) := by
        intro n lower upper
        interval_cases n <;> decide
      exact (letter c.toNat upper.1 upper.2).symm
    · exact kept.symm

theorem trim_congr {p q : Char → Bool} {text : List Char} (same : ∀ c ∈ text, p c = q c) :
    trim p text = trim q text := by
  have front : ∀ l : List Char, (∀ c ∈ l, p c = q c) → l.dropWhile p = l.dropWhile q := by
    intro l
    induction l with
    | nil => simp
    | cons c rest ih =>
      intro all
      rw [List.dropWhile_cons, List.dropWhile_cons, all c List.mem_cons_self,
        ih fun d member => all d (List.mem_cons_of_mem c member)]
  unfold trim
  rw [front text same]
  congr 1
  apply front
  intro c member
  rw [List.mem_reverse] at member
  exact same c ((List.dropWhile_sublist q).mem member)

theorem mem_of_mem_trim {p : Char → Bool} {text : List Char} {c : Char} (member : c ∈ trim p text) : c ∈ text := by
  unfold trim at member
  rw [List.mem_reverse] at member
  have inner := (List.dropWhile_sublist p).mem member
  rw [List.mem_reverse] at inner
  exact (List.dropWhile_sublist p).mem inner

theorem pythonLower_ascii {before text : List Char} (ascii : ∀ c ∈ text, c.toNat < 128) :
    pythonLower tables before text = text.map asciiLower := by
  induction text generalizing before with
  | nil => rfl
  | cons c rest ih =>
    have here := ascii c List.mem_cons_self
    simp only [pythonLower, here, if_true, List.map_cons, List.singleton_append]
    rw [ih fun d member => ascii d (List.mem_cons_of_mem c member)]

/-- Characters from the space to the tilde. -/
def Printable (key : String) : Prop := ∀ c ∈ key.toList, 32 ≤ c.toNat ∧ c.toNat < 127

/-- On printable keys the normal forms differ by the folding alone. -/
theorem goNormalized_eq {key : String} (printable : Printable key) :
    goNormalized tables key = (pythonNormalized tables key).map fold := by
  have spaces : trim pythonSpace key.toList = trim goSpace key.toList := by
    apply trim_congr
    intro c member
    have lower := (printable c member).1
    have outside : ¬ (0x1C ≤ c.toNat ∧ c.toNat ≤ 0x1F) := by omega
    simp [pythonSpace, outside]
  have ascii : ∀ c ∈ trim goSpace key.toList, c.toNat < 128 := by
    intro c member
    have upper := (printable c (mem_of_mem_trim member)).2
    omega
  rw [goNormalized, pythonNormalized, spaces, pythonLower_ascii ascii, goLower, List.map_map, List.map_map]
  apply List.map_congr_left
  intro c member
  have small := ascii c member
  have folded : (fold c).toNat < 128 := by
    unfold fold
    split
    · decide
    · exact small
  simp only [Function.comp_apply, folded, if_true, asciiLower_fold]

/-- The markers of both sides. -/
def Marked (text : List Char) : Prop := ∃ word ∈ ["password", "secret", "token"], word.toList <:+: text

theorem marked_fold {text : List Char} : Marked (text.map fold) ↔ Marked text := by
  unfold Marked
  apply exists_congr
  intro word
  apply and_congr_right
  intro member
  apply infix_map_fold
  · revert word; decide
  · revert word; decide

theorem ofList_mem {text : List Char} {words : List String} :
    String.ofList text ∈ words ↔ text ∈ words.map String.toList := by
  rw [List.mem_map]
  constructor
  · intro member
    exact ⟨_, member, String.toList_ofList⟩
  · rintro ⟨word, member, rfl⟩
    rwa [String.ofList_toList]

/-- The safe names change nothing, as they are neither listed nor marked. -/
theorem judged_iff {safe words markers : List String} {text : List Char}
    (apart : ∀ name ∈ safe, name ∉ words ∧ ∀ marker ∈ markers, ¬ marker.toList <:+: name.toList) :
    (if String.ofList text ∈ safe then false else if String.ofList text ∈ words then true
      else markers.any (contains (String.ofList text).toList)) = true ↔
    text ∈ words.map String.toList ∨ ∃ marker ∈ markers, marker.toList <:+: text := by
  have marked : markers.any (contains (String.ofList text).toList) = true ↔
      ∃ marker ∈ markers, marker.toList <:+: text := by
    simp [contains]
  by_cases name : String.ofList text ∈ safe
  · obtain ⟨unlisted, unmarked⟩ := apart _ name
    rw [ofList_mem] at unlisted
    simp only [String.toList_ofList] at unmarked
    simp only [name, if_true, Bool.false_eq_true, false_iff, not_or, not_exists, not_and]
    exact ⟨unlisted, unmarked⟩
  · by_cases listed : String.ofList text ∈ words
    · simp [name, listed, ofList_mem.mp listed]
    · rw [if_neg name, if_neg listed, marked, ← ofList_mem, or_iff_right listed]

theorem isSensitiveMetadataKey_iff {key : String} : isSensitiveMetadataKey tables key = true ↔
    goNormalized tables key ∈ metadataKeys.map String.toList ∨ Marked (goNormalized tables key) :=
  have apart : ∀ name ∈ safeIdentityFields, name ∉ metadataKeys ∧
      ∀ marker ∈ ["password", "secret", "token"], ¬ marker.toList <:+: name.toList := by decide
  judged_iff apart

theorem isSensitiveField_iff {key : String} : isSensitiveField tables key = true ↔
    pythonNormalized tables key ∈ fieldNames.map String.toList ∨ Marked (pythonNormalized tables key) ∨
      "presigned".toList <:+: pythonNormalized tables key ∨
      "api_key_value".toList <:+: pythonNormalized tables key := by
  have apart : ∀ name ∈ safeIdentityFields, name ∉ fieldNames ∧
      ∀ marker ∈ ["password", "secret", "token", "presigned", "api_key_value"],
        ¬ marker.toList <:+: name.toList := by decide
  have judged : isSensitiveField tables key = true ↔ _ := judged_iff apart
  have split : (∃ marker ∈ ["password", "secret", "token", "presigned", "api_key_value"],
      marker.toList <:+: pythonNormalized tables key) ↔ Marked (pythonNormalized tables key) ∨
        "presigned".toList <:+: pythonNormalized tables key ∨
        "api_key_value".toList <:+: pythonNormalized tables key := by
    simp only [Marked, List.mem_cons, List.not_mem_nil, or_false, exists_eq_or_imp, exists_eq_left, or_assoc]
  rw [← split]
  exact judged

/-- A name of the logging service is spelled with an underscore, marked by the backend,
or without separators a name of both. -/
theorem metadataKeys_cases : ∀ word ∈ metadataKeys.map String.toList,
    word ∈ ["api_key", "ocr_text", "document_content"].map String.toList ∨ word = "presigned_url".toList ∨
      '_' ∉ word ∧ word ∈ fieldNames.map String.toList := by decide

theorem fieldNames_cases : ∀ word ∈ fieldNames.map String.toList, word.map fold = word ∧
    (word ∈ metadataKeys.map String.toList ∨
      word ∈ ["file_content", "ocr_content", "request_body", "response_body"].map String.toList) := by decide

/-- What the names of the logging service do not contain. -/
theorem metadataKeys_unmarked : ∀ word ∈ metadataKeys.map String.toList,
    ¬ (∃ marker ∈ ["password", "secret", "token"], marker.toList <:+: word) ∧
      ("presigned".toList <:+: word → word = "presigned_url".toList) ∧ ¬ "api_key_value".toList <:+: word ∧
      word ∉ ["file_content", "ocr_content", "request_body", "response_body"].map String.toList := by decide

variable (tables) in
/-- Folding makes no name of the logging service out of the key, and of the names and
markers that only the backend has it has none that the service does not find, too. -/
def SpelledAlike (key : String) : Prop :=
  let normalized := pythonNormalized tables key
  (normalized.map fold ∈ ["api_key", "ocr_text", "document_content"].map String.toList →
    normalized.map fold = normalized) ∧
  (normalized ∈ ["file_content", "ocr_content", "request_body", "response_body"].map String.toList ∨
      "presigned".toList <:+: normalized ∨ "api_key_value".toList <:+: normalized →
    normalized.map fold = "presigned_url".toList ∨ Marked normalized)

/-- The printable keys that the two sides judge alike. -/
theorem sensitive_agree_iff {key : String} (printable : Printable key) :
    isSensitiveMetadataKey tables key = isSensitiveField tables key ↔ SpelledAlike tables key := by
  unfold SpelledAlike
  generalize spelled : pythonNormalized tables key = normalized
  rw [Bool.eq_iff_iff, isSensitiveMetadataKey_iff, isSensitiveField_iff, goNormalized_eq printable, marked_fold, spelled]
  have signed : "presigned".toList <:+: normalized → "presigned".toList <:+: normalized.map fold :=
    fun inside => inside.map fold
  have valued : "api_key_value".toList <:+: normalized → "api_key_value".toList <:+: normalized.map fold :=
    fun inside => inside.map fold
  constructor
  · intro same
    refine ⟨?_, ?_⟩
    · intro spelled
      have named : ∀ word ∈ ["api_key", "ocr_text", "document_content"].map String.toList,
          word ∈ metadataKeys.map String.toList ∧ word ≠ "presigned_url".toList := by decide
      obtain ⟨listed, unsigned⟩ := named _ spelled
      obtain ⟨unmarked, only, unvalued, _⟩ := metadataKeys_unmarked _ listed
      rcases same.mp (.inl listed) with field | marked | presigned | value
      · exact (fieldNames_cases _ field).1
      · exact absurd (marked_fold.mpr marked) unmarked
      · exact absurd (only (signed presigned)) unsigned
      · exact absurd (valued value) unvalued
    · intro backend
      have field : ∀ word ∈ ["file_content", "ocr_content", "request_body", "response_body"].map String.toList,
          word ∈ fieldNames.map String.toList := by decide
      rcases same.mpr (backend.imp (field _) .inr) with listed | marked
      · left
        obtain ⟨_, only, unvalued, unlisted⟩ := metadataKeys_unmarked _ listed
        rcases backend with own | presigned | value
        · rw [(fieldNames_cases _ (field _ own)).1] at unlisted
          exact absurd own unlisted
        · exact only (signed presigned)
        · exact absurd (valued value) unvalued
      · exact .inr marked
  · intro ⟨spelled, backend⟩
    constructor
    · intro service
      rcases service with listed | marked
      · rcases metadataKeys_cases _ listed with underscored | url | ⟨plain, field⟩
        · left
          rw [← spelled underscored]
          exact (by decide : ∀ word ∈ ["api_key", "ocr_text", "document_content"].map String.toList,
            word ∈ fieldNames.map String.toList) _ underscored
        · refine .inr (.inr (.inl ((infix_map_fold (by decide) (by decide)).mp ?_)))
          rw [url]
          decide
        · rw [map_fold_eq plain rfl]
          exact .inl field
      · exact .inr (.inl marked)
    · intro python
      have url : "presigned_url".toList ∈ metadataKeys.map String.toList := by decide
      rcases python with field | marked | more
      · obtain ⟨fixed, listed | own⟩ := fieldNames_cases _ field
        · rw [fixed]
          exact .inl listed
        · refine (backend (.inl own)).imp_left fun same => ?_
          rw [same]
          exact url
      · exact .inr marked
      · refine (backend (.inr more)).imp_left fun same => ?_
        rw [same]
        exact url

mutual
/-- The keys of a value, at every depth. -/
def keys : Json → List String
  | .obj members => memberKeys members
  | .arr items => itemKeys items
  | _ => []
def memberKeys : List (String × Json) → List String
  | [] => []
  | (key, value) :: rest => key :: (keys value ++ memberKeys rest)
def itemKeys : List Json → List String
  | [] => []
  | item :: rest => keys item ++ itemKeys rest
end

variable {first second : String → Bool} {agree : String → Prop}

mutual
/-- Every key that is reached has the property, or its value is redacted already. -/
def Agreed (agree : String → Prop) (first : String → Bool) : Json → Prop
  | .obj members => AgreedMembers agree first members
  | .arr items => AgreedItems agree first items
  | _ => True
def AgreedMembers (agree : String → Prop) (first : String → Bool) : List (String × Json) → Prop
  | [] => True
  | (key, value) :: rest =>
    (agree key ∧ (first key = true ∨ Agreed agree first value) ∨ ¬ agree key ∧ value = .str redactedValue) ∧
      AgreedMembers agree first rest
def AgreedItems (agree : String → Prop) (first : String → Bool) : List Json → Prop
  | [] => True
  | item :: rest => Agreed agree first item ∧ AgreedItems agree first rest
end

mutual
theorem alike_iff_agreed (value : Json) (same : ∀ key ∈ keys value, first key = second key ↔ agree key) :
    Alike first second value ↔ Agreed agree first value := by
  cases value with
  | obj members =>
    rw [Alike, Agreed]
    exact alikeMembers_iff_agreed members same
  | arr items =>
    rw [Alike, Agreed]
    exact alikeItems_iff_agreed items same
  | null => simp [Alike, Agreed]
  | bool value => simp [Alike, Agreed]
  | int value => simp [Alike, Agreed]
  | float literal => simp [Alike, Agreed]
  | str value => simp [Alike, Agreed]
theorem alikeMembers_iff_agreed (members : List (String × Json))
    (same : ∀ key ∈ memberKeys members, first key = second key ↔ agree key) :
    AlikeMembers first second members ↔ AgreedMembers agree first members := by
  cases members with
  | nil => simp [AlikeMembers, AgreedMembers]
  | cons member rest =>
    obtain ⟨key, value⟩ := member
    rw [memberKeys] at same
    have here := same key List.mem_cons_self
    have below := alike_iff_agreed value fun other member => same other (by simp [member])
    have later := alikeMembers_iff_agreed rest fun other member => same other (by simp [member])
    rw [AlikeMembers, AgreedMembers, later, ← here, below]
    by_cases judged : first key = second key <;> simp [judged]
theorem alikeItems_iff_agreed (items : List Json)
    (same : ∀ key ∈ itemKeys items, first key = second key ↔ agree key) :
    AlikeItems first second items ↔ AgreedItems agree first items := by
  cases items with
  | nil => simp [AlikeItems, AgreedItems]
  | cons item rest =>
    rw [itemKeys] at same
    have here := alike_iff_agreed item fun other member => same other (List.mem_append_left _ member)
    have later := alikeItems_iff_agreed rest fun other member => same other (List.mem_append_right _ member)
    rw [AlikeItems, AgreedItems, here, later]
end

/-- On a tree of printable keys the two redactions agree exactly when every key that is
reached is spelled alike, up to values that are redacted already. -/
theorem redactions_agree_printable (metadata : List (String × Json))
    (printable : ∀ key ∈ memberKeys metadata, Printable key) :
    redactMap tables metadata = sanitizeFields tables metadata ↔
      AgreedMembers (SpelledAlike tables) (isSensitiveMetadataKey tables) metadata := by
  rw [redactMap, sanitizeFields, redactMembers_eq_iff]
  exact alikeMembers_iff_agreed metadata fun key member => sensitive_agree_iff (printable key member)

end

end Logging

end MonkeyOcr
