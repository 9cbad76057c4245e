import CelWhere.Proofs.Regex.Screening
import Mathlib.Data.List.Basic

/-! # Nested repetitions

Repeating a group that repeats something is what makes matching slow. The check for it goes by the
text: it finds a group that ends in a repetition, is repeated and has no closing parenthesis before.
Here patterns are trees of letters and groups, so that it can be said which of the nested
repetitions are found.

* `Regex.Pattern` — patterns of letters, groups and quantifiers;
* `Regex.Pattern.Nests`, `Regex.Pattern.Flagged` — nested repetitions, and those that are found;
* `Regex.validate_text` — what the checks say of such a pattern. -/

namespace CelWhere

/-! ## Counting one text -/

namespace Text

variable {pattern word : List Char} {a : Char}

/-- Where the pattern does not stand, nothing is counted. -/
theorem occurrences_cons {head : Char} {rest : List Char} (differs : ¬pattern <+: head :: rest) :
    occurrences pattern (head :: rest) = occurrences pattern rest := by
  rw [← List.isPrefixOf_iff_prefix] at differs
  rw [occurrences, occurrencesFrom, if_neg differs, occurrences]

/-- The characters of an occurrence are skipped. -/
theorem occurrencesFrom_skip (text : List Char) :
    occurrencesFrom pattern word.length (word ++ text) = occurrences pattern text := by
  induction word with
  | nil => rfl
  | cons head rest ih => exact ih

/-- Where the pattern stands, it is counted. -/
theorem occurrences_append_self (given : pattern ≠ []) (text : List Char) :
    occurrences pattern (pattern ++ text) = occurrences pattern text + 1 := by
  obtain ⟨head, rest, rfl⟩ := List.exists_cons_of_ne_nil given
  have stands : (head :: rest).isPrefixOf (head :: (rest ++ text)) = true :=
    List.isPrefixOf_iff_prefix.mpr (List.prefix_append (head :: rest) text)
  rw [List.cons_append, occurrences, occurrencesFrom, if_pos stands, List.length_cons,
    Nat.add_sub_cancel, occurrencesFrom_skip]

/-- A text without the first character of the pattern is passed. -/
theorem occurrences_append (absent : a ∉ word) (text : List Char) :
    occurrences (a :: pattern) (word ++ text) = occurrences (a :: pattern) text := by
  induction word with
  | nil => rfl
  | cons head rest ih =>
    rw [List.mem_cons, not_or] at absent
    rw [List.cons_append, occurrences_cons (by simp [absent.1]), ih absent.2]

end Text

namespace Regex

/-! ## Patterns of letters and groups -/

/-- The characters that do not stand for themselves. -/
def signs : List Char :=
  ['\x00', '\\', '(', ')', '[', ']', '\x7b', '\x7d', '.', '*', '+', '?', '|', '^', '$']

/-- A character that stands for itself. -/
structure Letter where
  /-- The character. -/
  char : Char
  /-- It is no sign. -/
  plain : signs.contains char = false

/-- The quantifiers for more than one occurrence. -/
inductive Quantifier
  /-- One or more. -/
  | plus
  /-- Any number. -/
  | star
  deriving DecidableEq, Repr

/-- The sign of a quantifier. -/
def Quantifier.char : Quantifier → Char
  | .plus => '+'
  | .star => '*'

/-- A pattern: letters and groups one after the other, each followed by quantifiers or not. -/
inductive Pattern
  /-- Nothing. -/
  | nil
  /-- A letter and what follows it. -/
  | letter (c : Letter) (quantifiers : List Quantifier) (rest : Pattern)
  /-- A group and what follows it. -/
  | group (capturing : Bool) (body : Pattern) (quantifiers : List Quantifier) (rest : Pattern)

/-- A group of a pattern. -/
structure Grouped where
  /-- Whether the group captures what it matches. -/
  capturing : Bool
  /-- What stands in the group. -/
  body : Pattern
  /-- What follows the group. -/
  quantifiers : List Quantifier

namespace Pattern

/-- The start of a group. -/
def opener (capturing : Bool) : List Char :=
  if capturing then ['('] else ['(', '?', ':']

/-- The text of a pattern. -/
def text : Pattern → List Char
  | .nil => []
  | .letter c quantifiers rest => c.char :: (quantifiers.map Quantifier.char ++ rest.text)
  | .group capturing body quantifiers rest =>
    opener capturing ++ (body.text ++ ')' :: (quantifiers.map Quantifier.char ++ rest.text))

/-- All groups of a pattern, at any depth. -/
def groups : Pattern → List Grouped
  | .nil => []
  | .letter _ _ rest => rest.groups
  | .group capturing body quantifiers rest =>
    ⟨capturing, body, quantifiers⟩ :: (body.groups ++ rest.groups)

/-- The quantifiers of all letters and groups of a pattern, at any depth. -/
def repetitions : Pattern → List (List Quantifier)
  | .nil => []
  | .letter _ quantifiers rest => quantifiers :: rest.repetitions
  | .group _ body quantifiers rest => quantifiers :: (body.repetitions ++ rest.repetitions)

/-- The depth to which groups are nested. -/
def depth : Pattern → Nat
  | .nil => 0
  | .letter _ _ rest => rest.depth
  | .group _ body _ rest => max (body.depth + 1) rest.depth

/-- The number of capturing groups. -/
def captures (pattern : Pattern) : Nat :=
  pattern.groups.countP (·.capturing)

/-- A group that is repeated has something in it, at any depth, that is repeated. -/
def Nests (pattern : Pattern) : Prop :=
  ∃ group ∈ pattern.groups, group.quantifiers ≠ [] ∧ ∃ quantifiers ∈ group.body.repetitions,
    quantifiers ≠ []

instance (pattern : Pattern) : Decidable pattern.Nests :=
  inferInstanceAs (Decidable (∃ group ∈ pattern.groups, _))

/-- A pattern has no groups, and its last letter is repeated. -/
def EndsRepeated (pattern : Pattern) : Prop :=
  pattern.groups = [] ∧ ∃ quantifiers ∈ pattern.repetitions.getLast?, quantifiers ≠ []

instance (pattern : Pattern) : Decidable pattern.EndsRepeated :=
  inferInstanceAs (Decidable (_ ∧ _))

/-- A group that is repeated has no groups in it and ends in a letter that is repeated. -/
def Flagged (pattern : Pattern) : Prop :=
  ∃ group ∈ pattern.groups, group.quantifiers ≠ [] ∧ group.body.EndsRepeated

instance (pattern : Pattern) : Decidable pattern.Flagged :=
  inferInstanceAs (Decidable (∃ group ∈ pattern.groups, _))

variable {body rest pattern : Pattern} {c : Letter} {quantifiers : List Quantifier}
  {capturing : Bool}
variable {after : List Char}

/-! ## Small facts -/

/-- A letter with its quantifiers, and what follows it. -/
theorem text_letter (after : List Char) :
    (letter c quantifiers rest).text ++ after =
      (c.char :: quantifiers.map Quantifier.char) ++ (rest.text ++ after) := by
  simp [text]

/-- A group with its quantifiers, and what follows it. -/
theorem text_group (after : List Char) :
    (group capturing body quantifiers rest).text ++ after =
      opener capturing ++ (body.text ++ ((')' :: quantifiers.map Quantifier.char) ++
        (rest.text ++ after))) := by
  simp [text]

/-- A letter is no sign. -/
theorem letter_ne (c : Letter) {sign : Char} (isSign : sign ∈ signs) : c.char ≠ sign := by
  rintro rfl
  have := c.plain
  simp [isSign] at this

/-- A letter is no quantifier. -/
theorem isQuantifier_letter (c : Letter) : isQuantifier c.char = false := by
  simp [isQuantifier, letter_ne c (by decide : '+' ∈ signs), letter_ne c (by decide : '*' ∈ signs),
    letter_ne c (by decide : '?' ∈ signs)]

/-- A quantifier is one of the three. -/
theorem isQuantifier_char (quantifier : Quantifier) : isQuantifier quantifier.char = true := by
  cases quantifier <;> rfl

/-- A text does not go on with a quantifier. -/
def Unrepeated (text : List Char) : Prop :=
  text.head?.any isQuantifier = false

/-- No pattern starts with a quantifier. -/
theorem unrepeated_text (pattern : Pattern) (unrepeated : Unrepeated after) :
    Unrepeated (pattern.text ++ after) := by
  cases pattern with
  | nil => exact unrepeated
  | letter c quantifiers rest => exact isQuantifier_letter c
  | group capturing body quantifiers rest => cases capturing <;> rfl

/-! ## The scan for nested quantifiers -/

/-- Whether the scan is behind a quantifier in an open group after a pattern. -/
def quantified (opened before : Bool) : Pattern → Bool
  | .nil => before
  | .letter _ quantifiers rest => rest.quantified opened (opened && !quantifiers.isEmpty)
  | .group _ _ _ rest => rest.quantified false false

/-- Behind a letter no quantifier was read. -/
theorem nestedQuantifierFrom_letter (opened before : Bool) (after : List Char) :
    nestedQuantifierFrom opened before (c.char :: after) =
      nestedQuantifierFrom opened false after := by
  rw [nestedQuantifierFrom, if_neg (letter_ne c (by decide)), isQuantifier_letter]
  simp [letter_ne c (by decide : '(' ∈ signs)]

/-- Quantifiers count in a group that no other one ended in. -/
theorem nestedQuantifierFrom_quantifiers (opened before : Bool) (after : List Char) :
    nestedQuantifierFrom opened before (quantifiers.map Quantifier.char ++ after) =
      nestedQuantifierFrom opened (if quantifiers = [] then before else opened) after := by
  induction quantifiers generalizing before with
  | nil => rfl
  | cons quantifier others ih =>
    have step : nestedQuantifierFrom opened before
        (quantifier.char :: (others.map Quantifier.char ++ after)) =
        nestedQuantifierFrom opened opened (others.map Quantifier.char ++ after) := by
      cases quantifier <;> simp [nestedQuantifierFrom, Quantifier.char, isQuantifier]
    rw [List.map_cons, List.cons_append, step, ih]
    simp

/-- The question mark of an opener is no quantifier for the scan. -/
theorem nestedQuantifierFrom_opener (opened before : Bool) (after : List Char) :
    nestedQuantifierFrom opened before (opener capturing ++ after) =
      nestedQuantifierFrom true false after := by
  cases capturing <;> simp [opener, nestedQuantifierFrom, isQuantifier]

/-- At the end of a group the scan finds it, or goes on outside of all groups. -/
theorem nestedQuantifierFrom_closer (opened before : Bool) (unrepeated : Unrepeated after) :
    nestedQuantifierFrom opened before (')' :: (quantifiers.map Quantifier.char ++ after)) = true ↔
      before = true ∧ quantifiers ≠ [] ∨ nestedQuantifierFrom false false after = true := by
  rw [nestedQuantifierFrom, if_pos rfl, Bool.or_eq_true, Bool.and_eq_true,
    nestedQuantifierFrom_quantifiers]
  cases quantifiers with
  | nil =>
    have noneFollows : after.head?.any isQuantifier = false := unrepeated
    simp [noneFollows]
  | cons quantifier others => simp [isQuantifier_char]

/-- A group is flagged itself, or what is in it, or what follows it. -/
theorem flagged_group :
    Flagged (.group capturing body quantifiers rest) ↔
      quantifiers ≠ [] ∧ body.EndsRepeated ∨ body.Flagged ∨ rest.Flagged := by
  simp [Flagged, groups, or_and_right, exists_or]

/-- A pattern without items has no groups. -/
theorem groups_eq_nil (pattern : Pattern) (nothing : pattern.repetitions = []) :
    pattern.groups = [] := by
  cases pattern with
  | nil => rfl
  | letter | group => simp [repetitions] at nothing

/-- Where the scan is after a pattern. -/
theorem quantified_iff (opened before : Bool) (pattern : Pattern) :
    pattern.quantified opened before = true ↔
      pattern.repetitions = [] ∧ before = true ∨ opened = true ∧ pattern.EndsRepeated := by
  induction pattern generalizing opened before with
  | nil => simp [quantified, EndsRepeated, repetitions]
  | letter c quantifiers rest ih =>
    rw [quantified, ih]
    cases others : rest.repetitions with
    | nil => simp [EndsRepeated, repetitions, groups, others, groups_eq_nil rest others]
    | cons next tail => simp [EndsRepeated, repetitions, groups, others, List.getLast?_cons_cons]
  | group capturing body quantifiers rest _ ih =>
    rw [quantified, ih]
    simp [EndsRepeated, repetitions, groups]

/-- **The scan finds what is flagged.** -/
theorem nestedQuantifierFrom_text (opened before : Bool) (pattern : Pattern)
    (unrepeated : Unrepeated after) :
    nestedQuantifierFrom opened before (pattern.text ++ after) = true ↔
      pattern.Flagged ∨
        nestedQuantifierFrom (opened && pattern.groups.isEmpty) (pattern.quantified opened before)
        after = true := by
  induction pattern generalizing opened before after with
  | nil => simp [text, Flagged, groups, quantified]
  | letter c quantifiers rest ih =>
    have state : (if quantifiers = [] then false else opened) =
        (opened && !quantifiers.isEmpty) := by
      cases quantifiers <;> simp
    rw [text_letter, List.cons_append, nestedQuantifierFrom_letter,
      nestedQuantifierFrom_quantifiers, state, ih _ _ unrepeated]
    rfl
  | group capturing body quantifiers rest bodyIh restIh =>
    have inner : Unrepeated (')' :: (quantifiers.map Quantifier.char ++ (rest.text ++ after))) :=
      rfl
    rw [text_group, List.cons_append, nestedQuantifierFrom_opener, bodyIh _ _ inner,
      nestedQuantifierFrom_closer _ _ (unrepeated_text rest unrepeated), restIh _ _ unrepeated,
      quantified_iff, flagged_group]
    -- Before the body no quantifier was read, so behind it the scan is where the body ends
    -- repeated.
    simp only [groups, quantified, Bool.false_eq_true, Bool.false_and, Bool.and_false,
      List.isEmpty_cons, and_false, false_or, true_and]
    grind

/-- The scan of a whole pattern finds what is flagged. -/
theorem hasNestedQuantifier_text (pattern : Pattern) :
    hasNestedQuantifier pattern.text = true ↔ pattern.Flagged := by
  have scan := @nestedQuantifierFrom_text [] false false pattern rfl
  rw [List.append_nil] at scan
  rw [hasNestedQuantifier, scan]
  simp [nestedQuantifierFrom]

/-! ## The other checks -/

/-- The quantifiers of an item have no parentheses. -/
theorem paren_notMem_quantifiers {sign : Char} (isParen : sign = '(' ∨ sign = ')') :
    sign ∉ quantifiers.map Quantifier.char := by
  rintro member
  obtain ⟨quantifier, -, rfl⟩ := List.mem_map.mp member
  cases quantifier <;> simp [Quantifier.char] at isParen

/-- A text without parentheses does not change the depth. -/
theorem nestingFrom_append {word : List Char} (noOpener : '(' ∉ word) (noCloser : ')' ∉ word)
    (depth : Int) (deepest : Nat) :
    nestingFrom depth deepest (word ++ after) = nestingFrom depth deepest after := by
  induction word with
  | nil => rfl
  | cons c others ih =>
    rw [List.mem_cons, not_or] at noOpener noCloser
    rw [List.cons_append, nestingFrom, if_neg (Ne.symm noOpener.1), if_neg (Ne.symm noCloser.1),
      ih noOpener.2 noCloser.2]

/-- The scan for the deepest nesting comes out of a pattern where it came in, having seen its
depth. -/
theorem nestingFrom_text {depth deepest : Nat} (reached : depth ≤ deepest) (pattern : Pattern)
    (after : List Char) :
    nestingFrom depth deepest (pattern.text ++ after) =
      nestingFrom depth (max deepest (depth + pattern.depth)) after := by
  have skip {quantifiers : List Quantifier} {after : List Char} (depth : Int) (deepest : Nat) :
      nestingFrom depth deepest (quantifiers.map Quantifier.char ++ after) =
        nestingFrom depth deepest after :=
    nestingFrom_append (paren_notMem_quantifiers (.inl rfl))
      (paren_notMem_quantifiers (.inr rfl)) depth deepest
  induction pattern generalizing depth deepest after with
  | nil => simp [text, Pattern.depth, Nat.max_eq_left reached]
  | letter c quantifiers rest ih =>
    rw [text_letter, List.cons_append, nestingFrom, if_neg (letter_ne c (by decide)),
      if_neg (letter_ne c (by decide)), skip, ih reached, Pattern.depth]
  | group capturing body quantifiers rest bodyIh restIh =>
    have opens (after : List Char) : nestingFrom depth deepest (opener capturing ++ after) =
        nestingFrom (depth + 1 : Nat) (max deepest (depth + 1)) after := by
      cases capturing <;> simp [opener, nestingFrom]
    have back : ((depth + 1 : Nat) : Int) - 1 = depth := by omega
    rw [text_group, List.cons_append, opens, bodyIh (by omega), nestingFrom, if_neg (by decide),
      if_pos rfl, skip, back, restIh (by omega), Pattern.depth]
    congr 1
    omega

/-- The deepest nesting is the depth. -/
theorem nesting_text (pattern : Pattern) : nesting pattern.text = pattern.depth := by
  have scan := nestingFrom_text (Nat.le_refl 0) pattern []
  rw [List.append_nil] at scan
  simpa [nesting, nestingFrom] using scan

/-- What counts the starts of some groups only, and passes texts without opening parentheses, counts
these groups. -/
theorem count_text {count : List Char → Nat} {counted : Bool → Bool}
    (passes : ∀ {word : List Char}, '(' ∉ word → ∀ after, count (word ++ after) = count after)
    (opens : ∀ (capturing : Bool) {after : List Char}, Unrepeated after →
      count (opener capturing ++ after) = (counted capturing).toNat + count after)
    (pattern : Pattern) (unrepeated : Unrepeated after) :
    count (pattern.text ++ after) = pattern.groups.countP (counted ·.capturing) + count after := by
  have noOpener {quantifiers : List Quantifier} : '(' ∉ quantifiers.map Quantifier.char :=
    paren_notMem_quantifiers (.inl rfl)
  induction pattern generalizing after with
  | nil => simp [text, groups]
  | letter c quantifiers rest ih =>
    have plain : '(' ∉ c.char :: quantifiers.map Quantifier.char := by
      simp [noOpener, Ne.symm (letter_ne c (by decide : '(' ∈ signs))]
    rw [text_letter, passes plain, ih unrepeated, groups]
  | group capturing body quantifiers rest bodyIh restIh =>
    have plain : '(' ∉ ')' :: quantifiers.map Quantifier.char := by
      simp [noOpener]
    have inner : Unrepeated ((')' :: quantifiers.map Quantifier.char) ++ (rest.text ++ after)) :=
      rfl
    rw [text_group, opens capturing (unrepeated_text body inner), bodyIh inner, passes plain,
      restIh unrepeated, groups, List.countP_cons, List.countP_append]
    cases counted capturing <;> simp <;> omega

/-- What goes on with no quantifier does not go on with a question mark. -/
theorem Unrepeated.not_prefix {word : List Char} (unrepeated : Unrepeated after) :
    ¬ '?' :: word <+: after := by
  rintro ⟨others, rfl⟩
  cases unrepeated

/-- The capturing groups of a pattern are counted. -/
theorem groups_text (pattern : Pattern) : Regex.groups pattern.text = pattern.captures := by
  have openers : Text.occurrences ['('] pattern.text = pattern.groups.length := by
    have count :=
      @count_text [] (Text.occurrences ['(']) (fun _ => true) Text.occurrences_append ?_ pattern rfl
    · simpa [Text.occurrences, Text.occurrencesFrom] using count
    · intro capturing after _
      rw [Bool.toNat_true, Nat.add_comm]
      cases capturing with
      | true => exact Text.occurrences_append_self (by simp) after
      | false =>
        rw [← @Text.occurrences_append [] ['?', ':'] '(' (by decide) after]
        exact Text.occurrences_append_self (by simp) (['?', ':'] ++ after)
  have others : Text.occurrences ['(', '?', ':'] pattern.text =
      pattern.groups.countP (!·.capturing) := by
    have count :=
      @count_text [] (Text.occurrences ['(', '?', ':']) (!·) Text.occurrences_append ?_ pattern rfl
    · simpa [Text.occurrences, Text.occurrencesFrom] using count
    · intro capturing after unrepeated
      cases capturing with
      | true =>
        rw [Bool.not_true, Bool.toNat_false, Nat.zero_add]
        refine Text.occurrences_cons ?_
        simpa using unrepeated.not_prefix
      | false =>
        rw [Bool.not_false, Bool.toNat_true, Nat.add_comm]
        exact Text.occurrences_append_self (by simp) after
  have both :=
    List.length_eq_countP_add_countP (fun group : Grouped => group.capturing) (l := pattern.groups)
  rw [Regex.groups, openers, others, both, captures]
  simp

/-- No construct that is refused is in the text of a pattern. -/
theorem not_refused_text (pattern : Pattern) : ¬Refused pattern.text := by
  rintro ⟨mark, member, occurs⟩
  obtain ⟨-, -, differs⟩ := refusedMark_free member
  have starts : ∀ mark ∈ refusedMarks, mark.head? = some '?' := by decide
  obtain ⟨word, rfl⟩ := List.head?_eq_some_iff.mp (starts mark member)
  -- Occurrences are counted as one or none: no opener adds one, because its mark is another.
  have count := @count_text [] (fun text => if '(' :: '?' :: word <:+: text then 1
    else 0) (fun _ => false) ?_ ?_
    pattern rfl
  · simp [occurs] at count
  · intro piece noOpener after
    exact if_congr (Text.infix_append noOpener after) rfl rfl
  · intro capturing after unrepeated
    rw [Bool.toNat_false, Nat.zero_add]
    refine if_congr ?_ rfl rfl
    cases capturing with
    | true =>
      show '(' :: '?' :: word <:+: '(' :: after ↔ _
      rw [List.infix_cons_iff, List.cons_prefix_cons, or_iff_right]
      exact fun before => unrepeated.not_prefix before.2
    | false =>
      show '(' :: '?' :: word <:+: '(' :: (['?', ':'] ++ after) ↔ _
      rw [List.infix_cons_iff, List.cons_prefix_cons, Text.infix_append (by decide), or_iff_right]
      exact fun before => differs after before.2

/-- The text of a pattern has no null byte. -/
theorem null_notMem_text (pattern : Pattern) : '\x00' ∉ pattern.text := by
  have quantifiers {quantifiers : List Quantifier} : '\x00' ∉ quantifiers.map Quantifier.char := by
    intro member
    obtain ⟨quantifier, -, same⟩ := List.mem_map.mp member
    cases quantifier <;> cases same
  induction pattern with
  | nil => simp [text]
  | letter c list rest ih =>
    have other := letter_ne c (by decide : '\x00' ∈ signs)
    simp only [text, List.mem_cons, List.mem_append, not_or]
    exact ⟨Ne.symm other, quantifiers, ih⟩
  | group capturing body list rest bodyIh restIh =>
    simp only [text, List.mem_cons, List.mem_append, not_or]
    exact ⟨by cases capturing <;> decide, bodyIh, by decide, quantifiers, restIh⟩

/-- The text of a pattern starts with no flag. -/
theorem splitFlag_text (pattern : Pattern) : splitFlag pattern.text = (pattern.text, false) := by
  unfold splitFlag
  split
  next rest same =>
    refine absurd ⟨['?', 'i'], by decide, ?_⟩ (not_refused_text pattern)
    rw [same]
    exact (List.prefix_append ['(', '?', 'i'] (')' :: rest)).isInfix
  · rfl

end Pattern

open Pattern

/-- **The verdict on a pattern of letters and groups.** -/
theorem validate_text (pattern : Pattern) :
    validate pattern.text =
      if lengthLimit < pattern.text.length then .error (.regex (.tooLong pattern.text.length))
      else if pattern.Flagged then .error (.regex (.nestedQuantifier (String.ofList pattern.text)))
      else if nestingLimit < pattern.depth then .error (.regex (.tooDeep pattern.depth))
      else if groupLimit < pattern.captures then .error (.regex (.tooManyGroups pattern.captures))
      else .ok ⟨pattern.text, false⟩ := by
  have supported := not_refused_text pattern
  rw [refused_iff, not_or, not_or] at supported
  unfold validate screen
  rw [splitFlag_text]
  simp only [supported.1, supported.2.1, supported.2.2, hasNestedQuantifier_text,
    nesting_text, groups_text]
  simp [null_notMem_text]

/-- What is flagged is nested. -/
theorem Pattern.Flagged.nests {pattern : Pattern} (flagged : pattern.Flagged) : pattern.Nests := by
  obtain ⟨group, member, repeated, -, quantifiers, isLast, given⟩ := flagged
  exact ⟨group, member, repeated, quantifiers, List.mem_of_getLast? isLast, given⟩

/-- **Of the nested repetitions, those at the end of innermost groups are refused.** A pattern of
letters and groups within the limits is refused by all dialects with regular expressions if a group
that is repeated consists of letters of which the last one is repeated, and accepted otherwise. No
pattern without nested repetitions is refused. -/
theorem convertRegex_nested {pattern : Pattern} (short : pattern.text.length ≤ lengthLimit)
    (shallow : pattern.depth ≤ nestingLimit) (few : pattern.captures ≤ groupLimit) :
    (pattern.Flagged → pattern.Nests) ∧
      ∀ dialect ∈ [Dialect.postgresql, .mysql, .duckdb, .bigquery],
        dialect.convertRegex (String.ofList pattern.text) =
          if pattern.Flagged then .error (.regex (.nestedQuantifier (String.ofList pattern.text)))
          else .ok ⟨dialect.withClasses (captureAll pattern.text), false⟩ := by
  refine ⟨Pattern.Flagged.nests, fun dialect member => ?_⟩
  have known : dialect ≠ .sqlite := by
    rintro rfl
    simp at member
  rw [Dialect.convertRegex_eq known, String.toList_ofList, validate_text,
    if_neg (Nat.not_lt.mpr short), if_neg (Nat.not_lt.mpr shallow), if_neg (Nat.not_lt.mpr few)]
  split <;> rfl

/-- A group in a group, with a letter before its repetition. -/
theorem convertRegex_nested_inner :
    [Dialect.postgresql, .mysql, .duckdb, .bigquery].map (·.convertRegex "(?:a(bc*)+)") =
      List.replicate 4 (.error (.regex (.nestedQuantifier "(?:a(bc*)+)"))) := by
  let inner : Pattern := .letter ⟨'b', rfl⟩ [] (.letter ⟨'c', rfl⟩ [.star] .nil)
  let pattern : Pattern :=
    .group false (.letter ⟨'a', rfl⟩ [] (.group true inner [.plus] .nil)) [] .nil
  have text : String.ofList pattern.text = "(?:a(bc*)+)" := by decide
  have flagged : pattern.Flagged := by decide
  obtain ⟨-, each⟩ := @convertRegex_nested pattern (by decide) (by decide) (by decide)
  refine List.map_eq_replicate_iff.mpr fun dialect member => ?_
  rw [← text, each dialect member, if_pos flagged]

/-- **Other nested repetitions are accepted**: with a letter behind the inner one, with a group
around it, and with a group before it. -/
theorem nested_repetitions_accepted :
    let a : Letter := ⟨'a', rfl⟩
    let b : Letter := ⟨'b', rfl⟩
    ∀ entry ∈ [(Pattern.group true (.letter a [.plus] (.letter b [] .nil)) [.plus] .nil, "(a+b)+"),
        (Pattern.group true (.group true (.letter a [.plus] .nil) [] .nil) [.plus] .nil, "((a+))+"),
        (Pattern.group true (.group true (.letter b [] .nil) [] (.letter a [.plus] .nil))
          [.plus] .nil, "((b)a+)+")],
      String.ofList entry.1.text = entry.2 ∧ entry.1.Nests ∧
        ∀ dialect ∈ [Dialect.postgresql, .mysql, .duckdb, .bigquery],
          dialect.convertRegex entry.2 = .ok ⟨entry.2.toList, false⟩ := by
  decide +kernel

end Regex

end CelWhere
