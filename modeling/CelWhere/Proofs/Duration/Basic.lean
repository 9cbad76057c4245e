import CelWhere.Proofs.Duration.Search

/-! # Reading duration texts

A duration text should be made of components, a count and the mark of a unit each. In such a text
the search finds the components and nothing else; in any other one it passes over what it does not
look for.

* `Duration.Component`, `Duration.written` — components and the texts that they make;
* `Duration.found_written` — what is found in such a text;
* `Duration.isWritten_iff` — a text consists of components if all of its characters are found. -/

namespace CelWhere.Duration

variable {units : List TimeUnit}

open Integer (digitLimit)

variable {unit : TimeUnit} {text : List Char}

/-! ## Components -/

/-- A component of a duration text: a count and a mark of its unit. -/
structure Component extends Count where
  /-- The spelling of the unit. -/
  mark : List Char
  /-- A count has digits. -/
  given : digits ≠ []
  /-- A count has nothing else. -/
  numeric : digits.all Text.isDecimalDigit
  /-- The mark is one of the unit. -/
  spelled : mark ∈ unit.marks

/-- The characters of a component. -/
def Component.chars (part : Component) : List Char :=
  part.digits ++ part.mark

/-- The text of components one after the other. -/
def written (parts : List Component) : List Char :=
  parts.flatMap Component.chars

variable (part : Component)

theorem written_cons (rest : List Component) :
    written (part :: rest) = part.chars ++ written rest :=
  List.flatMap_cons

/-- Digits are read one after the other. -/
theorem countOf?_digits {digits : List Char} (numeric : ∀ c ∈ digits, Text.isDecimalDigit c)
    (run : List Char) :
    countOf? unit run (digits ++ text) = countOf? unit (digits.reverse ++ run) text := by
  induction digits generalizing run with
  | nil => rfl
  | cons head rest ih =>
    rw [List.cons_append, countOf?, if_pos (numeric head (.head _)),
      ih (fun c member => numeric c (.tail _ member))]
    simp

/-- A component is what the search for its unit ends at, and is passed by that for another unit. -/
theorem countOf?_component (apart : part.unit = .minute → text.head? ≠ some 's') :
    countOf? unit [] (part.chars ++ text) = if part.unit = unit then some part.digits
      else countOf? unit [] text := by
  have marked := @TimeUnit.isMarkedBy_mark unit _ _ _ part.spelled apart
  obtain ⟨first, others, spelled, noDigit, tail⟩ := TimeUnit.exists_of_mem_marks part.spelled
  rw [spelled, List.cons_append] at marked
  rw [Component.chars, List.append_assoc, countOf?_digits (List.all_eq_true.mp part.numeric),
    spelled, List.cons_append, countOf?, if_neg (by simp [noDigit]), marked]
  by_cases same : part.unit = unit
  · simp [same, part.given]
  · -- The other characters of the mark have no digits before them.
    have passed : countOf? unit [] (others ++ text) = countOf? unit [] text := by
      rcases tail with rfl | rfl
      · rfl
      · have noDigit : Text.isDecimalDigit 's' = false := by decide
        simp [countOf?, noDigit]
    simp [same, passed]

variable (parts : List Component)

/-- Components go on with no letter of seconds. -/
theorem head?_written : (written parts).head? ≠ some 's' := by
  cases parts with
  | nil => simp [written]
  | cons part rest =>
    obtain ⟨first, others, spelled⟩ := List.exists_cons_of_ne_nil part.given
    have digit := List.all_eq_true.mp part.numeric first (by simp [spelled])
    have other : first ≠ 's' := by
      rintro rfl
      exact absurd digit (by decide)
    simp [written, Component.chars, spelled, other]

/-- The search in a text of components finds the first one of the unit. -/
theorem countOf?_written :
    countOf? unit [] (written parts) = (parts.find? (·.unit = unit)).map (·.digits) := by
  induction parts with
  | nil => rfl
  | cons part rest ih =>
    rw [written_cons, countOf?_component part fun _ => head?_written rest, ih, List.find?_cons]
    by_cases same : part.unit = unit <;> simp [same]

/-- **In a text of components with different units nothing else is found.** -/
theorem found_written {parts : List Component} (distinct : (parts.map (·.unit)).Nodup) :
    (found (written parts)).Perm (parts.map (·.toCount)) := by
  have distinctCounts : (parts.map (·.toCount)).Nodup := by
    refine List.Nodup.of_map Count.unit ?_
    rwa [List.map_map]
  refine (List.perm_ext_iff_of_nodup (nodup_found _) distinctCounts).mpr fun count => ?_
  rw [mem_found, ← @countOf?_eq_some_iff count.unit, countOf?_written, Option.map_eq_some_iff,
    List.mem_map]
  constructor
  · rintro ⟨part, isFound, sameDigits⟩
    have sameUnit : part.unit = count.unit := by simpa using List.find?_some isFound
    have same : part.toCount = ⟨count.unit, count.digits⟩ := by rw [← sameUnit, ← sameDigits]
    exact ⟨part, List.mem_of_find?_eq_some isFound, same⟩
  · rintro ⟨part, member, rfl⟩
    obtain ⟨other, isFound⟩ : ∃ other, parts.find? (·.unit = part.unit) = some other :=
      Option.isSome_iff_exists.mp (List.find?_isSome.mpr ⟨part, member, by simp⟩)
    have sameUnit : other.unit = part.unit := by simpa using List.find?_some isFound
    obtain rfl :=
      List.inj_on_of_nodup_map distinct (List.mem_of_find?_eq_some isFound) member sameUnit
    exact ⟨other, isFound, rfl⟩

/-! ## Texts of components only -/

/-- A text consists of components with different units. -/
def IsWritten (text : List Char) : Prop :=
  ∃ parts : List Component, (parts.map (·.unit)).Nodup ∧ text = written parts

/-- The number of characters of a count and its mark. -/
def Count.length (count : Count) : Nat :=
  count.digits.length + count.unit.markLength

/-- The characters that counts and their marks take. -/
def covered (counts : List Count) : Nat :=
  (counts.map Count.length).foldr (· + ·) 0

/-- One more count takes its own characters. -/
theorem covered_cons (count : Count) (rest : List Count) :
    covered (count :: rest) = count.length + covered rest := rfl

/-- The order of counts does not matter for the characters that they take. -/
theorem covered_perm {counts others : List Count} (perm : counts.Perm others) :
    covered counts = covered others :=
  (perm.map Count.length).foldr_eq 0

/-- A component takes the characters of its count and its mark. -/
theorem Component.length_chars : part.chars.length = part.toCount.length := by
  rw [chars, List.length_append, TimeUnit.length_of_mem_marks part.spelled, Count.length]

/-- Components take all the characters of their text. -/
theorem covered_toCount : covered (parts.map (·.toCount)) = (written parts).length := by
  induction parts with
  | nil => rfl
  | cons part rest ih =>
    rw [List.map_cons, covered_cons, ih, written_cons, List.length_append, part.length_chars]

/-- A text starts with digits, which another character ends. -/
theorem exists_digits_append (text : List Char) :
    ∃ run tail, text = run ++ tail ∧ (∀ c ∈ run, Text.isDecimalDigit c) ∧
      ∀ c ∈ tail.head?, Text.isDecimalDigit c = false := by
  induction text with
  | nil => exact ⟨[], [], by simp⟩
  | cons head rest ih =>
    by_cases digit : Text.isDecimalDigit head
    · obtain ⟨run, tail, rfl, numeric, ends⟩ := ih
      exact ⟨head :: run, tail, rfl, List.forall_mem_cons.mpr ⟨digit, numeric⟩, ends⟩
    · exact ⟨[], head :: rest, rfl, by simp, by simpa using digit⟩

/-- Behind digits that end without the mark of a unit, the search starts again. -/
theorem countOf?_unmarked {run rest : List Char} {head : Char}
    (numeric : ∀ c ∈ run, Text.isDecimalDigit c) (noDigit : Text.isDecimalDigit head = false)
    (unmarked : run = [] ∨ unit.isMarkedBy (head :: rest) = false) :
    countOf? unit [] (run ++ head :: rest) = countOf? unit [] rest := by
  have goesOn : (!(run.reverse ++ []).isEmpty && unit.isMarkedBy (head :: rest)) = false := by
    rcases unmarked with rfl | unmarked
    · rfl
    · rw [unmarked, Bool.and_false]
  rw [countOf?_digits numeric, countOf?, if_neg (by simp [noDigit]), goesOn, if_neg (by simp)]

/-- Where another component is found first, the units behind it are found in what follows. -/
theorem foundOf_component (distinct : units.Nodup) (part : Component) (member : part.unit ∈ units)
    (apart : part.unit = .minute → text.head? ≠ some 's') :
    (foundOf (part.chars ++ text) units).Perm
      (part.toCount :: foundOf text (units.erase part.unit)) := by
  have first : countOf? part.unit [] (part.chars ++ text) = some part.digits := by
    rw [countOf?_component part apart, if_pos rfl]
  have others : foundOf (part.chars ++ text) (units.erase part.unit) =
      foundOf text (units.erase part.unit) := by
    refine List.filterMap_congr fun unit isOther => ?_
    have different : part.unit ≠ unit := fun same => (distinct.mem_erase_iff.mp isOther).1 same.symm
    rw [countOf?_component part apart, if_neg different]
  refine ((List.perm_cons_erase member).filterMap _).trans ?_
  rw [List.filterMap_cons_some (by rw [first]; rfl)]
  exact .cons _ (.of_eq others)

/-- **What is found does not overlap.** The counts of different units take no more characters than
the text has, and all of them only if the text consists of components. -/
theorem covered_foundOf (distinct : units.Nodup) :
    covered (foundOf text units) ≤ text.length ∧ (covered (foundOf text units) = text.length →
      ∃ parts : List Component, (parts.map (·.unit)).Nodup ∧ (∀ part ∈ parts, part.unit ∈ units) ∧
      text = written parts) := by
  -- The text is taken apart from its start: digits, the character that ends them and what follows.
  induction length : text.length using Nat.strong_induction_on generalizing text units with
  | h bound ih =>
    obtain ⟨run, tail, rfl, numeric, ends⟩ := exists_digits_append text
    by_cases marked : run ≠ [] ∧ ∃ unit ∈ units, unit.isMarkedBy tail
    · -- A component is found first, and the other units in what follows it.
      obtain ⟨given, unit, member, isMarked⟩ := marked
      obtain ⟨mark, isMark, rest, rfl, apart⟩ := TimeUnit.isMarkedBy_iff.mp isMarked
      let part : Component := ⟨⟨unit, run⟩, mark, given, List.all_eq_true.mpr numeric, isMark⟩
      have whole : run ++ (mark ++ rest) = part.chars ++ rest :=
        (List.append_assoc run mark rest).symm
      have positive : 0 < part.toCount.length := Nat.lt_add_right _ (List.length_pos_iff.mpr given)
      rw [whole, List.length_append, part.length_chars] at length
      rw [whole, covered_perm (foundOf_component distinct part member apart), covered_cons]
      obtain ⟨atMost, tiled⟩ := ih rest.length (by omega) (distinct.erase part.unit) rfl
      refine ⟨by omega, fun all => ?_⟩
      obtain ⟨parts, different, among, rfl⟩ := tiled (by omega)
      have others : ∀ other ∈ parts, other.unit ≠ unit ∧ other.unit ∈ units := fun other isOther =>
        distinct.mem_erase_iff.mp (among other isOther)
      refine ⟨part :: parts, List.nodup_cons.mpr ⟨?_, different⟩,
        List.forall_mem_cons.mpr ⟨member, ?_⟩, (written_cons part parts).symm⟩
      · intro again
        obtain ⟨other, isOther, same⟩ := List.mem_map.mp again
        exact (others other isOther).1 same
      · exact fun other isOther => (others other isOther).2
    · cases tail with
      | nil =>
        have nothing : foundOf (run ++ []) units = [] := by
          refine List.filterMap_eq_nil_iff.mpr fun unit _ => ?_
          rw [countOf?_digits numeric]
          rfl
        rw [nothing]
        refine ⟨Nat.zero_le _, fun all => ⟨[], by simp, by simp, ?_⟩⟩
        exact List.eq_nil_of_length_eq_zero (length.trans all.symm)
      | cons head rest =>
        -- The character that ends the digits is passed, and is not covered by what is found behind
        -- it.
        have later : foundOf (run ++ head :: rest) units = foundOf rest units := by
          refine List.filterMap_congr fun unit isUnit => ?_
          rw [countOf?_unmarked numeric (ends head rfl)]
          by_contra other
          rw [not_or, Bool.not_eq_false] at other
          exact marked ⟨other.1, unit, isUnit, other.2⟩
        rw [List.length_append, List.length_cons] at length
        obtain ⟨atMost, -⟩ := ih rest.length (by omega) distinct rfl
        rw [later]
        exact ⟨by omega, fun all => by omega⟩

/-- **A text consists of components exactly if all of it is found.** -/
theorem isWritten_iff {text : List Char} : IsWritten text ↔ covered (found text) = text.length := by
  constructor
  · rintro ⟨parts, distinct, rfl⟩
    rw [covered_perm (found_written distinct), covered_toCount]
  · intro all
    obtain ⟨parts, distinct, -, same⟩ := (covered_foundOf (by decide)).2 all
    exact ⟨parts, distinct, same⟩

instance (text : List Char) : Decidable (IsWritten text) :=
  decidable_of_iff _ isWritten_iff.symm

/-! ## Reading durations -/

/-- The value of ASCII digits. -/
theorem Count.value_of_plain {count : Count} (plain : count.digits.all Text.isPlainDigit) :
    count.value = Nat.ofDigitChars 10 count.digits 0 := by
  have each : ∀ code < 58, 48 ≤ code → Text.digitValue? (Char.ofNat code) = some (code - 48) :=
    by decide
  have known : ∀ c ∈ count.digits, Text.digitValue? c = some (c.toNat - '0'.toNat) := by
    intro c member
    have digit := List.all_eq_true.mp plain c member
    simp only [Text.isPlainDigit, Bool.and_eq_true, decide_eq_true_eq, Char.le_def,
      UInt32.le_iff_toNat_le, Char.reduceVal, UInt32.reduceToNat] at digit
    have value := each c.toNat (Nat.lt_succ_of_le digit.2) digit.1
    rwa [Char.ofNat_toNat] at value
  have values : count.digits.filterMap Text.digitValue? =
      count.digits.map fun c => c.toNat - '0'.toNat :=
    (List.filterMap_congr known).trans (congrFun List.filterMap_eq_map _)
  rw [Count.value, values, Integer.ofDigits, List.foldl_map, Nat.ofDigitChars_eq_foldl]
  simp only [Nat.mul_comm 10]

/-- **Components are read exactly.** A text of components with different units, in any order, whose
counts are fewer than 4300 digits of ASCII, is read as the sum of its components in the coarsest
unit that divides it, and refused if the sum is zero. -/
theorem read_written {parts : List Component} (distinct : (parts.map (·.unit)).Nodup)
    (plain : ∀ part ∈ parts, part.digits.all Text.isPlainDigit)
    (short : ∀ part ∈ parts, part.digits.length < 4300) :
    let text := String.ofList (written parts)
    let sum :=
      (parts.map fun part => Nat.ofDigitChars 10 part.digits 0 * part.unit.nanoseconds).foldr
        (· + ·) 0
    (sum ≠ 0 → ∃ duration, read text = .ok duration ∧ duration.Expresses sum) ∧
      (sum = 0 → read text = .error (.invalidDuration text)) := by
  intro text sum
  have perm : (found text.toList).Perm (parts.map (·.toCount)) := by
    rw [String.toList_ofList]
    exact found_written distinct
  have sameTotal : total (found text.toList) = sum := by
    rw [total_perm perm, total, List.map_map]
    have values : parts.map (Count.nanoseconds ∘ (·.toCount)) =
        parts.map fun part => Nat.ofDigitChars 10 part.digits 0 * part.unit.nanoseconds :=
      List.map_congr_left fun part member => by
        rw [Function.comp, Count.nanoseconds, Count.value_of_plain (plain part member)]
    rw [values]
  have shortCounts : ∀ count ∈ found text.toList, count.digits.length ≤ digitLimit := by
    intro count member
    obtain ⟨part, isPart, rfl⟩ := List.mem_map.mp (perm.mem_iff.mp member)
    exact Nat.le_of_lt (short part isPart)
  have result := read_of_short shortCounts
  rw [sameTotal] at result
  refine ⟨fun some => ⟨_, ?_, expresses_iff.mpr rfl⟩, fun zero => ?_⟩
  · rw [result, if_neg some]
  · rw [result, if_pos zero]

/-- Minutes before hours, a leading zero, and a letter beyond ASCII. -/
theorem read_written_mixed : read "030m1h250µs" = .ok ⟨5400000250, .microsecond⟩ := by
  let parts : List Component :=
    [⟨⟨.minute, ['0', '3', '0']⟩, ['m'], by decide, by decide, by decide⟩,
      ⟨⟨.hour, ['1']⟩, ['h'], by decide, by decide, by decide⟩,
      ⟨⟨.microsecond, ['2', '5', '0']⟩, ['µ', 's'], by decide, by decide, by decide⟩]
  have text : String.ofList (written parts) = "030m1h250µs" := by decide
  obtain ⟨nonzero, -⟩ := @read_written parts (by decide) (by decide) (by decide)
  obtain ⟨duration, result, expresses⟩ := nonzero (by decide)
  obtain rfl : duration = ⟨5400000250, .microsecond⟩ :=
    (expresses_iff.mp expresses).trans (by decide +kernel)
  rw [← text]
  exact result

/-- **Only what is found counts.** Of any text, the first counts of the units are found. It is
refused exactly if all of them are zero, and otherwise read as their sum in the coarsest unit that
divides it, unless one of them is too long. It consists of components exactly if all of it is found;
in any other text, what is not found is passed over. -/
theorem read_found (text : String) :
    let counts := found text.toList
    (∀ count, count ∈ counts ↔ count.IsFirst text.toList) ∧
      (IsWritten text.toList ↔ covered counts = text.length) ∧
      (read text = .error (.invalidDuration text) ↔
        ∀ count ∈ counts, count.digits.length ≤ digitLimit ∧ count.value = 0) ∧
      (∀ duration, read text = .ok duration ↔
        (∀ count ∈ counts, count.digits.length ≤ digitLimit) ∧ total counts ≠ 0 ∧
        duration.Expresses (total counts)) := by
  intro counts
  rw [← String.length_toList]
  refine ⟨fun count => mem_found, isWritten_iff, ?_⟩
  by_cases short : ∀ count ∈ counts, count.digits.length ≤ digitLimit
  · have result := read_of_short short
    have zero : (∀ count ∈ counts, count.digits.length ≤ digitLimit ∧ count.value = 0) ↔
        total counts = 0 := by
      rw [total_eq_zero]
      exact forall₂_congr fun count member => and_iff_right (short count member)
    rw [zero]
    by_cases nothing : total counts = 0
    · rw [result, if_pos nothing]
      exact ⟨iff_of_true rfl nothing, fun duration => iff_of_false (by simp) fun given =>
        given.2.1 nothing⟩
    · rw [result, if_neg nothing]
      refine ⟨iff_of_false (by simp) nothing, fun duration => ?_⟩
      rw [expresses_iff, Except.ok.injEq, eq_comm]
      exact ⟨fun same => ⟨short, nothing, same⟩, fun given => given.2.2⟩
  · -- A count that is too long is neither refused nor read.
    obtain ⟨count, member, long⟩ : ∃ count ∈ counts, digitLimit < count.digits.length :=
      by simpa using short
    obtain ⟨run, failed⟩ := read_of_long member long
    rw [failed]
    refine ⟨iff_of_false (by simp) fun zero => short fun other isOther => (zero other isOther).1,
      fun duration => ?_⟩
    exact iff_of_false (by simp) fun given => short given.1

/-- **Malformed texts are read**: with a sign, with a point, with a unit twice and with other text
around. -/
theorem malformed_read :
    (¬IsWritten "-5m".toList ∧ read "-5m" = .ok ⟨5, .minute⟩) ∧
      (¬IsWritten "1.5h".toList ∧ read "1.5h" = .ok ⟨5, .hour⟩) ∧
      (¬IsWritten "1h2h".toList ∧ read "1h2h" = .ok ⟨1, .hour⟩) ∧
      (¬IsWritten "in 5m or so".toList ∧ read "in 5m or so" = .ok ⟨5, .minute⟩) := by
  decide +kernel

end CelWhere.Duration
