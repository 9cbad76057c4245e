import CelWhere.Proofs.Blame.Number
import Mathlib.Data.List.Nodup
import Mathlib.Data.List.Perm.Basic

/-! # Searching duration texts

Every unit is searched for by itself in a duration text, and the first count before its mark is
taken wherever it stands. So a text is read by the first counts of the units.

* `TimeUnit.Marks` — the mark of a unit stands at the start of a text;
* `TimeUnit.IsCoarsest`, `Duration.Expresses` — a number of nanoseconds in its coarsest unit;
* `Duration.Count.IsFirst` — the first count of its unit in a text;
* `Duration.countOf?_eq_some_iff`, `Duration.mem_found` — the search finds exactly the first counts;
* `Duration.read_of_short`, `Duration.read_of_long` — what is read is their sum, unless one of them
  is too long. -/

namespace CelWhere

/-! ## Marks of units -/

namespace TimeUnit

variable {unit : TimeUnit} {text mark : List Char}

/-- The spellings of a unit. -/
def marks : TimeUnit → List (List Char)
  | .hour => [['h']]
  | .minute => [['m']]
  | .second => [['s']]
  | .millisecond => [['m', 's']]
  | .microsecond => [['u', 's'], ['µ', 's']]
  | .nanosecond => [['n', 's']]

/-- A text starts with a mark of the unit. That of minutes is not the start of one of
milliseconds. -/
def Marks (unit : TimeUnit) (text : List Char) : Prop :=
  ∃ mark ∈ unit.marks, ∃ rest, text = mark ++ rest ∧ (unit = .minute → rest.head? ≠ some 's')

/-- Units are told by their marks. -/
theorem isMarkedBy_iff : unit.isMarkedBy text ↔ unit.Marks text := by
  have marked {unit : TimeUnit} (mark : List Char) (isMark : mark ∈ unit.marks)
      (other : unit ≠ .minute)
      (rest : List Char) : unit.Marks (mark ++ rest) :=
        ⟨mark, isMark, rest, rfl, fun same => absurd same other⟩
  unfold isMarkedBy
  split
  case h_1 rest => exact iff_of_true rfl (marked ['h'] (by decide) (by decide) rest)
  case h_2 rest => simp [Marks, marks]
  case h_3 rest other =>
    refine iff_of_true rfl ⟨['m'], by decide, rest, rfl, fun _ starts => ?_⟩
    obtain ⟨behind, rfl⟩ := List.head?_eq_some_iff.mp starts
    exact other behind rfl
  case h_4 rest => exact iff_of_true rfl (marked ['s'] (by decide) (by decide) rest)
  case h_5 rest => exact iff_of_true rfl (marked ['m', 's'] (by decide) (by decide) rest)
  case h_6 rest => exact iff_of_true rfl (marked ['u', 's'] (by decide) (by decide) rest)
  case h_7 rest => exact iff_of_true rfl (marked ['µ', 's'] (by decide) (by decide) rest)
  case h_8 rest => exact iff_of_true rfl (marked ['n', 's'] (by decide) (by decide) rest)
  case h_9 hours _ minutes seconds milliseconds microseconds others nanoseconds =>
    refine iff_of_false (by simp) ?_
    rintro ⟨mark, isMark, rest, rfl, -⟩
    cases unit with
    | microsecond =>
      rcases (by simpa [marks] using isMark : mark = ['u', 's'] ∨ mark = ['µ', 's']) with rfl | rfl
      · exact microseconds rest rfl rfl
      · exact others rest rfl rfl
    | hour | minute | second | millisecond | nanosecond =>
      obtain rfl := List.mem_singleton.mp isMark
      simp_all

/-- A mark is one character that is no digit, or such a character and the letter of seconds. -/
theorem exists_of_mem_marks (isMark : mark ∈ unit.marks) :
    ∃ first others, mark = first :: others ∧ Text.isDecimalDigit first = false ∧
      (others = [] ∨ others = ['s']) := by
  cases unit with
  | microsecond =>
    rcases (by simpa [marks] using isMark : mark = ['u', 's'] ∨ mark = ['µ', 's']) with rfl | rfl
    · exact ⟨'u', ['s'], rfl, by decide, .inr rfl⟩
    · exact ⟨'µ', ['s'], rfl, by decide, .inr rfl⟩
  | hour | minute | second | millisecond | nanosecond =>
    obtain rfl := List.mem_singleton.mp isMark
    exact ⟨_, _, rfl, by decide, by simp⟩

/-- What starts with a mark starts with no digit. -/
theorem Marks.exists_cons (marked : unit.Marks text) :
    ∃ first others, text = first :: others ∧ Text.isDecimalDigit first = false := by
  obtain ⟨mark, isMark, rest, rfl, -⟩ := marked
  obtain ⟨first, others, rfl, noDigit, -⟩ := exists_of_mem_marks isMark
  exact ⟨first, others ++ rest, rfl, noDigit⟩

/-- The number of characters of a mark. -/
def markLength : TimeUnit → Nat
  | .hour | .minute | .second => 1
  | .millisecond | .microsecond | .nanosecond => 2

/-- All spellings of a unit have the same length. -/
theorem length_of_mem_marks (isMark : mark ∈ unit.marks) : mark.length = unit.markLength := by
  have each : ∀ mark ∈ unit.marks, mark.length = unit.markLength := by
    cases unit <;> decide
  exact each mark isMark

/-- A mark is one of its own unit only. -/
theorem isMarkedBy_mark {other : TimeUnit} (isMark : mark ∈ other.marks)
    (apart : other = .minute → text.head? ≠ some 's') :
    unit.isMarkedBy (mark ++ text) = decide (other = unit) := by
  cases other with
  | microsecond =>
    rcases (by simpa [marks] using isMark : mark = ['u', 's'] ∨ mark = ['µ', 's']) with
      rfl | rfl <;> cases unit <;> rfl
  | minute =>
    obtain rfl := List.mem_singleton.mp isMark
    cases text with
    | nil => cases unit <;> rfl
    | cons head rest =>
      have noSecond : head ≠ 's' := by simpa using apart rfl
      cases unit <;> simp [isMarkedBy, noSecond]
  | hour | second | millisecond | nanosecond =>
    obtain rfl := List.mem_singleton.mp isMark
    cases unit <;> rfl

/-! ## The coarsest unit -/

/-- A unit divides a number of nanoseconds, and no coarser one does. -/
def IsCoarsest (unit : TimeUnit) (total : Nat) : Prop :=
  unit.nanoseconds ∣ total ∧ ∀ other : TimeUnit, other.nanoseconds ∣ total →
    other.nanoseconds ≤ unit.nanoseconds

theorem mem_all (unit : TimeUnit) : unit ∈ all := by
  cases unit <;> decide

/-- Only one unit is the coarsest. -/
theorem IsCoarsest.unique {one two : TimeUnit} {total : Nat} (isOne : one.IsCoarsest total)
    (isTwo : two.IsCoarsest total) : one = two := by
  have same : one.nanoseconds = two.nanoseconds :=
    Nat.le_antisymm (isTwo.2 one isOne.1) (isOne.2 two isTwo.1)
  cases one <;> cases two <;> first | rfl | simp [nanoseconds] at same

theorem nanoseconds_pos (unit : TimeUnit) : 0 < unit.nanoseconds := by
  cases unit <;> decide

end TimeUnit

namespace Duration

/-- The first unit that divides a number of nanoseconds is the coarsest one, because coarser units
come first. -/
theorem coarsest_isCoarsest (total : Nat) : (coarsest total).IsCoarsest total := by
  have finest : (TimeUnit.all.find? fun unit => total % unit.nanoseconds = 0).isSome := by
    rw [List.find?_isSome]
    exact ⟨.nanosecond, by decide, by simp [TimeUnit.nanoseconds, Nat.mod_one]⟩
  obtain ⟨unit, isFound⟩ := Option.isSome_iff_exists.mp finest
  have same : coarsest total = unit := by rw [coarsest, isFound, Option.getD_some]
  obtain ⟨divides, coarser, finer, order, none⟩ := List.find?_eq_some_iff_append.mp isFound
  have descending : TimeUnit.all.Pairwise fun one two => two.nanoseconds ≤ one.nanoseconds :=
    by decide
  rw [order] at descending
  rw [same]
  refine ⟨Nat.dvd_of_mod_eq_zero (by simpa using divides), fun other otherDivides => ?_⟩
  have stands := other.mem_all
  rw [order, List.mem_append, List.mem_cons] at stands
  rcases stands with before | rfl | behind
  · simpa [Nat.mod_eq_zero_of_dvd otherDivides] using none other before
  · exact Nat.le_refl _
  · exact (List.pairwise_cons.mp (List.pairwise_append.mp descending).2.1).1 other behind

/-- A duration is a number of nanoseconds in its coarsest unit. -/
structure Expresses (duration : Duration) (total : Nat) : Prop where
  /-- The number of units has that many nanoseconds. -/
  exact : duration.value * duration.unit.nanoseconds = total
  /-- The unit is the coarsest one. -/
  coarsest : duration.unit.IsCoarsest total

/-- There is one duration of a number of nanoseconds. -/
theorem expresses_iff {duration : Duration} {total : Nat} :
    duration.Expresses total ↔
      duration = ⟨total / (coarsest total).nanoseconds, coarsest total⟩ := by
  have isCoarsest := coarsest_isCoarsest total
  constructor
  · obtain ⟨value, unit⟩ := duration
    rintro ⟨exact, isUnit⟩
    have sameUnit : unit = Duration.coarsest total := isUnit.unique isCoarsest
    have quotient : total / unit.nanoseconds = value :=
      Nat.div_eq_of_eq_mul_left unit.nanoseconds_pos exact.symm
    rw [← sameUnit, quotient]
  · rintro rfl
    exact ⟨Nat.div_mul_cancel isCoarsest.1, isCoarsest⟩

open Integer (digitLimit)

/-! ## First counts -/

/-- A count of a unit. -/
structure Count where
  /-- The unit. -/
  unit : TimeUnit
  /-- The digits of the count, of any script. -/
  digits : List Char
  deriving DecidableEq, Repr

/-- A count stands in a text, behind one part of it and before another one that starts with the mark
of its unit. -/
structure Count.StandsIn (count : Count) (text before after : List Char) : Prop where
  /-- The text around the count. -/
  text_eq : text = before ++ (count.digits ++ after)
  /-- A count has digits. -/
  given : count.digits ≠ []
  /-- A count has nothing else. -/
  numeric : ∀ c ∈ count.digits, Text.isDecimalDigit c
  /-- The mark of the unit follows. -/
  marked : count.unit.Marks after

/-- A count is the first one of its unit that stands in a text. -/
def Count.IsFirst (count : Count) (text : List Char) : Prop :=
  ∃ before after, count.StandsIn text before after ∧
    ∀ (other : Count) (earlier later : List Char), other.unit = count.unit →
    other.StandsIn text earlier later →
      before.length ≤ earlier.length

/-- Digits before a text that starts with none are all the digits at the start. -/
theorem digits_append_inj {digits others after rest : List Char}
    (numeric : ∀ c ∈ digits, Text.isDecimalDigit c)
    (othersNumeric : ∀ c ∈ others, Text.isDecimalDigit c)
    (ends : ∃ first behind, after = first :: behind ∧ Text.isDecimalDigit first = false)
    (restEnds : ∃ first behind, rest = first :: behind ∧ Text.isDecimalDigit first = false)
    (same : digits ++ after = others ++ rest) : digits = others ∧ after = rest := by
  have taken {run text : List Char} (each : ∀ c ∈ run, Text.isDecimalDigit c)
      (stops : ∃ first behind, text = first :: behind ∧ Text.isDecimalDigit first = false) :
      (run ++ text).takeWhile Text.isDecimalDigit = run := by
    obtain ⟨first, behind, rfl, noDigit⟩ := stops
    rw [List.takeWhile_append_of_pos each, List.takeWhile_cons_of_neg (by simp [noDigit]),
      List.append_nil]
  have sameDigits : digits = others :=
    by rw [← taken numeric ends, same, taken othersNumeric restEnds]
  exact ⟨sameDigits, List.append_cancel_left (sameDigits ▸ same)⟩

namespace Count

variable {count other : Count} {text before after : List Char}

/-- A unit has one first count in a text. -/
theorem IsFirst.digits_eq (first : count.IsFirst text) (otherFirst : other.IsFirst text)
    (sameUnit : count.unit = other.unit) :
    count.digits = other.digits := by
  obtain ⟨before, after, stands, least⟩ := first
  obtain ⟨earlier, later, otherStands, otherLeast⟩ := otherFirst
  have sameLength : before.length = earlier.length :=
    Nat.le_antisymm (least other _ _ sameUnit.symm otherStands)
      (otherLeast count _ _ sameUnit stands)
  have around := stands.text_eq.symm.trans otherStands.text_eq
  obtain ⟨-, behind⟩ := List.append_inj around sameLength
  exact (digits_append_inj stands.numeric otherStands.numeric stands.marked.exists_cons
    otherStands.marked.exists_cons behind).1

/-- Behind digits that end without the mark of a unit, its counts stand behind the character that
ends them. -/
theorem StandsIn.behind {run rest : List Char} {head : Char}
    (numeric : ∀ c ∈ run, Text.isDecimalDigit c) (noDigit : Text.isDecimalDigit head = false)
    (unmarked : run = [] ∨ ¬count.unit.Marks (head :: rest))
    (stands : count.StandsIn (run ++ head :: rest) before after) :
    ∃ between, before = run ++ head :: between ∧ count.StandsIn rest between after := by
  rcases List.append_eq_append_iff.mp stands.text_eq with ⟨between, rfl, same⟩ | ⟨inside, rfl, same⟩
  · cases between with
    | nil =>
      -- The count would start with the character that is no digit.
      exfalso
      obtain ⟨first, others, spelled⟩ := List.exists_cons_of_ne_nil stands.given
      rw [spelled] at same
      obtain rfl : head = first := by simpa using (List.cons.inj same).1
      have digit := stands.numeric head (by simp [spelled])
      simp [noDigit] at digit
    | cons first between =>
      obtain ⟨rfl, inRest⟩ := List.cons.inj same
      exact ⟨between, rfl, inRest, stands.given, stands.numeric, stands.marked⟩
  · -- The count would be the rest of the digits, before the mark.
    exfalso
    obtain ⟨rfl, rfl⟩ := digits_append_inj stands.numeric
      (fun c member => numeric c (List.mem_append_right _ member)) stands.marked.exists_cons
      ⟨head, rest, rfl, noDigit⟩ same
    rcases unmarked with nothing | unmarked
    · exact stands.given (List.append_eq_nil_iff.mp nothing).2
    · exact unmarked stands.marked

end Count

/-! ## The search -/

variable {unit : TimeUnit} {text : List Char}

/-- **The search is exhaustive.** Behind digits that were already read, it ends at the first count
of the unit, and without one only if there is none. -/
theorem countOf?_spec {run : List Char} (numeric : ∀ c ∈ run, Text.isDecimalDigit c) :
    (∀ digits, countOf? unit run text = some digits →
      Count.IsFirst ⟨unit, digits⟩ (run.reverse ++ text)) ∧
      (countOf? unit run text = none →
        ∀ digits before after, ¬Count.StandsIn ⟨unit, digits⟩
        (run.reverse ++ text) before after) := by
  -- The digits that were read are general in the induction on the text.
  induction text generalizing run with
  | nil =>
    refine ⟨fun digits found => by simp [countOf?] at found, fun _ digits before after stands => ?_⟩
    obtain ⟨first, others, rfl, noDigit⟩ := stands.marked.exists_cons
    have isDigit : Text.isDecimalDigit first := by
      apply numeric
      rw [← List.mem_reverse, ← List.append_nil run.reverse, stands.text_eq]
      simp
    simp [noDigit] at isDigit
  | cons head rest ih =>
    have readNumeric : ∀ c ∈ run.reverse, Text.isDecimalDigit c :=
      fun c member => numeric c (List.mem_reverse.mp member)
    rw [countOf?]
    by_cases digit : Text.isDecimalDigit head
    · rw [if_pos digit]
      have more : ∀ c ∈ head :: run, Text.isDecimalDigit c := by
        rintro c (_ | ⟨_, member⟩)
        · exact digit
        · exact numeric c member
      simpa using ih more
    · rw [if_neg digit]
      have noDigit : Text.isDecimalDigit head = false := Bool.not_eq_true _ ▸ digit
      by_cases ends : !run.isEmpty && unit.isMarkedBy (head :: rest)
      · rw [if_pos ends]
        simp only [Bool.and_eq_true, Bool.not_eq_true', List.isEmpty_eq_false_iff,
          TimeUnit.isMarkedBy_iff] at ends
        refine ⟨fun digits found => ?_, by simp⟩
        obtain rfl := Option.some.inj found
        exact ⟨[], head :: rest, ⟨rfl, by simpa using ends.1, readNumeric, ends.2⟩,
          fun _ _ _ _ _ => Nat.zero_le _⟩
      · rw [if_neg ends]
        have unmarked : run.reverse = [] ∨ ¬unit.Marks (head :: rest) := by
          rw [← TimeUnit.isMarkedBy_iff]
          cases run with
          | nil => exact .inl rfl
          | cons last others => exact .inr (by simpa using ends)
        obtain ⟨found, missing⟩ := @ih [] (by simp)
        rw [List.reverse_nil, List.nil_append] at found missing
        constructor
        · intro digits counted
          obtain ⟨between, after, stands, least⟩ := found digits counted
          refine ⟨run.reverse ++ head :: between, after, ?_, ?_⟩
          · exact ⟨by simp [stands.text_eq], stands.given, stands.numeric, stands.marked⟩
          · intro other earlier behind sameUnit otherStands
            obtain ⟨passed, rfl, otherBehind⟩ :=
              otherStands.behind readNumeric noDigit (by rwa [sameUnit])
            have inRest := least other passed behind sameUnit otherBehind
            simp only [List.length_append, List.length_cons]
            omega
        · intro nothing digits before after stands
          obtain ⟨between, -, behind⟩ := stands.behind readNumeric noDigit unmarked
          exact missing nothing digits between after behind

/-- **The search finds the first counts.** -/
theorem countOf?_eq_some_iff {digits : List Char} :
    countOf? unit [] text = some digits ↔ Count.IsFirst ⟨unit, digits⟩ text := by
  obtain ⟨sound, missing⟩ := @countOf?_spec unit text [] (by simp)
  rw [List.reverse_nil, List.nil_append] at sound missing
  refine ⟨sound digits, fun first => ?_⟩
  cases found : countOf? unit [] text with
  | none =>
    obtain ⟨before, after, stands, -⟩ := first
    exact absurd stands (missing found digits before after)
  | some others =>
    obtain rfl : others = digits := (sound others found).digits_eq first rfl
    rfl

/-! ## The sum of the counts -/

/-- The number that the digits of a count stand for. -/
def Count.value (count : Count) : Nat :=
  Integer.ofDigits 10 (count.digits.filterMap Text.digitValue?)

/-- The nanoseconds of a count. -/
def Count.nanoseconds (count : Count) : Nat :=
  count.value * count.unit.nanoseconds

/-- The nanoseconds of some counts together. -/
def total (counts : List Count) : Nat :=
  (counts.map Count.nanoseconds).foldr (· + ·) 0

/-- The first counts of some units in a text. -/
def foundOf (text : List Char) (units : List TimeUnit) : List Count :=
  units.filterMap fun unit => (countOf? unit [] text).map (Count.mk unit)

/-- The first counts of all units in a text. -/
def found (text : List Char) : List Count :=
  foundOf text TimeUnit.all

/-- **What is found are the first counts of the units.** -/
theorem mem_found {count : Count} : count ∈ found text ↔ count.IsFirst text := by
  rw [← @countOf?_eq_some_iff count.unit, found, foundOf, List.mem_filterMap]
  constructor
  · rintro ⟨unit, -, isFound⟩
    obtain ⟨digits, counted, rfl⟩ := Option.map_eq_some_iff.mp isFound
    exact counted
  · intro counted
    exact ⟨count.unit, count.unit.mem_all, by rw [counted]; rfl⟩

/-- No unit is found twice. -/
theorem nodup_found (text : List Char) : (found text).Nodup := by
  refine List.Nodup.filterMap ?_ (by decide)
  intro one two count isOne isTwo
  obtain ⟨_, -, rfl⟩ := Option.map_eq_some_iff.mp isOne
  obtain ⟨_, -, same⟩ := Option.map_eq_some_iff.mp isTwo
  exact (congrArg Count.unit same).symm

/-- The sum of the first counts of some units, none of which is too long. -/
theorem totalOf_of_short {units : List TimeUnit}
    (short : ∀ count ∈ foundOf text units, count.digits.length ≤ digitLimit) :
    totalOf text units = .ok (total (foundOf text units)) := by
  induction units with
  | nil => rfl
  | cons unit rest ih =>
    cases counted : countOf? unit [] text with
    | none =>
      have same : foundOf text (unit :: rest) = foundOf text rest := by simp [foundOf, counted]
      rw [same] at short ⊢
      rw [totalOf, counted, ih short]
    | some digits =>
      have more : foundOf text (unit :: rest) = ⟨unit, digits⟩ :: foundOf text rest :=
        by simp [foundOf, counted]
      rw [more] at short ⊢
      obtain ⟨before, after, stands, -⟩ := countOf?_eq_some_iff.mp counted
      have later := ih fun count member => short count (.tail _ member)
      have read := Integer.read_digits stands.given stands.numeric
      rw [if_neg (Nat.not_lt.mpr (short _ (.head _)))] at read
      simp only [totalOf, counted, read, later]
      rfl

/-- Where a count is too long, nothing is summed up. -/
theorem totalOf_of_long {units : List TimeUnit} {count : Count}
    (member : count ∈ foundOf text units) (long : digitLimit < count.digits.length) :
    ∃ fault, totalOf text units = .error fault := by
  induction units with
  | nil => simp [foundOf] at member
  | cons unit rest ih =>
    cases counted : countOf? unit [] text with
    | none =>
      have later : count ∈ foundOf text rest := by simpa [foundOf, counted] using member
      rw [totalOf, counted]
      exact ih later
    | some digits =>
      obtain ⟨before, after, stands, -⟩ := countOf?_eq_some_iff.mp counted
      have cases : count = ⟨unit, digits⟩ ∨ count ∈ foundOf text rest :=
        by simpa [foundOf, counted] using member
      rw [totalOf, counted]
      have read := Integer.read_digits stands.given stands.numeric
      rcases cases with rfl | later
      · rw [if_pos long] at read
        exact ⟨_, by simp only [read]; rfl⟩
      · obtain ⟨fault, failed⟩ := ih later
        split at read
        · exact ⟨_, by simp only [read]; rfl⟩
        · exact ⟨fault, by simp only [read, failed]; rfl⟩

/-- Counts have no nanoseconds only if each of them is zero. -/
theorem total_eq_zero {counts : List Count} :
    total counts = 0 ↔ ∀ count ∈ counts, count.value = 0 := by
  induction counts with
  | nil => simp [total]
  | cons count rest ih =>
    have sum : total (count :: rest) = count.nanoseconds + total rest := rfl
    have positive := count.unit.nanoseconds_pos
    rw [sum, Nat.add_eq_zero_iff, ih, List.forall_mem_cons, Count.nanoseconds, Nat.mul_eq_zero]
    simp only [Nat.ne_of_gt positive, or_false]

/-- The order of counts does not matter for their sum. -/
theorem total_perm {counts others : List Count} (perm : counts.Perm others) :
    total counts = total others :=
  (perm.map Count.nanoseconds).foldr_eq 0

/-- **The counts that are found are summed up**, if none of them is too long. -/
theorem read_of_short {text : String}
    (short : ∀ count ∈ found text.toList, count.digits.length ≤ digitLimit) :
    read text =
      if total (found text.toList) = 0 then .error (.invalidDuration text)
      else .ok ⟨total (found text.toList) / (coarsest (total (found text.toList))).nanoseconds,
        coarsest (total (found text.toList))⟩ := by
  have summed : totalOf text.toList TimeUnit.all = .ok (total (found text.toList)) :=
    totalOf_of_short short
  rw [read, summed]

/-- A text in which a count that is found is too long fails, but is not refused. -/
theorem read_of_long {text : String} {count : Count} (member : count ∈ found text.toList)
    (long : digitLimit < count.digits.length) :
    ∃ run : List Char, read text =
      .error (.unreadableInteger .decimal (String.ofList run) (.tooLong run.length)) := by
  obtain ⟨fault, failed⟩ := totalOf_of_long member long
  obtain ⟨run, -, -, rfl⟩ := totalOf_error failed
  exact ⟨run, by rw [read, failed]⟩

end Duration

end CelWhere
