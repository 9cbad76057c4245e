import CelWhere.Proofs.Regex.Rewriting
import Mathlib.Data.List.Basic

/-! # Which patterns are accepted

The checks of a pattern are scans. What they look for is stated here by the texts that occur in the
pattern, and so are the patterns that come out: the checks are made before the groups are rewritten,
and that can bring together what they look for.

* `Regex.Refused`, `Regex.RepeatsRepetition`, `Regex.NestsWithin` — what the checks look for;
* `Regex.Acceptable`, `Regex.validate_eq_ok_iff` — the patterns that pass all of them;
* `Regex.mark_infix_captureAll`, `Regex.mark_infix_toPosix` — the refused marks before and after the
  rewriting;
* `Dialect.convertRegex_eq_ok_iff` — the patterns that a dialect takes, and what comes out. -/

namespace CelWhere

/-- A text occurs in another one if it is found at some place. -/
theorem Text.occurs_iff {pattern text : List Char} :
    occurs pattern text = true ↔ pattern <:+: text := by
  induction text with
  | nil => simp [occurs]
  | cons head rest ih =>
    rw [occurs, Bool.or_eq_true, List.isPrefixOf_iff_prefix, ih, List.infix_cons_iff]

namespace Regex

variable {rest mark : List Char} {source text word : List Char} {c : Char}

/-! ## Refused constructs -/

/-- What must not stand behind an opening parenthesis: the marks of lookaround, of named groups and
of flags. -/
def refusedMarks : List (List Char) :=
  [['?', '!'], ['?', '='], ['?', '<'], ['?', 'P', '<'], ['?', 'i'], ['?', 'm'], ['?', 's'],
    ['?', 'x']]

/-- A refused construct occurs in a text. -/
def Refused (text : List Char) : Prop :=
  ∃ mark ∈ refusedMarks, '(' :: mark <:+: text

/-- An opener with one of some marks is found at some place. -/
theorem opensWith_iff {marks : List Char} :
    opensWith marks text = true ↔ ∃ mark ∈ marks, ['(', '?', mark] <:+: text := by
  induction text with
  | nil => simp [opensWith]
  | cons head rest ih =>
    have places : (∃ mark ∈ marks, ['(', '?', mark] <:+: head :: rest) ↔
        (∃ mark ∈ marks, ['(', '?', mark] <+: head :: rest) ∨
        ∃ mark ∈ marks, ['(', '?', mark] <:+: rest := by
      simp only [List.infix_cons_iff, and_or_left, exists_or]
    rw [places, ← ih]
    conv => lhs; unfold opensWith
    rw [Bool.or_eq_true]
    refine or_congr_left ?_
    split
    next mark others => simp
    next differs =>
      refine iff_of_false (by simp) ?_
      rintro ⟨mark, -, others, same⟩
      obtain ⟨rfl, rfl⟩ : '(' = head ∧ '?' :: mark :: others = rest := by simpa using same
      exact differs mark others rfl rfl

/-- The three checks of the constructs find what is refused. -/
theorem refused_iff :
    Refused text ↔ opensWith ['!', '=', '<'] text = true ∨ Text.occurs
      ['(', '?', 'P', '<'] text = true ∨
      opensWith ['i', 'm', 's', 'x'] text = true := by
  simp only [opensWith_iff, Text.occurs_iff, Refused, refusedMarks, List.mem_cons,
    List.not_mem_nil, or_false, or_and_right, exists_or, exists_eq_left, or_assoc]

instance (text : List Char) : Decidable (Refused text) :=
  decidable_of_iff _ refused_iff.symm

/-! ## Repeated repetitions -/

/-- A group is closed at the start of a text and repeated. -/
def ClosesRepeated (text : List Char) : Prop :=
  ∃ second, isQuantifier second = true ∧ [')', second] <+: text

/-- The group around a text ends in a repetition and is repeated, and no group ends before. -/
def EndsRepeated (text : List Char) : Prop :=
  ∃ inside first second, ')' ∉ inside ∧ isQuantifier first = true ∧ isQuantifier second = true ∧
    inside ++ [first, ')', second] <+: text

/-- A group ends in a repetition and is repeated, and none ends since some parenthesis was
opened. -/
def RepeatsRepetition (text : List Char) : Prop :=
  ∃ inside first second, ')' ∉ inside ∧ isQuantifier first = true ∧ isQuantifier second = true ∧
    '(' :: (inside ++ [first, ')', second]) <:+: text

/-- A group is closed by the first character and repeated by the second. -/
theorem closesRepeated_cons :
    ClosesRepeated (c :: rest) ↔ c = ')' ∧ rest.head?.any isQuantifier = true := by
  constructor
  · rintro ⟨second, isSecond, before⟩
    obtain ⟨rfl, others, rfl⟩ := List.cons_prefix_cons.mp before
    exact ⟨rfl, isSecond⟩
  · rintro ⟨rfl, repeats⟩
    cases rest with
    | nil => cases repeats
    | cons second others => exact ⟨second, repeats, others, rfl⟩

/-- The repetition at the end of a group is its first character or comes later. -/
theorem endsRepeated_cons :
    EndsRepeated (c :: rest) ↔
      c ≠ ')' ∧ (EndsRepeated rest ∨ isQuantifier c = true ∧ ClosesRepeated rest) := by
  constructor
  · rintro ⟨inside, first, second, noCloser, isFirst, isSecond, before⟩
    -- The first character is the quantifier or stands before it; either way it closes no group.
    cases inside with
    | nil =>
      obtain ⟨rfl, closes⟩ := List.cons_prefix_cons.mp before
      refine ⟨?_, .inr ⟨isFirst, second, isSecond, closes⟩⟩
      rintro rfl
      cases isFirst
    | cons head tail =>
      obtain ⟨rfl, later⟩ := List.cons_prefix_cons.mp before
      rw [List.mem_cons, not_or] at noCloser
      exact ⟨Ne.symm noCloser.1, .inl ⟨tail, first, second, noCloser.2, isFirst, isSecond, later⟩⟩
  · rintro ⟨noCloser, ⟨inside, first, second, noneLater, isFirst, isSecond, later⟩ | ⟨isFirst,
      second, isSecond, closes⟩⟩
    · refine ⟨c :: inside, first, second, ?_, isFirst, isSecond,
        List.cons_prefix_cons.mpr ⟨rfl, later⟩⟩
      simp [Ne.symm noCloser, noneLater]
    · exact ⟨[], c, second, by simp, isFirst, isSecond, List.cons_prefix_cons.mpr ⟨rfl, closes⟩⟩

/-- The group that is found is opened by the first character or later. -/
theorem repeatsRepetition_cons :
    RepeatsRepetition (c :: rest) ↔ c = '(' ∧ EndsRepeated rest ∨ RepeatsRepetition rest := by
  unfold RepeatsRepetition EndsRepeated
  simp only [List.infix_cons_iff, List.cons_prefix_cons, and_or_left, exists_or]
  refine or_congr_left ⟨?_, ?_⟩
  · rintro ⟨inside, first, second, noCloser, isFirst, isSecond, same, later⟩
    exact ⟨same.symm, inside, first, second, noCloser, isFirst, isSecond, later⟩
  · rintro ⟨same, inside, first, second, noCloser, isFirst, isSecond, later⟩
    exact ⟨inside, first, second, noCloser, isFirst, isSecond, same.symm, later⟩

/-- The scan for nested quantifiers, from any state: the group can end here, later, or be opened
later. -/
theorem nestedQuantifierFrom_iff (opened afterQuantifier : Bool) :
    nestedQuantifierFrom opened afterQuantifier text = true ↔
      afterQuantifier = true ∧ ClosesRepeated text ∨ opened = true ∧ EndsRepeated text ∨
      RepeatsRepetition text := by
  induction text generalizing opened afterQuantifier with
  | nil => simp [nestedQuantifierFrom, ClosesRepeated, EndsRepeated, RepeatsRepetition]
  | cons c rest ih =>
    rw [closesRepeated_cons, endsRepeated_cons, repeatsRepetition_cons, nestedQuantifierFrom]
    by_cases closes : c = ')'
    · -- Closing a group forgets it, so only groups that are opened later are left.
      subst closes
      simp [ih]
    · rw [if_neg closes, ih]
      grind

/-- The scan finds the repeated repetitions. -/
theorem hasNestedQuantifier_iff : hasNestedQuantifier text = true ↔ RepeatsRepetition text := by
  simp [hasNestedQuantifier, nestedQuantifierFrom_iff]

/-! ## Nesting -/

/-- Nowhere are more groups open than a limit. -/
def NestsWithin (limit : Nat) (text : List Char) : Prop :=
  ∀ before, before <+: text → before.count '(' ≤ before.count ')' + limit

/-- A condition on the starts of a text with one more character. -/
theorem forall_prefix_cons {condition : List Char → Prop} :
    (∀ before, before <+: c :: rest → condition before) ↔
      condition [] ∧ ∀ before, before <+: rest → condition (c :: before) := by
  constructor
  · intro each
    exact ⟨each [] (by simp), fun before isStart =>
      each (c :: before) (List.cons_prefix_cons.mpr ⟨rfl, isStart⟩)⟩
  · rintro ⟨empty, later⟩ before isStart
    rcases List.prefix_cons_iff.mp isStart with rfl | ⟨tail, rfl, isTail⟩
    · exact empty
    · exact later tail isTail

/-- The scan for the deepest nesting, from any state. -/
theorem nestingFrom_le_iff {depth : Int} {deepest limit : Nat} (reached : depth ≤ deepest) :
    nestingFrom depth deepest text ≤ limit ↔
      deepest ≤ limit ∧ ∀ before, before <+: text →
      depth + before.count '(' ≤ before.count ')' + limit := by
  induction text generalizing depth deepest with
  | nil =>
    rw [nestingFrom, and_iff_left_of_imp]
    rintro within before isStart
    rw [List.prefix_nil.mp isStart]
    simp only [List.count_nil]
    omega
  | cons c rest ih =>
    rw [forall_prefix_cons, nestingFrom]
    simp only [List.count_nil, List.count_cons, beq_iff_eq]
    by_cases opens : c = '('
    · -- The new depth counts at once, and for the starts that go on from here.
      rw [if_pos opens, ih (by omega)]
      simp only [opens, Char.reduceEq, if_true, if_false]
      refine ⟨fun ⟨within, later⟩ => ?_, fun ⟨within, _, later⟩ => ?_⟩
      · refine ⟨by omega, by omega, fun before isStart => ?_⟩
        have := later before isStart
        omega
      · have first := later [] (by simp)
        refine ⟨by simp at first; omega, fun before isStart => ?_⟩
        have := later before isStart
        omega
    · rw [if_neg opens]
      by_cases closes : c = ')'
      · rw [if_pos closes, ih (by omega)]
        simp only [closes, Char.reduceEq, if_true, if_false]
        refine and_congr_right fun within => Iff.trans ?_ (and_iff_right (by omega)).symm
        exact forall₂_congr fun before _ => by omega
      · rw [if_neg closes, ih reached]
        simp only [opens, closes, if_false, Nat.add_zero]
        exact and_congr_right fun within => (and_iff_right (by omega)).symm

/-- The scan finds the deepest nesting. -/
theorem nesting_le_iff {limit : Nat} : nesting text ≤ limit ↔ NestsWithin limit text := by
  rw [nesting, nestingFrom_le_iff (by simp), and_iff_right (Nat.zero_le limit)]
  exact forall₂_congr fun before _ => by omega

/-! ## The patterns that are accepted -/

/-- A pattern passes all checks. -/
structure Acceptable (source : List Char) : Prop where
  /-- It is not too long. -/
  short : source.length ≤ lengthLimit
  /-- It has no null byte. -/
  noNull : '\x00' ∉ source
  /-- It has no construct that the databases lack. -/
  supported : ¬Refused (splitFlag source).1
  /-- It repeats no repetition. -/
  tame : ¬RepeatsRepetition (splitFlag source).1
  /-- Its groups are not nested too deeply. -/
  shallow : NestsWithin nestingLimit (splitFlag source).1
  /-- It has not too many groups. -/
  few : groups (splitFlag source).1 ≤ groupLimit

/-- A check that is passed leaves the rest. -/
theorem check_eq_ok_iff {refused : Prop} [Decidable refused] {fault : Fault}
    {result : Except Fault Converted} {checked : Converted} :
    (if refused then .error fault else result) = .ok checked ↔ ¬refused ∧ result = .ok checked := by
  split <;> simp [*]

/-- **The accepted patterns** are those that pass all checks, and they come out without their
flag. -/
theorem validate_eq_ok_iff {checked : Converted} :
    validate source = .ok checked ↔
      Acceptable source ∧ checked = ⟨(splitFlag source).1, (splitFlag source).2⟩ := by
  unfold validate screen
  simp only [check_eq_ok_iff, Except.ok.injEq, id_eq]
  constructor
  · rintro ⟨short, noNull, noLookaround, noName, noFlag, tame, shallow, few, rfl⟩
    refine ⟨⟨Nat.le_of_not_lt short, by simpa using noNull, ?_, ?_, ?_, Nat.le_of_not_lt few⟩, rfl⟩
    · rw [refused_iff]
      simp [noLookaround, noName, noFlag]
    · rwa [← hasNestedQuantifier_iff]
    · exact nesting_le_iff.mp (Nat.le_of_not_lt shallow)
  · rintro ⟨accepted, rfl⟩
    have supported := accepted.supported
    rw [refused_iff, not_or, not_or] at supported
    refine ⟨Nat.not_lt.mpr accepted.short, by simpa using accepted.noNull, supported.1,
      supported.2.1, supported.2.2, ?_, Nat.not_lt.mpr (nesting_le_iff.mpr accepted.shallow),
      Nat.not_lt.mpr accepted.few, rfl⟩
    rw [hasNestedQuantifier_iff]
    exact accepted.tame

/-! ## The forms in the dialects -/

/-- The marks are no start of what follows the parenthesis of an opener that is rewritten, and have
neither brackets, backslashes nor opening parentheses. -/
theorem refusedMark_free (member : mark ∈ refusedMarks) :
    '(' ∉ mark ∧ (∀ c ∈ mark, c ≠ '[' ∧ c ≠ '\\') ∧ ∀ others, ¬mark <+: '?' :: ':' :: others := by
  simp only [refusedMarks, List.mem_cons, List.not_mem_nil, or_false] at member
  rcases member with rfl | rfl | rfl | rfl | rfl | rfl | rfl | rfl <;> simp

/-- A refused mark that was not there before comes out behind the openers that are rewritten. -/
theorem mark_infix_captureAll (supported : ¬Refused text) (member : mark ∈ refusedMarks) :
    '(' :: mark <:+: captureAll text ↔ '(' :: '?' :: ':' :: mark <:+: text := by
  obtain ⟨noOpener, -, differs⟩ := refusedMark_free member
  rw [infix_captureAll noOpener differs, or_iff_right fun occurs =>
    supported ⟨mark, member, occurs⟩]

/-- Replacing shorthands neither makes nor breaks a refused construct. -/
theorem mark_infix_toPosix (member : mark ∈ refusedMarks) :
    '(' :: mark <:+: toPosix text ↔ '(' :: mark <:+: text :=
  infix_toPosix (refusedMark_free member).2.1 text

end Regex

namespace Dialect

open Regex

/-- A pattern with the classes that a dialect knows. -/
def withClasses : Dialect → List Char → List Char
  | .postgresql, pattern => toPosix pattern
  | _, pattern => pattern

/-- What the dialects with regular expressions make of a pattern. -/
theorem convertRegex_eq {dialect : Dialect} (known : dialect ≠ .sqlite) (source : String) :
    dialect.convertRegex source = (validate source.toList).map fun checked =>
      { checked with pattern := dialect.withClasses (captureAll checked.pattern) } := by
  cases dialect with
  | postgresql =>
    simp only [convertRegex, posix, screen_eq, withClasses, ← rewritten_eq]
    rfl
  | mysql | duckdb | bigquery => rfl
  | sqlite => exact absurd rfl known

/-- The patterns that a dialect takes, and their forms. -/
theorem convertRegex_eq_ok_iff {dialect : Dialect} {source : String} {converted : Converted} :
    dialect.convertRegex source = .ok converted ↔
      dialect ≠ .sqlite ∧ Acceptable source.toList ∧
        converted = ⟨dialect.withClasses (captureAll (splitFlag source.toList).1),
          (splitFlag source.toList).2⟩ := by
  by_cases known : dialect = .sqlite
  · simp [known, convertRegex]
  · rw [convertRegex_eq known]
    cases valid : validate source.toList with
    | ok checked =>
      obtain ⟨acceptable, rfl⟩ := validate_eq_ok_iff.mp valid
      simp [known, acceptable, Except.map, eq_comm]
    | error fault =>
      have refused : ¬Acceptable source.toList := by
        intro acceptable
        rw [validate_eq_ok_iff.mpr ⟨acceptable, rfl⟩] at valid
        cases valid
      simp [refused, Except.map]

/-- **The forms of patterns agree.** A pattern is accepted in all three forms or in none, for the
same fault, and so by all dialects with regular expressions. If it is accepted, its flag is the
same everywhere, its form is the same for the engines that know the shorthands, and that of the
other engine is this form with the shorthands replaced. -/
theorem convertRegex_agree (source : String) :
    let shared : Converted := ⟨captureAll (splitFlag source.toList).1, (splitFlag source.toList).2⟩
    let replaced : Converted := { shared with pattern := toPosix shared.pattern }
    (Acceptable source.toList ∧
        (native source.toList = .ok shared ∧ icu source.toList = .ok shared ∧
          posix source.toList = .ok replaced) ∧
        (∀ dialect ∈ [mysql, duckdb, bigquery], dialect.convertRegex source = .ok shared) ∧
        postgresql.convertRegex source = .ok replaced) ∨
      (¬Acceptable source.toList ∧
        ∃ fault, (∀ form ∈ [posix, native, icu], form source.toList = .error fault) ∧
          ∀ dialect ∈ [postgresql, mysql, duckdb, bigquery],
            dialect.convertRegex source = .error fault) := by
  intro shared replaced
  by_cases acceptable : Acceptable source.toList
  · have accepted {dialect : Dialect} (known : dialect ≠ .sqlite) :
        dialect.convertRegex source =
          .ok ⟨dialect.withClasses (captureAll (splitFlag source.toList).1),
            shared.caseInsensitive⟩ :=
      convertRegex_eq_ok_iff.mpr ⟨known, acceptable, rfl⟩
    have byMysql : mysql.convertRegex source = .ok shared := accepted (by decide)
    have byDuckdb : duckdb.convertRegex source = .ok shared := accepted (by decide)
    have byPostgresql : postgresql.convertRegex source = .ok replaced := accepted (by decide)
    refine .inl ⟨acceptable, ⟨byDuckdb, byMysql, byPostgresql⟩,
      fun dialect member => ?_, byPostgresql⟩
    simp only [List.mem_cons, List.not_mem_nil, or_false] at member
    rcases member with rfl | rfl | rfl
    · exact byMysql
    · exact byDuckdb
    · exact byDuckdb
  · refine .inr ⟨acceptable, ?_⟩
    cases valid : validate source.toList with
    | ok checked => exact absurd (validate_eq_ok_iff.mp valid).1 acceptable
    | error fault =>
      have refused {dialect : Dialect} (known : dialect ≠ .sqlite) :
          dialect.convertRegex source = .error fault := by
        rw [convertRegex_eq known, valid]
        rfl
      refine ⟨fault, fun form member => ?_, fun dialect member => refused ?_⟩
      · simp only [List.mem_cons, List.not_mem_nil, or_false] at member
        rcases member with rfl | rfl | rfl
        · exact refused (show postgresql ≠ .sqlite by decide)
        · exact refused (show duckdb ≠ .sqlite by decide)
        · exact refused (show mysql ≠ .sqlite by decide)
      · rintro rfl
        simp at member

/-- **Refused constructs come out where `?:` is taken out of them.** Behind the rewriting of an
accepted pattern, a refused mark follows an opening parenthesis exactly if it followed the opener of
a group that captures nothing before. So the form of a pattern passes the checks of its constructs
again if and only if there is no such mark. -/
theorem convertRegex_refused {dialect : Dialect} {source : String} {converted : Converted}
    (accepted : dialect.convertRegex source = .ok converted) :
    (∀ mark ∈ refusedMarks, '(' :: mark <:+: converted.pattern ↔
        '(' :: '?' :: ':' :: mark <:+: (splitFlag source.toList).1) ∧
      (opensWith ['!', '=', '<'] converted.pattern = true ∨
          Text.occurs ['(', '?', 'P', '<'] converted.pattern = true ∨ opensWith
          ['i', 'm', 's', 'x'] converted.pattern = true ↔
        ∃ mark ∈ refusedMarks, '(' :: '?' :: ':' :: mark <:+: (splitFlag source.toList).1) := by
  obtain ⟨-, acceptable, rfl⟩ := convertRegex_eq_ok_iff.mp accepted
  have each : ∀ mark ∈ refusedMarks,
      '(' :: mark <:+: dialect.withClasses (captureAll (splitFlag source.toList).1) ↔
        '(' :: '?' :: ':' :: mark <:+: (splitFlag source.toList).1 := by
    intro mark member
    rw [← mark_infix_captureAll acceptable.supported member]
    cases dialect with
    | postgresql => exact mark_infix_toPosix member
    | mysql | sqlite | duckdb | bigquery => rfl
  refine ⟨each, ?_⟩
  rw [← refused_iff]
  exact exists_congr fun mark => and_congr_right (each mark)

/-- An optional parenthesis and an optional colon before an equals sign. -/
theorem convertRegex_refused_optional :
    postgresql.convertRegex "\\(?:?=\\d" = .ok ⟨"\\(?=[[:digit:]]".toList, false⟩ ∧
      (['(', '?', '='] <:+: "\\(?=[[:digit:]]".toList ↔
        ['(', '?', ':', '?', '='] <:+: "\\(?:?=\\d".toList) := by
  have accepted : postgresql.convertRegex "\\(?:?=\\d" = .ok ⟨"\\(?=[[:digit:]]".toList, false⟩ :=
    by decide +kernel
  have body : (splitFlag "\\(?:?=\\d".toList).1 = "\\(?:?=\\d".toList := by decide +kernel
  obtain ⟨each, -⟩ := convertRegex_refused accepted
  rw [body] at each
  exact ⟨accepted, each ['?', '='] (by decide)⟩

/-- **Refused constructs come out**: a flag, a lookahead behind an escaped parenthesis, and a named
group in brackets. -/
theorem refused_after_rewriting :
    let sources := ["(?:?i)a", "\\(?:?=a", "[(?:?P<]"]
    let forms := ["(?i)a", "\\(?=a", "[(?P<]"]
    [postgresql, mysql, duckdb, bigquery].map (fun dialect => sources.map dialect.convertRegex) =
      List.replicate 4 (forms.map fun form => .ok ⟨form.toList, false⟩) ∧
      forms.all fun form => Refused form.toList := by
  decide +kernel

end Dialect

end CelWhere
