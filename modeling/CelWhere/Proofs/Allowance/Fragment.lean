import CelWhere.Proofs.Question
import CelWhere.Sql.Cast
import CelWhere.Sql.Like
import CelWhere.Sql.Regex
import CelWhere.Sql.StringFunction
import CelWhere.Sql.Time

/-! # What fragments are made of

The literals that a fragment holds and the faults that its checks end a run with are those of its
leaves. A construct has the leaves of the fragments that it is given, and conversion errors of its
own.

* `Fault.isRefusal` — the conversion errors of checks, which are all but that of comprehensions
  nested too deeply;
* `Fragment.Allowance` — literals and faults that are allowed, refusals among the faults, and how
  many comprehensions may stand inside each other;
* `Fragment.Each` — a fragment keeps to an allowance, with a lemma for every construct of the
  dialects. -/

namespace CelWhere

variable {cause : Fault} {α : Type}

namespace Fault

/-- Whether a fault is that of comprehensions that are nested too deeply. -/
def isNesting : Fault → Bool
  | .comprehensionDepthExceeded _ => true
  | _ => false

/-- Whether a fault is a conversion error that a check can fail with. -/
def isRefusal (fault : Fault) : Bool :=
  fault.isConversionError && !fault.isNesting

/-- A refusal is a conversion error other than that of nested comprehensions. -/
theorem isRefusal_iff {fault : Fault} :
    fault.isRefusal ↔ fault.isConversionError ∧ fault.isNesting = false := by
  simp [isRefusal]

/-- The conversion errors of all kinds but one are refusals. -/
theorem isRefusal_of_faultClass {fault : Fault} {kind : ErrorKind}
    (refused : fault.faultClass = .refused kind) (other : kind ≠ .maxComprehensionDepthExceeded) :
    fault.isRefusal := by
  refine isRefusal_iff.mpr ⟨by simp [isConversionError, refused], ?_⟩
  unfold isNesting
  split
  · exact absurd (FaultClass.refused.inj refused).symm other
  · rfl

end Fault

namespace Fragment

/-- What the leaves of a fragment may be. -/
structure Allowance where
  /-- The allowed literals. -/
  literal : Literal → Prop
  /-- The allowed faults. -/
  fault : Fault → Prop
  /-- Refusals are allowed. -/
  refused {cause : Fault} : cause.isRefusal → fault cause
  /-- How many comprehensions may stand inside each other, if there is a bound. -/
  room : Option Nat := none

/-- What is allowed inside a comprehension. -/
def Allowance.inner (allowance : Allowance) : Allowance :=
  { allowance with room := allowance.room.map (· - 1) }

/-- All leaves of a fragment are allowed, and there is room for its comprehensions. -/
def Each : Allowance → Fragment → Prop
  | _, .text _ | _, .known .. => True
  | allowance, .literal value => allowance.literal value
  | allowance, .append first second => first.Each allowance ∧ second.Each allowance
  | allowance, .nested body | allowance, .binding _ body => body.Each allowance
  | allowance, .comprehension body => allowance.room ≠ some 0 ∧ body.Each allowance.inner
  | allowance, .unlessBound _ cause | allowance, .fail cause => allowance.fault cause

section

variable {allowance : Allowance} (body : Fragment) (name : String)

@[simp] theorem each_text (sql : String) : (Fragment.text sql).Each allowance := trivial

@[simp] theorem each_empty : Fragment.empty.Each allowance := trivial

@[simp] theorem each_literal (value : Literal) :
    (Fragment.literal value).Each allowance ↔ allowance.literal value := .rfl

@[simp] theorem each_append (first second : Fragment) :
    (first ++ second).Each allowance ↔ first.Each allowance ∧ second.Each allowance := .rfl

@[simp] theorem each_nested : (Fragment.nested body).Each allowance ↔ body.Each allowance := .rfl

@[simp] theorem each_comprehension :
    (Fragment.comprehension body).Each allowance ↔
      allowance.room ≠ some 0 ∧ body.Each allowance.inner := .rfl

@[simp] theorem each_binding (body : Fragment) :
    (Fragment.binding name body).Each allowance ↔ body.Each allowance := .rfl

@[simp] theorem each_known (table field : String) :
    (Fragment.known table field).Each allowance := trivial

@[simp] theorem each_fail (cause : Fault) :
    (Fragment.fail cause).Each allowance ↔ allowance.fault cause := .rfl

/-- What SQLite lacks is a refusal. -/
@[simp] theorem Allowance.fault_sqliteLacks (gap : SqliteGap) :
    allowance.fault (.sqliteLacks gap) :=
  allowance.refused rfl

theorem each_refused (refused : cause.isRefusal) : (Fragment.fail cause).Each allowance :=
  allowance.refused refused

@[simp] theorem each_unlessBound (cause : Fault) :
    (Fragment.unlessBound name cause).Each allowance ↔ allowance.fault cause := .rfl

/-- A number is allowed if it can be written, or if the fault of too many digits is allowed. -/
@[simp] theorem each_number (before : String) (value : Int) (after : String) :
    (Fragment.number before value after).Each allowance ↔
      (Integer.tooLongToWrite value → allowance.fault .unwritableInteger) := by
  unfold number
  split
  next long => simp [long]
  next short => simp [short]

/-- What follows a result is allowed if its faults are, and what follows each of its values. -/
theorem each_attempt {result : Except Fault α} {next : α → Fragment}
    (fails : ∀ {cause}, result = .error cause → allowance.fault cause)
    (each : ∀ value, result = .ok value → (next value).Each allowance) :
    (attempt result next).Each allowance := by
  cases result with
  | error cause => exact fails rfl
  | ok value => exact each value rfl

/-- Joining fragments by a text adds no leaves but the text. -/
theorem each_join {separator : String} {fragments : List Fragment}
    (each : ∀ fragment ∈ fragments, fragment.Each allowance) :
    (join separator fragments).Each allowance := by
  fun_induction join separator fragments with
  | case1 => simp
  | case2 fragment => exact each fragment (by simp)
  | case3 fragment rest _ ih =>
    simp only [each_append, each_text, and_true]
    exact ⟨each fragment (by simp), ih fun other member => each other (by simp [member])⟩

end

-- The lemmas above are all that is used of it: unfolding would make terms evaluate the fragments
-- that they are about.
attribute [irreducible] Each

end Fragment

/-! ## Checks of texts -/

/-- What is wrong with a name is a refusal. -/
theorem NameRules.refused_of_fault? {rules : NameRules} {name : String}
    (found : rules.fault? name = some cause) :
    cause.isRefusal :=
  Fault.isRefusal_of_faultClass (faultClass_of_fault? found) (by decide)

/-- A null byte is a refusal. -/
theorem refused_of_nullByteFault? {usage text : String}
    (found : nullByteFault? usage text = some cause) :
    cause.isRefusal := by
  unfold nullByteFault? at found
  split at found
  · obtain rfl := Option.some.inj found
    rfl
  · simp at found

/-- Patterns that a dialect does not take are refused. -/
theorem Dialect.refused_of_convertRegex {dialect : Dialect} {source : String}
    (failed : dialect.convertRegex source = .error cause) : cause.isRefusal := by
  rcases fault_of_convertRegex failed with rfl | rfl | ⟨inner, rfl⟩ <;> rfl

/-! ## Constructs of the dialects

The constructs of the dialects put text around the fragments that they are given. -/

section

variable {allowance : Allowance} {first second third : Fragment}

open Fragment

namespace Dialect

variable {zone : Option Fragment} (dialect : Dialect) (text part : String)

/-- A fixed duration is allowed if its number can be written and, for SQLite, is a double, or if the
faults are allowed. -/
theorem duration_each {value : Int} {unit : String}
    (written : Integer.tooLongToWrite value → allowance.fault .unwritableInteger)
    (double : dialect = .sqlite → Binary64.ofInt? value = none → allowance.fault .floatOverflow) :
    (dialect.duration value unit).Each allowance := by
  have modified (same : dialect = .sqlite) (perSecond : Nat) :
      (secondsModifier value perSecond).Each allowance := by
    unfold secondsModifier
    split
    · simp
    next none => exact (each_fail _).mpr (double same none)
  unfold duration
  split
  · split
    · exact modified rfl _
    · exact modified rfl _
    · exact modified rfl _
    · exact (each_number _ _ _).mpr written
  · exact (each_number _ _ _).mpr written

variable (one : first.Each allowance)

include one

@[simp] theorem startsWith_each : (dialect.startsWith first text).Each allowance := by
  simp [startsWith, one]

@[simp] theorem endsWith_each : (dialect.endsWith first text).Each allowance := by
  simp [endsWith, one]

@[simp] theorem regexMatch_each (pattern : String) (caseInsensitive : Bool) :
    (dialect.regexMatch first pattern caseInsensitive).Each allowance := by
  cases dialect <;> simp [regexMatch, one]

@[simp] theorem jsonField_each (field : String) (final : Bool) :
    (dialect.jsonField first field final).Each allowance := by
  cases dialect <;> cases final <;> simp [jsonField, one]

@[simp] theorem jsonExists_each (binary : Bool) (field : String) :
    (dialect.jsonExists binary field first).Each allowance := by
  cases dialect <;> cases binary <;> simp [jsonExists, one]

@[simp] theorem arrayLength_each : (dialect.arrayLength 1 first).Each allowance := by
  have short : Integer.tooLongToWrite 1 = false := by decide +kernel
  cases dialect <;> simp [arrayLength, one, short]

@[simp] theorem elementAt_each {index : Int}
    (here : Integer.tooLongToWrite index → allowance.fault .unwritableInteger)
    (behind : Integer.tooLongToWrite (index + 1) → allowance.fault .unwritableInteger) :
    (dialect.elementAt first index).Each allowance := by
  cases dialect with
  | postgresql | duckdb => simpa [elementAt, one] using behind
  | mysql | sqlite | bigquery => simpa [elementAt, one] using here

@[simp] theorem unnest_each : (dialect.unnest first).Each allowance := by
  cases dialect <;> simp [unnest, one]

@[simp] theorem cast_each (type : String) : (dialect.cast first type).Each allowance := by
  simp [Dialect.cast, one]

@[simp] theorem castToNumeric_each : (dialect.castToNumeric first).Each allowance := by
  cases dialect <;> simp [castToNumeric, one]

@[simp] theorem epochSeconds_each : (dialect.epochSeconds first).Each allowance := by
  cases dialect <;> simp [epochSeconds, one]

@[simp] theorem castToTimestamp_each : (dialect.castToTimestamp first).Each allowance := by
  cases dialect <;> simp [castToTimestamp, one]

@[simp] theorem interval_each (unit : String) : (dialect.interval first unit).Each allowance := by
  cases dialect <;> simp [interval, one]

/-- Neither the value nor the time zone of an extracted part is given a new literal. -/
@[simp] theorem extractPart_each (zoned : ∀ fragment ∈ zone, fragment.Each allowance) :
    (extractPart part first zone).Each allowance := by
  cases zone with
  | none => simp [extractPart, one]
  | some fragment => simp [extractPart, one, zoned fragment rfl]

@[simp] theorem extract_each (zoned : ∀ fragment ∈ zone, fragment.Each allowance) :
    (dialect.extract part first zone).Each allowance := by
  cases dialect with
  | postgresql | duckdb | bigquery => exact extractPart_each _ one zoned
  | mysql =>
    simp only [extract]
    split <;> simp [one]
  | sqlite =>
    simp only [extract]
    split <;> simp [one]

variable (two : second.Each allowance)

include two

@[simp] theorem concat_each : (dialect.concat first second).Each allowance := by
  cases dialect <;> simp [concat, one, two]

@[simp] theorem contains_each : (dialect.contains first second).Each allowance := by
  cases dialect <;> simp [Dialect.contains, one, two]

@[simp] theorem split_each : (dialect.split first second).Each allowance := by
  cases dialect <;> simp [split, one, two]

@[simp] theorem splitLimited_each {limit : Int}
    (written : Integer.tooLongToWrite limit → allowance.fault .unwritableInteger) :
    (dialect.splitLimited first second limit).Each allowance := by
  cases dialect with
  | postgresql | duckdb | bigquery => simpa [splitLimited, one, two] using written
  | mysql | sqlite => simp [splitLimited, one]

@[simp] theorem joinStrings_each : (dialect.joinStrings first second).Each allowance := by
  cases dialect <;> simp [joinStrings, one, two]

@[simp] theorem element_each : (dialect.element first second).Each allowance := by
  cases dialect <;> simp [element, one, two]

@[simp] theorem membership_each : (dialect.membership first second).Each allowance := by
  cases dialect <;> simp [membership, one, two]

@[simp] theorem timestampArithmetic_each (operator : String) :
    (dialect.timestampArithmetic operator first second).Each allowance := by
  cases dialect with
  | postgresql | mysql | duckdb => simp [timestampArithmetic, one, two]
  | sqlite =>
    simp only [timestampArithmetic]
    split <;> simp [one, two]
  | bigquery =>
    simp only [timestampArithmetic]
    split <;> simp [one, two]

end Dialect

variable (one : first.Each allowance)

include one

@[simp] theorem applied_each (function : String) : (applied function first).Each allowance := by
  simp [applied, one]

variable (two : second.Each allowance)

include two

@[simp] theorem indexOf_each : (indexOf first second).Each allowance := by
  simp [indexOf, one, two]

theorem indexOfFrom_each {offset : Int}
    (here : Integer.tooLongToWrite offset → allowance.fault .unwritableInteger)
    (behind : Integer.tooLongToWrite (offset + 1) → allowance.fault .unwritableInteger) :
    (indexOfFrom first second offset).Each allowance := by
  simpa [indexOfFrom, one, two] using And.intro behind here

@[simp] theorem indexOfFromExpr_each (three : third.Each allowance) :
    (indexOfFromExpr first second third).Each allowance := by
  simp [indexOfFromExpr, one, two, three]

@[simp] theorem lastIndexOf_each : (lastIndexOf first second).Each allowance := by
  simp [lastIndexOf, one, two]
end

end CelWhere
