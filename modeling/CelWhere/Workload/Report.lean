import CelWhere.Conversion
import CelWhere.Fault.Message

/-! # Reports

A workload runs parts of the library over fixed inputs and reports what they answered. -/

namespace CelWhere.Workload

/-- What a workload reports. -/
inductive Report
  /-- Nothing. -/
  | null
  /-- A truth value. -/
  | flag (value : Bool)
  /-- A number. -/
  | number (value : Int)
  /-- A text. -/
  | text (value : String)
  /-- A literal. -/
  | literal (value : Literal)
  /-- A recommended index. -/
  | recommendation (value : Index.Recommendation)
  /-- Reports in order. -/
  | list (items : List Report)
  /-- Reports by names. -/
  | record (entries : List (String × Report))
  deriving Repr, Inhabited

namespace Report

/-- Texts in order. -/
def texts (values : List String) : Report :=
  .list (values.map .text)

/-- What came of a check: nothing, or the internal text of its fault. -/
def ofFault? : Option Fault → Report
  | none => .null
  | some fault => .text fault.internal

/-- The text of an SQL condition, or the internal text of the fault. -/
def ofConversion : Except Failure String → Report
  | .ok sql => .text sql
  | .error (.fault fault) => .text fault.internal
  | .error .unreadable => .null

/-- An SQL condition with its parameters, or the internal text of the fault. -/
def ofCondition : Except Failure Condition → Report
  | .ok condition => .list [.text condition.sql, .list (condition.parameters.toList.map .literal)]
  | .error (.fault fault) => .text fault.internal
  | .error .unreadable => .null

end Report

/-- A number of items, taken from a list over and over again; none for a negative number. -/
def cycled {α : Type} (items : List α) (count : Int) : List α :=
  ((List.replicate (count.toNat / items.length + 1) items).flatten).take count.toNat

/-- A text repeated a number of times. -/
def repeated (text : String) (count : Nat) : String :=
  String.join (List.replicate count text)

end CelWhere.Workload
