/-! # Operators between operands

The comparisons and the other operators that are written between their operands, with their
signs. -/

namespace CelWhere

/-- The comparisons by a sign. -/
inductive Comparator
  | eq | ne | lt | le | gt | ge
  deriving DecidableEq, Repr

namespace Comparator

/-- All comparisons. -/
def all : List Comparator := [eq, ne, lt, le, gt, ge]

/-- The sign of a comparison. -/
def sign : Comparator → String
  | eq => "="
  | ne => "!="
  | lt => "<"
  | le => "<="
  | gt => ">"
  | ge => ">="

end Comparator

/-- The operators that stand between their operands. -/
inductive Operator
  | or | and
  | compare (comparator : Comparator)
  | add | sub | mul | div
  deriving DecidableEq, Repr

namespace Operator

/-- The word or sign of an operator. -/
def sign : Operator → String
  | or => "OR"
  | and => "AND"
  | compare comparator => comparator.sign
  | add => "+"
  | sub => "-"
  | mul => "*"
  | div => "/"

/-- What stands between the operands. -/
def text (operator : Operator) : String :=
  " " ++ operator.sign ++ " "

end Operator

end CelWhere
