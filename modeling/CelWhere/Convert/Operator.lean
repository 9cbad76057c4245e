import CelWhere.Convert.Context
import CelWhere.Sql.Array
import CelWhere.Sql.Cast
import CelWhere.Sql.Operator
import CelWhere.Sql.StringFunction
import CelWhere.Sql.Time

/-! # Operators

Each function takes how a part of the tree is converted, one level deeper, and the children of a
node. -/

namespace CelWhere.Convert

variable (context : Context) (child : Tree → Fragment)

/-- A node that only passes its child on. -/
def single (rule : Rule) : List Tree → Fragment
  | [only] => child only
  | children => .fail (.malformed rule children.length)

/-- The left operand of an operator by itself. -/
def firstChild : List Tree → Fragment
  | first :: _ => child first
  | [] => .fail .missingChild

/-- A choice between two values, or a single value. -/
def choice : List Tree → Fragment
  | [condition, positive, negative] =>
    "CASE WHEN " ++ child condition ++ " THEN " ++ child positive ++ " ELSE " ++
      child negative ++ " END"
  | [only] => child only
  | children => .fail (.malformed .expr children.length)

/-- A conjunction or disjunction. -/
def logical (rule : Rule) (word : String) : List Tree → Fragment
  | [left, right] => child left ++ word ++ child right
  | [only] => child only
  | children => .fail (.malformed rule children.length)

/-! ## Comparisons -/

/-- The comparison that a rule stands for. -/
def comparator? : Rule → Option Comparator
  | .relationEq => some .eq
  | .relationNe => some .ne
  | .relationLt => some .lt
  | .relationLe => some .le
  | .relationGt => some .gt
  | .relationGe => some .ge
  | _ => none

/-- The test for null or not null. -/
def nullTest (negated : Bool) : String :=
  if negated then " IS NOT NULL" else " IS NULL"

/-- The test for a truth value or against it. -/
def truthTest (negated : Bool) (token : Token) : String :=
  (if negated then " IS NOT " else " IS ") ++ (if isTrueText token.text then "TRUE" else "FALSE")

/-- The operand and the test of an equality one side of which is null or a truth value. -/
def literalTest? (negated : Bool) (left right : Tree) : Option (Tree × String) :=
  let ofKind (kind : TokenKind) (tree : Tree) := tree.givenLiteral?.filter (·.kind = kind)
  match ofKind .null right, ofKind .null left, ofKind .bool right, ofKind .bool left with
  | some _, _, _, _ => some (left, nullTest negated)
  | none, some _, _, _ => some (right, nullTest negated)
  | none, none, some token, _ => some (left, truthTest negated token)
  | none, none, none, some token => some (right, truthTest negated token)
  | none, none, none, none => none

/-- The equality test against a literal, if the operator is one and a side is such a literal. -/
def literalComparison? (operator : Rule) (left right : Tree) : Option (Tree × String) :=
  match operator with
  | .relationEq => literalTest? false left right
  | .relationNe => literalTest? true left right
  | _ => none

/-- A comparison by a sign. Text out of a JSON value is cast if the other side is a number. -/
def signComparison (comparator : Comparator) (left right : Tree) : Fragment :=
  let infixSign := (Operator.compare comparator).text
  .attempt (context.catalog.isJsonText left) fun leftJson =>
    if leftJson && right.isNumeric then
      context.dialect.castToNumeric ("(" ++ child left ++ ")") ++ infixSign ++ child right
    else
      .attempt (context.catalog.isJsonText right) fun rightJson =>
        if rightJson && left.isNumeric then
          child left ++ infixSign ++ context.dialect.castToNumeric ("(" ++ child right ++ ")")
        else child left ++ infixSign ++ child right

/-- A comparison or membership test of two operands. -/
def comparison (operator : Rule) (left right : Tree) : Fragment :=
  if operator = .relationIn then context.dialect.membership (child left) (child right)
  else
    match literalComparison? operator left right with
    | some (operand, test) => child operand ++ test
    | none =>
      match comparator? operator with
      | some comparator => signComparison context child comparator left right
      | none => .fail (.unknownOperator .relation operator.name)

/-- A comparison, a membership test or a single operand. -/
def relation : List Tree → Fragment
  | [only] => child only
  | [.node operator (left :: _), right] => comparison context child operator left right
  | [.node _ [], _] => .fail .missingChild
  | [.token _, _] => .fail (.operatorToken .relation)
  | children => .fail (.malformed .relation children.length)

/-! ## Arithmetic -/

/-- Whether one of two operands has to do with times. -/
def eitherTemporal (left right : Tree) : Except Fault Bool :=
  match left.isTemporal with
  | .ok false => right.isTemporal
  | result => result

/-- Whether the first of two operands is a duration and the second is not. -/
def durationFirst (left right : Tree) : Except Fault Bool :=
  match left.isDuration with
  | .ok true => right.isDuration.map (!·)
  | result => result

/-- A sum. With times, the time comes before the duration; with strings or lists it is a
concatenation. -/
def sum (left right : Tree) : Fragment :=
  .attempt (eitherTemporal left right) fun temporal =>
    if temporal then
      .attempt (durationFirst left right) fun swapped =>
        if swapped then context.dialect.timestampArithmetic "+" (child right) (child left)
        else context.dialect.timestampArithmetic "+" (child left) (child right)
    else if left.containsString || right.containsString || left.isList || right.isList then
      context.dialect.concat (child left) (child right)
    else child left ++ " + " ++ child right

/-- A difference. -/
def difference (left right : Tree) : Fragment :=
  .attempt (eitherTemporal left right) fun temporal =>
    if temporal then context.dialect.timestampArithmetic "-" (child left) (child right)
    else child left ++ " - " ++ child right

/-- A sum, a difference or a single operand. -/
def addition : List Tree → Fragment
  | [only] => child only
  | [.node operator (left :: _), right] =>
    match operator with
    | .additionAdd => sum context child left right
    | .additionSub => difference context child left right
    | _ => .fail (.unknownOperator .addition operator.name)
  | [.node _ [], _] => .fail .missingChild
  | [.token _, _] => .fail (.operatorToken .addition)
  | children => .fail (.malformed .addition children.length)

/-- A product, a quotient, a remainder or a single operand. -/
def multiplication : List Tree → Fragment
  | [only] => child only
  | [.node operator (left :: _), right] =>
    match operator with
    | .multiplicationMul => child left ++ " * " ++ child right
    | .multiplicationDiv => child left ++ " / " ++ child right
    | .multiplicationMod => "MOD(" ++ child left ++ ", " ++ child right ++ ")"
    | _ => .fail (.unknownOperator .multiplication operator.name)
  | [.node _ [], _] => .fail .missingChild
  | [.token _, _] => .fail (.operatorToken .multiplication)
  | children => .fail (.malformed .multiplication children.length)

/-- An operand with or without a sign. -/
def unary : List Tree → Fragment
  | [only] => child only
  | [.node .unaryNot _, operand] => "NOT " ++ child operand
  | [.node .unaryNeg _, operand] => "-" ++ child operand
  | children => .fail (.malformed .unary children.length)

end CelWhere.Convert
