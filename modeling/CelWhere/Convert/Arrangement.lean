import CelWhere.Convert.Basic

/-! # Arrangements of operands

What becomes of an operator is decided before anything is written: which operands are written, and
what stands around them. Here that decision is a value of its own, so that what holds of operators
is shown once for each arrangement.

* `Pairing`, `Arrangement` — the ways in which operands are written;
* `Arrangement.of` — the arrangement of a node;
* `Convert.step_arranged` — the node is converted as its arrangement;
* `Arrangement.mem_operands` — where the operands stand in the node. -/

namespace CelWhere

/-- The levels of precedence, and the rules that stand around the left operands of operators. -/
def Rule.isArranged (rule : Rule) : Bool :=
  rule.isLevel || [Rule.relationLt, .relationLe, .relationGt, .relationGe, .relationEq,
    .relationNe, .relationIn, .additionAdd, .additionSub, .multiplicationMul, .multiplicationDiv,
    .multiplicationMod].contains rule

/-- How two operands are written. -/
inductive Pairing
  /-- With an operator between them. -/
  | sign (operator : Operator)
  /-- With an operator, the left one cast to a number. -/
  | castLeft (operator : Operator)
  /-- With an operator, the right one cast to a number. -/
  | castRight (operator : Operator)
  /-- As a remainder. -/
  | remainder
  /-- As a membership test. -/
  | membership
  /-- As a concatenation. -/
  | concat
  /-- As a time and a duration that is added or subtracted. -/
  | shift (subtracted : Bool)
  /-- As a duration and a time that it is added to. -/
  | swapped

/-- The fragment of two operands. -/
def Pairing.fragment (dialect : Dialect) (left right : Fragment) : Pairing → Fragment
  | sign between => left ++ between.text ++ right
  | castLeft between => dialect.castToNumeric ("(" ++ left ++ ")") ++ between.text ++ right
  | castRight between => left ++ between.text ++ dialect.castToNumeric ("(" ++ right ++ ")")
  | remainder => "MOD(" ++ left ++ ", " ++ right ++ ")"
  | membership => dialect.membership left right
  | concat => dialect.concat left right
  | shift subtracted => dialect.timestampArithmetic (if subtracted then "-" else "+") left right
  | swapped => dialect.timestampArithmetic "+" right left

theorem Pairing.fragment_ite {condition : Prop} [Decidable condition] (dialect : Dialect)
    (left right : Fragment) (one other : Pairing) :
    (if condition then one else other).fragment dialect left right =
      if condition then one.fragment dialect left right else other.fragment dialect left right :=
  apply_ite (fragment dialect left right) condition one other

/-- How the operands of a node are written. -/
inductive Arrangement
  /-- One operand by itself. -/
  | only (operand : Tree)
  /-- A choice between two values. -/
  | choice (condition positive negative : Tree)
  /-- A negated operand. -/
  | not (operand : Tree)
  /-- An operand behind a minus sign. -/
  | minus (operand : Tree)
  /-- An operand that is tested for null or a truth value. -/
  | tested (operand : Tree) (test : String)
  /-- Two operands. -/
  | pair (pairing : Pairing) (left right : Tree)

/-- The tests against null and the truth values. -/
def Convert.literalTests : List String :=
  [" IS NULL", " IS NOT NULL", " IS TRUE", " IS NOT TRUE", " IS FALSE", " IS NOT FALSE"]

namespace Arrangement

open CelWhere.Convert

/-- The fragment of an arrangement. -/
def fragment (dialect : Dialect) (child : Tree → Fragment) : Arrangement → Fragment
  | only operand => child operand
  | choice condition positive negative =>
    "CASE WHEN " ++ child condition ++ " THEN " ++ child positive ++ " ELSE " ++
      child negative ++ " END"
  | not operand => "NOT " ++ child operand
  | minus operand => "-" ++ child operand
  | tested operand test => child operand ++ test
  | pair pairing left right => pairing.fragment dialect (child left) (child right)

/-- The operands that an arrangement writes. -/
def operands : Arrangement → List Tree
  | only operand | not operand | minus operand | tested operand _ => [operand]
  | choice condition positive negative => [condition, positive, negative]
  | pair _ left right => [left, right]

/-- The fragment of an arrangement depends only on those of its operands. -/
theorem fragment_congr {arrangement : Arrangement} {dialect : Dialect}
    {first second : Tree → Fragment}
    (agree : ∀ operand ∈ arrangement.operands, first operand = second operand) :
    arrangement.fragment dialect first = arrangement.fragment dialect second := by
  cases arrangement <;> simp_all [fragment, operands]

/-! ## The arrangement of a node -/

/-- A comparison by a sign; JSON text that is compared with a number is cast. -/
def ofSign (catalog : Catalog) (comparator : Comparator) (left right : Tree) :
    Except Fault Pairing :=
  catalog.isJsonText left >>= fun leftJson =>
    if leftJson && right.isNumeric then .ok (.castLeft (.compare comparator))
    else (catalog.isJsonText right).map fun rightJson =>
      if rightJson && left.isNumeric then .castRight (.compare comparator)
        else .sign (.compare comparator)

/-- A sum. -/
def ofSum (left right : Tree) : Except Fault Pairing :=
  eitherTemporal left right >>= fun temporal =>
    if temporal then (durationFirst left right).map fun swapped => if swapped then .swapped
      else .shift false
    else .ok (if left.containsString || right.containsString || left.isList || right.isList
      then .concat else .sign .add)

/-- How the operands of an operator are written. -/
def pairing (catalog : Catalog) (rule operator : Rule) (left right : Tree) : Except Fault Pairing :=
  match rule, operator with
  | .relation, .relationIn => .ok .membership
  | .addition, .additionAdd => ofSum left right
  | .addition, .additionSub =>
    (eitherTemporal left right).map fun temporal => if temporal then .shift true else .sign .sub
  | .multiplication, .multiplicationMul => .ok (.sign .mul)
  | .multiplication, .multiplicationDiv => .ok (.sign .div)
  | .multiplication, .multiplicationMod => .ok .remainder
  | _, _ =>
    match rule, comparator? operator with
    | .relation, some comparator => ofSign catalog comparator left right
    | _, _ => .error (.unknownOperator rule operator.name)

/-- An operator with two operands; an equality with null or a truth value has one. -/
def ofOperator (catalog : Catalog) (rule operator : Rule) (left right : Tree) :
    Except Fault Arrangement :=
  match if rule = .relation then literalComparison? operator left right else none with
  | some (operand, test) => .ok (.tested operand test)
  | none => (pairing catalog rule operator left right).map (.pair · left right)

/-- A single operand, or the operand in an operator and the one beside it. -/
def ofSides (catalog : Catalog) (rule : Rule) : List Tree → Except Fault Arrangement
  | [operand] => .ok (.only operand)
  | [.node operator (left :: _), right] => ofOperator catalog rule operator left right
  | [.node _ [], _] => .error .missingChild
  | [.token _, _] => .error (.operatorToken rule)
  | children => .error (.malformed rule children.length)

/-- A choice. -/
def ofChoice : List Tree → Except Fault Arrangement
  | [condition, positive, negative] => .ok (.choice condition positive negative)
  | [operand] => .ok (.only operand)
  | children => .error (.malformed .expr children.length)

/-- A conjunction or disjunction. -/
def ofLogical (rule : Rule) (word : Operator) : List Tree → Except Fault Arrangement
  | [left, right] => .ok (.pair (.sign word) left right)
  | [operand] => .ok (.only operand)
  | children => .error (.malformed rule children.length)

/-- An operand with or without a sign. -/
def ofUnary : List Tree → Except Fault Arrangement
  | [operand] => .ok (.only operand)
  | [.node .unaryNot _, operand] => .ok (.not operand)
  | [.node .unaryNeg _, operand] => .ok (.minus operand)
  | children => .error (.malformed .unary children.length)

/-- The arrangement of a node. -/
def of (catalog : Catalog) (rule : Rule) (children : List Tree) : Except Fault Arrangement :=
  match rule with
  | .expr => ofChoice children
  | .conditionalOr => ofLogical .conditionalOr .or children
  | .conditionalAnd => ofLogical .conditionalAnd .and children
  | .relation | .addition | .multiplication => ofSides catalog rule children
  | .unary => ofUnary children
  | .member | .primary =>
    match children with
    | [operand] => .ok (.only operand)
    | _ => .error (.malformed rule children.length)
  | _ =>
    match children with
    | left :: _ => .ok (.only left)
    | [] => .error .missingChild

/-- A single operand is written by itself. -/
theorem of_single (catalog : Catalog) (rule : Rule) (operand : Tree) :
    of catalog rule [operand] = .ok (.only operand) := by
  cases rule <;> rfl

/-! ## Operands -/

section

variable {catalog : Catalog} {arrangement : Arrangement} {operator rule : Rule}
  {left right operand : Tree} {children : List Tree}

/-- A test is one of the side that is beside the literal. -/
theorem literalComparison?_literal {test : String}
    (found : literalComparison? operator left right = some (operand, test)) :
    operand = left ∧ right.literal?.isSome ∨ operand = right ∧ left.literal?.isSome := by
  simp only [literalComparison?, literalTest?, Tree.givenLiteral?] at found
  grind [Option.filter_eq_some_iff]

/-- A test is one of those against null and the truth values. -/
theorem literalComparison?_mem {test : String}
    (found : literalComparison? operator left right = some (operand, test)) :
    test ∈ literalTests := by
  have null (negated : Bool) : nullTest negated ∈ literalTests := by cases negated <;> decide
  have truth (negated : Bool) (token : Token) : truthTest negated token ∈ literalTests := by
    unfold truthTest
    cases negated <;> cases isTrueText token.text <;> decide
  simp only [literalComparison?, literalTest?] at found
  grind

/-- An operator writes both sides, or the one beside a literal. -/
theorem ofOperator_cases (found : ofOperator catalog rule operator left right = .ok arrangement) :
    (∃ operand test, literalComparison? operator left right = some (operand, test) ∧
      arrangement = .tested operand test) ∨
      ∃ chosen, pairing catalog rule operator left right = .ok chosen ∧
      arrangement = .pair chosen left right := by
  unfold ofOperator at found
  split at found
  next operand test tested =>
    have compared : literalComparison? operator left right = some (operand, test) :=
      (Option.ite_none_right_eq_some.mp tested).2
    exact .inl ⟨operand, test, compared, (Except.ok.inj found).symm⟩
  · cases paired : pairing catalog rule operator left right with
    | error fault => simp [paired, Except.map] at found
    | ok chosen => exact .inr ⟨chosen, rfl, by simpa [paired, Except.map] using found.symm⟩

/-- The operands of an operator are its sides. -/
theorem mem_operands_ofOperator
    (found : ofOperator catalog rule operator left right = .ok arrangement)
    (member : operand ∈ arrangement.operands) : operand = left ∨ operand = right := by
  rcases ofOperator_cases found with ⟨tested, test, compared, rfl⟩ | ⟨chosen, -, rfl⟩
  · obtain rfl := List.mem_singleton.mp member
    exact (literalComparison?_literal compared).imp And.left And.left
  · simpa [operands] using member

/-- The operands of a node are children of it, or the left operand is one of the operator. -/
theorem mem_operands (found : of catalog rule children = .ok arrangement)
    (member : operand ∈ arrangement.operands) :
    operand ∈ children ∨ ∃ operator below right,
      children = [.node operator (operand :: below), right] := by
  unfold of at found
  split at found
  case h_4 | h_5 | h_6 =>
    unfold ofSides at found
    split at found
    next => exact .inl (by cases found; exact member)
    next operator left below right =>
      rcases mem_operands_ofOperator found member with rfl | rfl
      · exact .inr ⟨operator, below, right, rfl⟩
      · exact .inl (by simp)
    all_goals cases found
  case h_1 | h_2 | h_3 | h_7 =>
    simp only [ofChoice, ofLogical, ofUnary] at found
    split at found <;> cases found <;> simp_all [operands]
  all_goals
    split at found <;> cases found
    simp_all [operands]

end

end Arrangement

namespace Convert

open Arrangement

variable {context : Context} {child : Tree → Fragment} (left right : Tree)

/-- What follows two results follows the first one and then the second one. -/
theorem attempt_bind {α β : Type} (first : Except Fault α) (second : α → Except Fault β)
    (next : β → Fragment) :
    Fragment.attempt (first >>= second) next =
      .attempt first fun value => .attempt (second value) next := by
  cases first <;> rfl

/-- What follows a result that is changed follows the result. -/
theorem attempt_map {α β : Type} (result : Except Fault α) (change : α → β) (next : β → Fragment) :
    Fragment.attempt (result.map change) next =
      .attempt result fun value => next (change value) := by
  cases result <;> rfl

/-- What follows one of two results follows the one that it is. -/
theorem attempt_ite {α : Type} {condition : Prop} [Decidable condition] (one other : Except Fault α)
    (next : α → Fragment) :
    Fragment.attempt (if condition then one else other) next =
      if condition then .attempt one next else .attempt other next :=
  apply_ite (Fragment.attempt · next) condition one other

theorem signComparison_arranged (comparator : Comparator) :
    signComparison context child comparator left right =
      .attempt (ofSign context.catalog comparator left right) fun pairing =>
        pairing.fragment context.dialect (child left) (child right) := by
  simp only [signComparison, ofSign, attempt_bind, attempt_ite, attempt_map, Pairing.fragment_ite]
  rfl

theorem sum_arranged : sum context child left right = .attempt (ofSum left right) fun pairing =>
    pairing.fragment context.dialect (child left) (child right) := by
  simp only [sum, ofSum, attempt_bind, attempt_ite, attempt_map, Fragment.attempt_ok,
    Pairing.fragment_ite]
  rfl

theorem comparison_arranged (operator : Rule) : comparison context child operator left right =
    .attempt (ofOperator context.catalog .relation operator left right)
    (fragment context.dialect child) := by
  unfold comparison ofOperator
  cases found : literalComparison? operator left right with
  | some test =>
    rw [if_neg]
    · rfl
    · rintro rfl
      cases found
  | none =>
    simp only [if_true, attempt_map]
    cases operator with
    | relationEq | relationNe | relationLt | relationLe | relationGt | relationGe =>
      exact signComparison_arranged left right _
    | _ => rfl

/-- A node with operands is converted as its arrangement. -/
theorem step_arranged {visit : Tree → Fragment} {rule : Rule} (isArranged : rule.isArranged)
    (children : List Tree) :
    step context visit (.node rule children) =
      .attempt (Arrangement.of context.catalog rule children) (fragment context.dialect fun tree =>
        .nested (visit tree)) := by
  cases rule with
  | expr =>
    show choice _ children = .attempt (ofChoice children) _
    unfold choice
    split <;> simp_all [ofChoice, fragment]
  | conditionalOr | conditionalAnd =>
    show logical _ _ _ children = .attempt (ofLogical _ _ children) _
    unfold logical
    split <;> simp_all [ofLogical, fragment, Pairing.fragment, Operator.text, Operator.sign]
  | unary =>
    show unary _ children = .attempt (ofUnary children) _
    unfold unary
    split <;> simp_all [ofUnary, fragment]
  | relation =>
    show relation context _ children = .attempt (ofSides _ .relation children) _
    unfold relation
    split <;> simp_all [ofSides, fragment, comparison_arranged]
  | addition =>
    show addition context _ children = .attempt (ofSides _ .addition children) _
    unfold addition
    split
    · rfl
    next operator left _ right =>
      show _ = Fragment.attempt ((pairing context.catalog .addition operator left right).map
        (Arrangement.pair · left right)) _
      rw [attempt_map]
      cases operator with
      | additionAdd => exact sum_arranged left right
      | additionSub =>
        simp only [difference, pairing, attempt_map, fragment, Pairing.fragment_ite]
        rfl
      | _ => rfl
    all_goals simp_all [ofSides]
  | multiplication =>
    show multiplication _ children = .attempt (ofSides _ .multiplication children) _
    unfold multiplication
    split
    · rfl
    next operator left _ right =>
      show _ = Fragment.attempt
        ((pairing context.catalog .multiplication operator left right).map
          (Arrangement.pair · left right)) _
      cases operator <;> rfl
    all_goals simp_all [ofSides]
  | member | primary => rcases children with _ | ⟨_, _ | ⟨_, _⟩⟩ <;> rfl
  | relationLt | relationLe | relationGt | relationGe | relationEq | relationNe | relationIn
  | additionAdd | additionSub
  | multiplicationMul | multiplicationDiv | multiplicationMod => cases children <;> rfl
  | _ => simp [Rule.isArranged, Rule.isLevel] at isArranged

end Convert

end CelWhere
