import CelWhere.Proofs.Arrangement
import CelWhere.Proofs.Grouping.Text
import Mathlib.Data.Option.NAry

/-! # Expressions of operators

A syntax tree that is made of names, integers without sign, parentheses and operators stands for an
operation.

* `Tree.operation?` — the operation of a tree;
* `Builds` — the trees of the grammar that stand for an operation, a case per production;
* `Operation.notsApart` — no negation is an operand of a comparison or of arithmetic;
* `Builds.grouped` — with negations apart, the levels of the grammar are those of the operators, so
  that the operation is grouped without parentheses besides its own. -/

namespace CelWhere

variable {found : Rule} {children : List Tree} {right left : Tree} {rule : Rule}

open Grouping

/-! ## The operation of a tree -/

/-- The value of an integer literal without sign. -/
def Token.natural? (token : Token) : Option Nat :=
  match token.kind with
  | .int => Integer.natural? token.text.toList
  | .uint =>
    match token.text.toList.reverse with
    | 'u' :: digits | 'U' :: digits => Integer.natural? digits.reverse
    | _ => none
  | _ => none

/-- The operator of the rule around its left operand; the remainder is none. -/
def Rule.operator? : Rule → Option Operator
  | .relationEq => some (.compare .eq)
  | .relationNe => some (.compare .ne)
  | .relationLt => some (.compare .lt)
  | .relationLe => some (.compare .le)
  | .relationGt => some (.compare .gt)
  | .relationGe => some (.compare .ge)
  | .additionAdd => some .add
  | .additionSub => some .sub
  | .multiplicationMul => some .mul
  | .multiplicationDiv => some .div
  | _ => none

/-- The operation that a tree stands for, if it has nothing but names, integers without sign,
parentheses and operators. -/
def Tree.operation? : Tree → Option Operation
  | .node .ident [.token ⟨.ident, text⟩] => some (.name text)
  | .node .literal [.token leaf] => leaf.natural?.map .number
  | .node .parenExpr [inner] => inner.operation?.map .paren
  | .node .unary [.node .unaryNot _, operand] => operand.operation?.map .not
  | .node .unary [.node .unaryNeg _, operand] => operand.operation?.map .minus
  | .node .conditionalOr [left, right] =>
    .map₂ (.binary .or) left.operation? right.operation?
  | .node .conditionalAnd [left, right] =>
    .map₂ (.binary .and) left.operation? right.operation?
  | .node .multiplication [.node .multiplicationMod [left], right] =>
    .map₂ .remainder left.operation? right.operation?
  | .node .relation [.node rule [left], right] | .node .addition [.node rule [left], right]
  | .node .multiplication [.node rule [left], right] =>
    rule.operator?.bind fun operator => .map₂ (.binary operator) left.operation? right.operation?
  | .node rule [only] => if rule.isLevel then only.operation? else none
  | _ => none

/-! ## The trees of operations -/

/-- How tightly the operations of a rule bind at least, if they are no negations. -/
def Rule.tightness : Rule → Nat
  | .expr | .conditionalOr => 1
  | .conditionalAnd => 2
  | .relation => 4
  | .addition => 5
  | .multiplication => 6
  | .unary => 7
  | _ => 8

/-- The single child of a node on a level of precedence binds at least as tightly. -/
theorem Rule.Produces.below {label : Label} (level : rule.isLevel)
    (produced : rule.Produces [label]) :
    ∃ below : Rule, label = .rule below ∧ rule.tightness ≤ below.tightness := by
  cases rule with
  | expr => exact ⟨.conditionalOr, by simpa [Produces] using produced, by decide⟩
  | conditionalOr => exact ⟨.conditionalAnd, by simpa [Produces] using produced, by decide⟩
  | conditionalAnd => exact ⟨.relation, by simpa [Produces] using produced, by decide⟩
  | relation => exact ⟨.addition, by simpa [Produces] using produced, by decide⟩
  | addition => exact ⟨.multiplication, by simpa [Produces] using produced, by decide⟩
  | multiplication => exact ⟨.unary, by simpa [Produces] using produced, by decide⟩
  | unary => exact ⟨.member, by simpa [Produces] using produced, by decide⟩
  | member =>
    obtain ⟨below, isMember, labels⟩ := produced
    have tight : ∀ below ∈ members, Rule.member.tightness ≤ below.tightness := by decide
    exact ⟨below, List.singleton_inj.mp labels, tight below isMember⟩
  | primary =>
    obtain ⟨below, isPrimary, labels⟩ := produced
    have tight : ∀ below ∈ primaries, Rule.primary.tightness ≤ below.tightness := by decide
    exact ⟨below, List.singleton_inj.mp labels, tight below isPrimary⟩
  | _ => simp [isLevel] at level

/-- The trees of the grammar that stand for an operation, with the rule at their root. -/
inductive Grouping.Builds : Rule → Tree → Operation → Prop
  /-- A name. -/
  | name {text : String} (spelled : ∀ c ∈ text.toList, Lexer.isNameChar c) :
    Builds .ident (.node .ident [.token ⟨.ident, text⟩]) (.name text)
  /-- An integer without sign. -/
  | number {leaf : Token} {value : Nat} (found : leaf.natural? = some value) :
    Builds .literal (.node .literal [.token leaf]) (.number value)
  /-- An operation in parentheses. -/
  | paren {inner : Tree} {body : Operation} (built : Builds .expr inner body) :
    Builds .parenExpr (.node .parenExpr [inner]) (.paren body)
  /-- A negation. -/
  | not {operand : Tree} {body : Operation} (built : Builds .unary operand body) :
    Builds .unary (.node .unary [.node .unaryNot [], operand]) (.not body)
  /-- An operation with a minus sign. -/
  | minus {operand : Tree} {body : Operation} (built : Builds .unary operand body) :
    Builds .unary (.node .unary [.node .unaryNeg [], operand]) (.minus body)
  /-- A disjunction. -/
  | or {left right : Tree} {one two : Operation} (first : Builds .conditionalOr left one)
    (second : Builds .conditionalAnd right two) :
    Builds .conditionalOr (.node .conditionalOr [left, right]) (.binary .or one two)
  /-- A conjunction. -/
  | and {left right : Tree} {one two : Operation} (first : Builds .conditionalAnd left one)
    (second : Builds .relation right two) :
    Builds .conditionalAnd (.node .conditionalAnd [left, right]) (.binary .and one two)
  /-- A comparison. -/
  | comparison {rule : Rule} {operator : Operator} {left right : Tree} {one two : Operation}
    (isComparison : rule ∈ Rule.comparisons) (found : rule.operator? = some operator)
    (first : Builds .relation left one) (second : Builds .addition right two) :
    Builds .relation (.node .relation [.node rule [left], right]) (.binary operator one two)
  /-- A sum or difference. -/
  | sum {rule : Rule} {operator : Operator} {left right : Tree} {one two : Operation}
    (isSum : rule ∈ [Rule.additionAdd, .additionSub]) (found : rule.operator? = some operator)
    (first : Builds .addition left one) (second : Builds .multiplication right two) :
    Builds .addition (.node .addition [.node rule [left], right]) (.binary operator one two)
  /-- A product or quotient. -/
  | product {rule : Rule} {operator : Operator} {left right : Tree} {one two : Operation}
    (isProduct : rule ∈ Rule.products) (found : rule.operator? = some operator)
    (first : Builds .multiplication left one) (second : Builds .unary right two) :
    Builds .multiplication (.node .multiplication [.node rule [left], right])
      (.binary operator one two)
  /-- A remainder. -/
  | remainder {left right : Tree} {one two : Operation} (first : Builds .multiplication left one)
    (second : Builds .unary right two) :
    Builds .multiplication (.node .multiplication [.node .multiplicationMod [left], right])
      (.remainder one two)
  /-- A level of precedence without operator. -/
  | level {rule below : Rule} {only : Tree} {operation : Operation} (level : rule.isLevel)
    (tighter : rule.tightness ≤ below.tightness) (built : Builds below only operation) :
    Builds rule (.node rule [only]) operation

/-- What a tree of a rule says about a node. -/
theorem Tree.IsOf.produced (isOf : (Tree.node found children).IsOf rule) :
    rule = found ∧ rule.Produces (children.map Tree.label) ∧
      ∀ child ∈ children, child.Grammatical := by
  obtain ⟨grammatical, label⟩ := isOf
  obtain rfl : rule = found := by simpa using label.symm
  exact ⟨rfl, Tree.grammatical_node.mp grammatical⟩

/-- The two operands of an operator whose rule stands around the left one. -/
theorem Tree.IsOf.operands (isOf : (Tree.node rule [.node found [left], right]).IsOf rule)
    (isArranged : rule.isArranged) (binary : rule.operators ≠ []) :
    found ∈ rule.operators ∧ left.IsOf rule ∧ right.IsOf rule.tighter := by
  cases isOf.1.arranged isArranged with
  | or | and => exact absurd rfl binary
  | operator isOperator leftOf rightOf => exact ⟨isOperator, leftOf, rightOf⟩

/-- The operand of a sign. -/
theorem Tree.IsOf.signed {sign : Rule} {operand : Tree}
    (isOf : (Tree.node .unary [.node sign children, operand]).IsOf .unary) :
    children = [] ∧ operand.IsOf .unary := by
  cases isOf.1.arranged rfl with
  | not operandOf | minus operandOf => exact ⟨rfl, operandOf⟩
  | operator isOperator => cases isOperator

/-- The operands of a disjunction. -/
theorem Tree.IsOf.or (isOf : (Tree.node .conditionalOr [left, right]).IsOf .conditionalOr) :
    left.IsOf .conditionalOr ∧ right.IsOf .conditionalAnd := by
  cases isOf.1.arranged rfl with
  | or leftOf rightOf => exact ⟨leftOf, rightOf⟩
  | operator isOperator => cases isOperator

/-- The operands of a conjunction. -/
theorem Tree.IsOf.and (isOf : (Tree.node .conditionalAnd [left, right]).IsOf .conditionalAnd) :
    left.IsOf .conditionalAnd ∧ right.IsOf .relation := by
  cases isOf.1.arranged rfl with
  | and leftOf rightOf => exact ⟨leftOf, rightOf⟩
  | operator isOperator => cases isOperator

/-- **Trees of the grammar with an operation are built from it.** -/
theorem Tree.IsOf.builds {tree : Tree} {operation : Operation} (isOf : tree.IsOf rule)
    (found : tree.operation? = some operation) : Builds rule tree operation := by
  fun_induction Tree.operation? tree generalizing rule operation with
  | case1 text =>
    obtain ⟨rfl, -, each⟩ := isOf.produced
    obtain rfl := Option.some.inj found
    have spelled := Tree.grammatical_token.mp (each (.token ⟨.ident, text⟩) (by simp))
    exact .name spelled.2
  | case2 leaf =>
    obtain ⟨rfl, -, -⟩ := isOf.produced
    obtain ⟨value, valueFound, rfl⟩ := Option.map_eq_some_iff.mp found
    exact .number valueFound
  | case3 inner ih =>
    obtain ⟨rfl, produced, each⟩ := isOf.produced
    obtain ⟨body, bodyFound, rfl⟩ := Option.map_eq_some_iff.mp found
    have innerOf : inner.IsOf .expr :=
      ⟨each inner (by simp), by simpa [Rule.Produces] using produced⟩
    exact .paren (ih innerOf bodyFound)
  | case4 children operand ih =>
    obtain ⟨rfl, -, -⟩ := isOf.produced
    obtain ⟨body, bodyFound, rfl⟩ := Option.map_eq_some_iff.mp found
    obtain ⟨rfl, operandOf⟩ := isOf.signed
    exact .not (ih operandOf bodyFound)
  | case5 children operand ih =>
    obtain ⟨rfl, -, -⟩ := isOf.produced
    obtain ⟨body, bodyFound, rfl⟩ := Option.map_eq_some_iff.mp found
    obtain ⟨rfl, operandOf⟩ := isOf.signed
    exact .minus (ih operandOf bodyFound)
  | case6 left right leftIh rightIh =>
    obtain ⟨rfl, -, -⟩ := isOf.produced
    obtain ⟨one, two, leftFound, rightFound, rfl⟩ := Option.map₂_eq_some_iff.mp found
    obtain ⟨leftOf, rightOf⟩ := isOf.or
    exact .or (leftIh leftOf leftFound) (rightIh rightOf rightFound)
  | case7 left right leftIh rightIh =>
    obtain ⟨rfl, -, -⟩ := isOf.produced
    obtain ⟨one, two, leftFound, rightFound, rfl⟩ := Option.map₂_eq_some_iff.mp found
    obtain ⟨leftOf, rightOf⟩ := isOf.and
    exact .and (leftIh leftOf leftFound) (rightIh rightOf rightFound)
  | case8 left right leftIh rightIh =>
    obtain ⟨rfl, -, -⟩ := isOf.produced
    obtain ⟨one, two, leftFound, rightFound, rfl⟩ := Option.map₂_eq_some_iff.mp found
    obtain ⟨-, leftOf, rightOf⟩ := isOf.operands rfl (by decide)
    exact .remainder (leftIh leftOf leftFound) (rightIh rightOf rightFound)
  | case9 wrapper left right leftIh rightIh =>
    obtain ⟨rfl, -, -⟩ := isOf.produced
    obtain ⟨operator, operatorFound, both⟩ := Option.bind_eq_some_iff.mp found
    obtain ⟨one, two, leftFound, rightFound, rfl⟩ := Option.map₂_eq_some_iff.mp both
    obtain ⟨isComparison, leftOf, rightOf⟩ := isOf.operands rfl (by decide)
    exact .comparison isComparison operatorFound (leftIh leftOf leftFound)
      (rightIh rightOf rightFound)
  | case10 wrapper left right leftIh rightIh =>
    obtain ⟨rfl, -, -⟩ := isOf.produced
    obtain ⟨operator, operatorFound, both⟩ := Option.bind_eq_some_iff.mp found
    obtain ⟨one, two, leftFound, rightFound, rfl⟩ := Option.map₂_eq_some_iff.mp both
    obtain ⟨isSum, leftOf, rightOf⟩ := isOf.operands rfl (by decide)
    exact .sum isSum operatorFound (leftIh leftOf leftFound) (rightIh rightOf rightFound)
  | case11 wrapper left right _ leftIh rightIh =>
    obtain ⟨rfl, -, -⟩ := isOf.produced
    obtain ⟨operator, operatorFound, both⟩ := Option.bind_eq_some_iff.mp found
    obtain ⟨one, two, leftFound, rightFound, rfl⟩ := Option.map₂_eq_some_iff.mp both
    obtain ⟨isProduct, leftOf, rightOf⟩ := isOf.operands rfl (by decide)
    exact .product isProduct operatorFound (leftIh leftOf leftFound) (rightIh rightOf rightFound)
  | case12 node only _ _ _ level ih =>
    obtain ⟨rfl, produced, each⟩ := isOf.produced
    obtain ⟨below, label, tighter⟩ := Rule.Produces.below level produced
    exact .level level tighter (ih ⟨each only (by simp), label⟩ found)
  | case13 => simp at found
  | case14 => simp at found

/-! ## Grouping -/

/-- Whether an operator joins truth values and neither compares nor computes. -/
def Operator.isLogical : Operator → Bool
  | .or | .and => true
  | _ => false

namespace Grouping

namespace Operation

/-- Whether an operation is a negation. -/
def isNot : Operation → Bool
  | .not _ => true
  | _ => false

/-- Whether no negation is a direct operand of a comparison or of arithmetic. -/
def notsApart : Operation → Bool
  | .name _ | .number _ => true
  | .paren body | .not body => body.notsApart
  | .minus body => !body.isNot && body.notsApart
  | .binary operator left right =>
    (operator.isLogical || (!left.isNot && !right.isNot)) && (left.notsApart && right.notsApart)
  | .remainder left right => (!left.isNot && !right.isNot) && (left.notsApart && right.notsApart)

end Operation

namespace Builds

variable {operator : Operator} {rule : Rule} {tree : Tree} {operation : Operation}

/-- Comparisons, sums and products bind like their levels of the grammar. -/
theorem operator?_level (found : rule.operator? = some operator) :
    operator.isLogical = false ∧
      (rule ∈ Rule.comparisons → operator.level = Rule.relation.tightness) ∧
      (rule ∈ [Rule.additionAdd, .additionSub] → operator.level = Rule.addition.tightness) ∧
        (rule ∈ Rule.products → operator.level = Rule.multiplication.tightness) := by
  unfold Rule.operator? at found
  split at found <;> simp only [Option.some.injEq, reduceCtorEq] at found <;> subst found <;> decide

/-- An operation that is no negation binds as tightly as its rule says. -/
theorem tightness_le_level (built : Builds rule tree operation) (noNot : operation.isNot = false) :
    rule.tightness ≤ operation.level := by
  induction built with
  | name | number | paren | minus | or | and => exact Nat.le_refl _
  | remainder => exact (by decide : 6 ≤ 8)
  | not => simp [Operation.isNot] at noNot
  | comparison isComparison found => exact ((operator?_level found).2.1 isComparison).ge
  | sum isSum found => exact ((operator?_level found).2.2.1 isSum).ge
  | product isProduct found => exact ((operator?_level found).2.2.2 isProduct).ge
  | level _ tighter _ ih => exact tighter.trans (ih noNot)

/-- Below the level of negations every operation binds as tightly as its rule says. -/
theorem le_level (built : Builds rule tree operation) {bound : Nat} (tight : bound ≤ rule.tightness)
    (loose : bound ≤ notLevel) : bound ≤ operation.level := by
  cases negated : operation.isNot with
  | false => exact tight.trans (built.tightness_le_level negated)
  | true =>
    cases operation with
    | not body => exact loose
    | _ => simp [Operation.isNot] at negated

/-- An operator that is not logical has operands that bind as tightly as the levels of the grammar
around it. -/
theorem binary_grouped {leftRule rightRule : Rule} {one two : Operation}
    (noLogical : operator.isLogical = false) (apart : (Operation.binary operator one two).notsApart)
    (first : Builds leftRule left one) (leftTight : operator.level ≤ leftRule.tightness)
    (second : Builds rightRule right two) (rightTight : operator.level + 1 ≤ rightRule.tightness)
    (leftGrouped : one.notsApart → one.Grouped) (rightGrouped : two.notsApart → two.Grouped) :
    (Operation.binary operator one two).Grouped := by
  simp only [Operation.notsApart, noLogical, Bool.false_or, Bool.and_eq_true, Bool.not_eq_true']
    at apart
  obtain ⟨⟨leftNot, rightNot⟩, leftApart, rightApart⟩ := apart
  exact ⟨⟨leftTight.trans (first.tightness_le_level leftNot), leftGrouped leftApart⟩,
    rightTight.trans (second.tightness_le_level rightNot), rightGrouped rightApart⟩

/-- **With negations apart, the grammar groups like the precedence of the operators.** -/
theorem grouped (built : Builds rule tree operation) (apart : operation.notsApart) :
    operation.Grouped := by
  induction built with
  | name | number => trivial
  | paren _ ih => exact ih apart
  | not body ih => exact ⟨body.le_level (by decide) (Nat.le_refl _), ih apart⟩
  | minus body ih =>
    simp only [Operation.notsApart, Bool.and_eq_true, Bool.not_eq_true'] at apart
    exact ⟨body.tightness_le_level apart.1, ih apart.2⟩
  | or first second firstIh secondIh =>
    simp only [Operation.notsApart, Bool.and_eq_true] at apart
    exact ⟨⟨first.le_level (by decide) (by decide), firstIh apart.2.1⟩,
      second.le_level (by decide) (by decide), secondIh apart.2.2⟩
  | and first second firstIh secondIh =>
    simp only [Operation.notsApart, Bool.and_eq_true] at apart
    exact ⟨⟨first.le_level (by decide) (by decide), firstIh apart.2.1⟩,
      second.le_level (by decide) (by decide), secondIh apart.2.2⟩
  | comparison isComparison found first second firstIh secondIh =>
    obtain ⟨noLogical, level, -⟩ := operator?_level found
    have same := level isComparison
    exact binary_grouped noLogical apart first same.le second
      (by rw [same]; decide) firstIh secondIh
  | sum isSum found first second firstIh secondIh =>
    obtain ⟨noLogical, -, level, -⟩ := operator?_level found
    have same := level isSum
    exact binary_grouped noLogical apart first same.le second
      (by rw [same]; decide) firstIh secondIh
  | product isProduct found first second firstIh secondIh =>
    obtain ⟨noLogical, -, -, level⟩ := operator?_level found
    have same := level isProduct
    exact binary_grouped noLogical apart first same.le second
      (by rw [same]; decide) firstIh secondIh
  | remainder first second firstIh secondIh =>
    simp only [Operation.notsApart, Bool.and_eq_true] at apart
    exact ⟨firstIh apart.2.1, secondIh apart.2.2⟩
  | level _ _ _ ih => exact ih apart

end Builds

end Grouping

end CelWhere
