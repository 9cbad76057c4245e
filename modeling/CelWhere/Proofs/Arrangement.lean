import CelWhere.Convert.Arrangement
import CelWhere.Proofs.Grammar

/-! # Operands of the grammar

In trees of the grammar the operands of operators are nodes, and what a node consists of are its
operands, but for the literal that an equality with it leaves out.

* `Tree.Arranged` — the children of the nodes that have operands, a case for each production;
* `Tree.Arranged.exists_operand` — what is found in such a node, but in no literal, is found in one
  of its operands. -/

namespace CelWhere

namespace Rule

/-- The rules that stand around the left operands of a level of precedence. -/
def operators : Rule → List Rule
  | .relation => comparisons
  | .addition => [.additionAdd, .additionSub]
  | .multiplication => products
  | _ => []

/-- The rule of the right operands of a level of precedence. -/
def tighter : Rule → Rule
  | .relation => .addition
  | .addition => .multiplication
  | _ => .unary

variable {rule operator : Rule} {labels : List Label}

/-- A level with operators produces one operand, or an operator and the operand beside it. -/
theorem Produces.sides (binary : rule.operators ≠ []) (produced : rule.Produces labels) :
    labels = [.rule rule.tighter] ∨ ∃ operator ∈ rule.operators,
      labels = [.rule operator, .rule rule.tighter] := by
  cases rule with
  | relation | addition | multiplication => exact produced
  | _ => exact absurd rfl binary

/-- The rule around a left operand produces it. -/
theorem Produces.left (isOperator : operator ∈ rule.operators)
    (produced : operator.Produces labels) :
    labels = [.rule rule] := by
  cases rule with
  | relation =>
    simp only [operators, comparisons, List.mem_cons, List.not_mem_nil, or_false] at isOperator
    rcases isOperator with rfl | rfl | rfl | rfl | rfl | rfl | rfl <;> exact produced
  | addition =>
    simp only [operators, List.mem_cons, List.not_mem_nil, or_false] at isOperator
    rcases isOperator with rfl | rfl <;> exact produced
  | multiplication =>
    simp only [operators, products, List.mem_cons, List.not_mem_nil, or_false] at isOperator
    rcases isOperator with rfl | rfl | rfl <;> exact produced
  | _ => simp [operators] at isOperator

/-- The rules around left operands are written as those. -/
theorem isArranged_of_mem_operators (isOperator : operator ∈ rule.operators) :
    operator.isArranged := by
  have all : ∀ operator ∈ operators .relation ++ operators .addition ++ operators .multiplication,
      operator.isArranged := by decide
  cases rule with
  | relation | addition | multiplication => exact all operator (by simp [isOperator])
  | _ => simp [operators] at isOperator

end Rule

/-! ## Arranged trees -/

/-- The children of the nodes that have operands, a case for each production. -/
inductive Tree.Arranged : Rule → List Tree → Prop
  /-- An operand by itself. -/
  | only {rule below : Rule} {operand : Tree} (isOf : operand.IsOf below) : Arranged rule [operand]
  /-- A choice. -/
  | choice {condition positive negative : Tree} (first : condition.IsOf .conditionalOr)
    (second : positive.IsOf .conditionalOr) (third : negative.IsOf .expr) :
    Arranged .expr [condition, positive, negative]
  /-- A disjunction. -/
  | or {left right : Tree} (leftOf : left.IsOf .conditionalOr)
    (rightOf : right.IsOf .conditionalAnd) :
    Arranged .conditionalOr [left, right]
  /-- A conjunction. -/
  | and {left right : Tree} (leftOf : left.IsOf .conditionalAnd) (rightOf : right.IsOf .relation) :
    Arranged .conditionalAnd [left, right]
  /-- A negation. -/
  | not {operand : Tree} (isOf : operand.IsOf .unary) :
    Arranged .unary [.node .unaryNot [], operand]
  /-- A minus sign before an operand. -/
  | minus {operand : Tree} (isOf : operand.IsOf .unary) :
    Arranged .unary [.node .unaryNeg [], operand]
  /-- An operator around the left operand, with the right one beside it. -/
  | operator {rule operator : Rule} {left right : Tree} (isOperator : operator ∈ rule.operators)
    (leftOf : left.IsOf rule)
    (rightOf : right.IsOf rule.tighter) : Arranged rule [.node operator [left], right]

namespace Tree

variable {rule : Rule} {children : List Tree}

/-- **Nodes with operands.** In trees of the grammar they have the children of one of the
productions. -/
theorem Grammatical.arranged (grammatical : (Tree.node rule children).Grammatical)
    (isArranged : rule.isArranged) :
    Arranged rule children := by
  obtain ⟨produced, each⟩ := grammatical_node.mp grammatical
  have single {below : Rule} (alone : children.map label = [.rule below]) :
      Arranged rule children := by
    obtain ⟨only, rfl, label⟩ := map_label_one.mp alone
    exact .only ⟨each only (.head _), label⟩
  cases rule with
  | expr =>
    rcases produced with alone | three
    · exact single alone
    · obtain ⟨condition, positive, negative, rfl, first, second, third⟩ := map_label_three.mp three
      exact .choice ⟨each _ (by simp), first⟩ ⟨each _ (by simp), second⟩ ⟨each _ (by simp), third⟩
  | conditionalOr =>
    rcases produced with alone | both
    · exact single alone
    · obtain ⟨left, right, rfl, leftLabel, rightLabel⟩ := map_label_two.mp both
      exact .or ⟨each _ (by simp), leftLabel⟩ ⟨each _ (by simp), rightLabel⟩
  | conditionalAnd =>
    rcases produced with alone | both
    · exact single alone
    · obtain ⟨left, right, rfl, leftLabel, rightLabel⟩ := map_label_two.mp both
      exact .and ⟨each _ (by simp), leftLabel⟩ ⟨each _ (by simp), rightLabel⟩
  | relation | addition | multiplication =>
    rcases produced.sides (by decide) with alone | ⟨operator, isOperator, both⟩
    · exact single alone
    · obtain ⟨wrapped, right, rfl, wrappedLabel, rightLabel⟩ := map_label_two.mp both
      obtain ⟨below, rfl⟩ := label_eq_rule.mp wrappedLabel
      obtain ⟨wrappedProduced, belowEach⟩ :=
        grammatical_node.mp (each (.node operator below) (by simp))
      obtain ⟨left, rfl, leftLabel⟩ := map_label_one.mp (wrappedProduced.left isOperator)
      exact .operator isOperator ⟨belowEach left (.head _), leftLabel⟩
        ⟨each right (by simp), rightLabel⟩
  | unary =>
    rcases produced with alone | ⟨sign, isSign, both⟩
    · exact single alone
    · obtain ⟨signTree, operand, rfl, signLabel, label⟩ := map_label_two.mp both
      obtain ⟨below, rfl⟩ := label_eq_rule.mp signLabel
      have none := (grammatical_node.mp (each (.node sign below) (by simp))).1
      simp only [List.mem_cons, List.not_mem_nil, or_false] at isSign
      rcases isSign with rfl | rfl
      · obtain rfl := List.map_eq_nil_iff.mp none
        exact .not ⟨each operand (by simp), label⟩
      · obtain rfl := List.map_eq_nil_iff.mp none
        exact .minus ⟨each operand (by simp), label⟩
  | member | primary =>
    obtain ⟨below, -, alone⟩ := produced
    exact single alone
  | relationLt | relationLe | relationGt | relationGe | relationEq | relationNe | relationIn
  | additionAdd | additionSub
  | multiplicationMul | multiplicationDiv | multiplicationMod => exact single produced
  | _ => simp [Rule.isArranged, Rule.isLevel] at isArranged

namespace Arranged

variable {catalog : Catalog} {arrangement : Arrangement} {operand : Tree}
  (arranged : Arranged rule children)

/-- An operator is arranged as one. -/
theorem of_operator {operator : Rule} (isOperator : operator ∈ rule.operators) (left right : Tree) :
    Arrangement.of catalog rule [.node operator [left], right] =
      Arrangement.ofOperator catalog rule operator left right := by
  cases rule with
  | relation | addition | multiplication => rfl
  | _ => simp [Rule.operators] at isOperator

include arranged in
/-- **What is found in a node is found in an operand.** A property that passes through nodes, and
that no literal has, is one of the operands that are written. -/
theorem exists_operand {property : Tree → Prop}
    (through : ∀ rule children, rule.isArranged ∨ rule = .unaryNot ∨ rule = .unaryNeg →
      (property (.node rule children) ↔ ∃ child ∈ children, property child))
    (noLiteral : ∀ tree token, tree.Grammatical → tree.literal? = some token → ¬property tree)
    (isArranged : rule.isArranged)
    (found : Arrangement.of catalog rule children = .ok arrangement) :
    property (.node rule children) ↔ ∃ operand ∈ arrangement.operands, property operand := by
  rw [through rule children (.inl isArranged)]
  cases arranged with
  | only =>
    rw [Arrangement.of_single] at found
    cases found
    rfl
  | choice | or | and =>
    cases found
    rfl
  | not =>
    cases found
    simp [Arrangement.operands, through .unaryNot [] (by simp)]
  | minus =>
    cases found
    simp [Arrangement.operands, through .unaryNeg [] (by simp)]
  | @operator _ operator left right isOperator leftOf rightOf =>
    have wrapper : property (.node operator [left]) ↔ property left := by
      simpa using through operator [left] (.inl (Rule.isArranged_of_mem_operators isOperator))
    rw [of_operator isOperator] at found
    rcases Arrangement.ofOperator_cases found with
      ⟨operand, test, compared, rfl⟩ | ⟨pairing, -, rfl⟩
    · -- The side that is left out is a literal.
      rcases Arrangement.literalComparison?_literal compared with ⟨rfl, literal⟩ | ⟨rfl, literal⟩
      · obtain ⟨token, isLiteral⟩ := Option.isSome_iff_exists.mp literal
        simp [Arrangement.operands, wrapper, noLiteral right token rightOf.1 isLiteral]
      · obtain ⟨token, isLiteral⟩ := Option.isSome_iff_exists.mp literal
        simp [Arrangement.operands, wrapper, noLiteral left token leftOf.1 isLiteral]
    · simp [Arrangement.operands, wrapper]

end Arranged

end Tree

/-- The operands of a node are parts below it. -/
theorem Arrangement.mem_partsOf {catalog : Catalog} {rule : Rule} {children : List Tree}
    {arrangement : Arrangement} {operand : Tree}
    (found : Arrangement.of catalog rule children = .ok arrangement)
    (member : operand ∈ arrangement.operands) : operand ∈ Tree.partsOf children := by
  refine Tree.mem_partsOf.mpr ?_
  rcases mem_operands found member with inside | ⟨operator, below, right, rfl⟩
  · exact ⟨operand, inside, operand.self_mem_parts⟩
  · exact ⟨_, .head _, .tail _ (Tree.mem_partsOf.mpr ⟨operand, .head _, operand.self_mem_parts⟩)⟩

end CelWhere
