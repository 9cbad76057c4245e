import CelWhere.Convert.Arrangement
import CelWhere.Convert.Locality.Function

/-! # Locality of the conversion

Steps that reach the height of a tree suffice, so the conversion of a tree is one step over the
conversions of smaller trees. -/

namespace CelWhere

namespace Convert

variable {context : Context} {first second : Tree → Fragment} {children : List Tree}

theorem nodesOnly_congr (agree : AgreeUpTo (Tree.heights children) first second) :
    nodesOnly first children = nodesOnly second children := by
  induction children with
  | nil => rfl
  | cons tree rest ih =>
    cases tree with
    | token leaf => exact ih agree.tail
    | node rule below => rw [nodesOnly, nodesOnly, agree.head, ih agree.tail]

theorem arrangement_congr {rule : Rule} {arrangement : Arrangement} {dialect : Dialect}
    (found : Arrangement.of context.catalog rule children = .ok arrangement)
    (agree : AgreeUpTo (Tree.heights children) first second) :
    arrangement.fragment dialect first = arrangement.fragment dialect second := by
  refine Arrangement.fragment_congr fun operand member => ?_
  rcases Arrangement.mem_operands found member with inside | ⟨operator, below, right, rfl⟩
  · exact agree operand (Tree.height_le_heights inside)
  · exact agree.below.head

theorem step_congr {rule : Rule} (agree : AgreeUpTo (Tree.heights children) first second) :
    step context first (.node rule children) = step context second (.node rule children) := by
  have nested : AgreeUpTo (Tree.heights children) (fun tree => .nested (first tree))
      (fun tree => .nested (second tree)) := fun tree le => congrArg _ (agree tree le)
  by_cases isArranged : rule.isArranged
  · rw [step_arranged isArranged, step_arranged isArranged]
    cases found : Arrangement.of context.catalog rule children with
    | error fault => rfl
    | ok arrangement => exact arrangement_congr found nested
  cases rule with
  | unaryNot | unaryNeg => rfl
  | memberDot => exact selection_congr nested
  | memberDotArg => exact methodCall_congr nested
  | memberIndex => exact indexing_congr nested
  | memberObject => rfl
  | dotIdentArg => exact dottedCall_congr nested
  | dotIdent => rfl
  | identArg => exact functionCall_congr nested
  | ident => rfl
  | parenExpr => exact parenthesised_congr nested
  | listLit => exact listOf_congr nested
  | mapLit => exact mapOf_congr nested
  | exprList => exact expressions_congr nested
  | fieldInits | mapInits => exact entryValues_congr nested
  | literal => rfl
  | other => exact nodesOnly_congr agree
  | _ => exact absurd rfl isArranged

/-- Steps that reach the height of a tree convert it like any more steps. -/
theorem steps_eq_of_height_le {tree : Tree} {fuel more : Nat} (enough : tree.height ≤ fuel)
    (alsoEnough : tree.height ≤ more) : steps context fuel tree = steps context more tree := by
  induction fuel generalizing tree more with
  | zero =>
    have := tree.height_pos
    omega
  | succ fuel ih =>
    cases more with
    | zero =>
      have := tree.height_pos
      omega
    | succ more =>
      cases tree with
      | token leaf => rfl
      | node rule children =>
        simp only [Tree.height] at enough alsoEnough
        exact step_congr fun below le => ih (by omega) (by omega)

end Convert

/-- The conversion of a tree is one step over the conversions of smaller trees. -/
theorem Context.fragment_eq (context : Context) (tree : Tree) :
    context.fragment tree = Convert.step context context.fragment tree := by
  cases tree with
  | token leaf => rfl
  | node rule children =>
    rw [fragment, Tree.height, Convert.steps]
    exact Convert.step_congr fun below le => Convert.steps_eq_of_height_le le (Nat.le_refl _)

end CelWhere
