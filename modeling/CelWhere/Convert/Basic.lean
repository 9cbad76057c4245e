import CelWhere.Convert.Function
import CelWhere.Convert.Operator

/-! # Conversion of trees

One step converts a node, given how the trees below it are converted. The conversion of a whole tree
repeats the step from the root down; its height bounds how often. -/

namespace CelWhere

namespace Convert

/-- The nodes of a list one after the other; tokens among them are left out. -/
def nodesOnly (visit : Tree → Fragment) : List Tree → Fragment
  | [] => .empty
  | .token _ :: rest => nodesOnly visit rest
  | .node rule children :: rest => visit (.node rule children) ++ nodesOnly visit rest

/-- Converts a tree, given how the trees below it are converted. A rule that is none of the grammar
leaves its node to the nodes below. This takes for granted that such a rule is not named like one of
the operations of the converter, which would be carried out in its place. -/
def step (context : Context) (visit : Tree → Fragment) : Tree → Fragment
  | .token leaf => .text leaf.text
  | .node rule children =>
    let child (tree : Tree) : Fragment := .nested (visit tree)
    match rule with
    | .expr => choice child children
    | .conditionalOr => logical child .conditionalOr " OR " children
    | .conditionalAnd => logical child .conditionalAnd " AND " children
    | .relation => relation context child children
    | .relationLt | .relationLe | .relationGt | .relationGe | .relationEq
    | .relationNe | .relationIn
    | .additionAdd | .additionSub | .multiplicationMul | .multiplicationDiv | .multiplicationMod =>
      firstChild child children
    | .addition => addition context child children
    | .multiplication => multiplication child children
    | .unary => unary child children
    | .unaryNot | .unaryNeg => .empty
    | .member => single child .member children
    | .memberDot => selection context child children
    | .memberDotArg => methodCall context child children
    | .memberIndex => indexing context child children
    | .memberObject => .fail .objectConstruction
    | .primary => single child .primary children
    | .dotIdentArg => dottedCall child children
    | .dotIdent => dottedName children
    | .identArg => functionCall context child children
    | .ident => name children
    | .parenExpr => parenthesised child children
    | .listLit => listOf context child children
    | .mapLit => mapOf context child children
    | .exprList => expressions child children
    | .fieldInits | .mapInits => entryValues child children
    | .literal => literal children
    | .other _ => nodesOnly visit children

/-- Converts a tree by a number of steps; where they do not suffice, nothing is written. -/
def steps (context : Context) : Nat → Tree → Fragment
  | 0, _ => .empty
  | fuel + 1, tree => step context (steps context fuel) tree

end Convert

/-- The SQL of a tree, as a fragment. -/
def Context.fragment (context : Context) (tree : Tree) : Fragment :=
  Convert.steps context tree.height tree

/-- The SQL of a tree below another one. -/
abbrev Context.child (context : Context) (tree : Tree) : Fragment :=
  .nested (context.fragment tree)

end CelWhere
