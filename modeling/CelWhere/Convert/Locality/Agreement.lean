import CelWhere.Cel.Tree
import CelWhere.Sql.Fragment

/-! # Agreement up to a height

The conversion of a node depends on the conversions of smaller trees only: two ways to convert trees
that agree on all trees below a node give the same conversion of it. -/

namespace CelWhere.Convert

/-- Two ways to convert trees agree up to a height. -/
def AgreeUpTo (height : Nat) (first second : Tree → Fragment) : Prop :=
  ∀ tree : Tree, tree.height ≤ height → first tree = second tree

variable {first second : Tree → Fragment}

namespace AgreeUpTo

variable {tree : Tree} {rest children : List Tree}

theorem head (agree : AgreeUpTo (Tree.heights (tree :: rest)) first second) :
    first tree = second tree :=
  agree tree (by simp only [Tree.heights]; omega)

theorem tail (agree : AgreeUpTo (Tree.heights (tree :: rest)) first second) :
    AgreeUpTo (Tree.heights rest) first second :=
  fun other le => agree other (by simp only [Tree.heights]; omega)

theorem below {rule : Rule}
    (agree : AgreeUpTo (Tree.heights (.node rule children :: rest)) first second) :
    AgreeUpTo (Tree.heights children) first second :=
  fun other le => agree other (by simp only [Tree.heights, Tree.height]; omega)

theorem mono {small large : Nat} (le : small ≤ large) (agree : AgreeUpTo large first second) :
    AgreeUpTo small first second :=
  fun tree lower => agree tree (Nat.le_trans lower le)

theorem map_eq (agree : AgreeUpTo (Tree.heights children) first second) :
    children.map first = children.map second :=
  List.map_congr_left fun _ member => agree _ (Tree.height_le_heights member)

end AgreeUpTo

end CelWhere.Convert
