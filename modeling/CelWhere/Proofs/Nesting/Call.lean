import CelWhere.Index.Pattern
import CelWhere.Proofs.Tree

/-! # Comprehensions inside comprehensions

A comprehension is the call of one of five methods, and what stands inside it is its receiver and
its arguments. How deeply comprehensions are nested is said by chains of calls, each one inside the
call before it.

* `Tree.comprehended` — the trees inside a comprehension;
* `Tree.Nests` — a tree has a chain of comprehensions of a length, and `Tree.NestsWithin` that it
  has none that is longer;
* `Tree.nests_succ_node`, `Tree.NestsWithin.inside` — chains at a node and inside a
  comprehension. -/

namespace CelWhere.Tree

/-- The trees inside a comprehension: its receiver and its arguments. There are none inside other
trees. -/
def comprehended : Tree → List Tree
  | .node .memberDotArg (object :: method :: rest) =>
    if method.nameText ∈ Index.comprehensionMethods
      then object :: (argumentsOf rest).toOption.getD [] else []
  | _ => []

/-- What is inside a comprehension is a part of it. -/
theorem mem_parts_of_mem_comprehended {tree inner : Tree} (inside : inner ∈ tree.comprehended) :
    inner ∈ tree.parts := by
  have hereditary : Hereditary fun found => ∀ part ∈ found.parts, part ∈ tree.parts :=
    Hereditary.parts
  have whole : ∀ part ∈ tree.parts, part ∈ tree.parts := fun _ => id
  unfold comprehended at inside
  split at inside
  next object method rest =>
    have below := hereditary _ _ whole
    split at inside
    · rcases List.mem_cons.mp inside with rfl | argument
      · exact below inner (.head _) inner inner.self_mem_parts
      · cases found : argumentsOf rest with
        | error fault => simp [found, Except.toOption] at argument
        | ok arguments =>
          have isArgument : inner ∈ arguments := by simpa [found, Except.toOption] using argument
          have given :=
            hereditary.argumentsOf (fun other member => below other (by simp [member])) found
          exact given inner isArgument inner inner.self_mem_parts
    · cases inside
  · cases inside

/-- A tree has a chain of as many comprehensions as a number says, each one inside the one before
it. -/
inductive Nests : Nat → Tree → Prop
  /-- A chain of no comprehensions is in every tree. -/
  | none (tree : Tree) : Nests 0 tree
  /-- The first comprehension is a part of the tree, and the others are inside it. -/
  | call {length : Nat} {tree call inner : Tree} (isPart : call ∈ tree.parts)
      (inside : inner ∈ call.comprehended) (others : Nests length inner) : Nests (length + 1) tree

/-- The chains of a tree are at most as long as a number says. -/
def NestsWithin (limit : Nat) (tree : Tree) : Prop :=
  ¬tree.Nests (limit + 1)

variable {rule : Rule} {children : List Tree} {length limit : Nat}

/-- A token has no comprehension. -/
theorem not_nests_token {leaf : Token} : ¬(Tree.token leaf).Nests (length + 1) := by
  rintro (_ | ⟨isPart, inside, -⟩)
  obtain rfl := List.mem_singleton.mp isPart
  simp [comprehended] at inside

/-- The first comprehension of a chain is the node itself or below one of its children. -/
theorem nests_succ_node :
    (Tree.node rule children).Nests (length + 1) ↔
      (∃ inner ∈ (Tree.node rule children).comprehended, inner.Nests length) ∨
        ∃ child ∈ children, child.Nests (length + 1) := by
  constructor
  · rintro (_ | ⟨isPart, inside, others⟩)
    rw [parts, List.mem_cons, mem_partsOf] at isPart
    rcases isPart with rfl | ⟨child, isChild, below⟩
    · exact .inl ⟨_, inside, others⟩
    · exact .inr ⟨child, isChild, .call below inside others⟩
  · rintro (⟨inner, inside, others⟩ | ⟨child, isChild, chain⟩)
    · exact .call (self_mem_parts _) inside others
    · cases chain with
      | call isPart inside others =>
        refine .call ?_ inside others
        rw [parts, List.mem_cons, mem_partsOf]
        exact .inr ⟨child, isChild, isPart⟩

/-- Where a node is no call of a method, its chains are those of its children. -/
theorem nests_succ_of_ne (noCall : rule ≠ .memberDotArg) :
    (Tree.node rule children).Nests (length + 1) ↔
      ∃ child ∈ children, child.Nests (length + 1) := by
  have outside : (Tree.node rule children).comprehended = [] := by
    unfold comprehended
    split
    next same => exact absurd (Tree.node.inj same).1 noCall
    · rfl
  simp [nests_succ_node, outside]

/-- The children of a node have no longer chains than the node. -/
theorem NestsWithin.hereditary (limit : Nat) : Hereditary (NestsWithin limit) :=
  fun _ _ within child member longer => within (nests_succ_node.mpr (.inr ⟨child, member, longer⟩))

/-- Inside a comprehension chains are shorter than around it. -/
theorem NestsWithin.inside {tree inner : Tree} (within : tree.NestsWithin limit)
    (inside : inner ∈ tree.comprehended) :
    ∃ lower, limit = lower + 1 ∧ inner.NestsWithin lower := by
  cases limit with
  | zero => exact absurd (.call tree.self_mem_parts inside (.none inner)) within
  | succ lower => exact ⟨lower, rfl, fun longer => within (.call tree.self_mem_parts inside longer)⟩

end CelWhere.Tree
