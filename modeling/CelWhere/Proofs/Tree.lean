import CelWhere.Convert.Function

/-! # Parts of trees

Trees are nested through lists of children, so induction on them is stated once here, with a
hypothesis for every child. A property that passes from a node to its children passes to everything
that the questions about a tree find below it:

* `Tree.literal?_induction` — induction down to the literal that a tree consists of;
* `Tree.Hereditary` — the property of a node is a property of its children;
* `Tree.Hereditary.unwrap`, `Tree.Hereditary.literal?`, `Tree.Hereditary.fieldPath` — so of the node
  under nodes with a single child, of the literal that a tree consists of, and of the root of a
  chain of selections;
* `Tree.tokens`, `Tree.parts` — the tokens and the parts of a tree, which grow from children to
  nodes. -/

namespace CelWhere.Tree

/-- Induction on trees: what holds of a node whenever it holds of all its children holds of every
tree. -/
@[elab_as_elim, induction_eliminator]
theorem inductionOnChildren {motive : Tree → Prop} (token : ∀ leaf, motive (.token leaf))
    (node : ∀ rule children, (∀ child ∈ children, motive child) → motive (.node rule children)) :
    ∀ tree, motive tree
  | .token leaf => token leaf
  | .node rule children => node rule children fun child _ => inductionOnChildren token node child
termination_by tree => tree.height
decreasing_by
  have := height_le_heights ‹child ∈ children›
  simp only [height]
  omega

/-- Induction on trees with a literal: what holds of the node of the literal and passes to nodes
with a single child holds of every tree that the literal is found in. -/
theorem literal?_induction {motive : Tree → Prop} {token : Token}
    (literal : ∀ rest, motive (.node .literal (.token token :: rest)))
    (single : ∀ rule child, rule ≠ .literal → motive child → motive (.node rule [child]))
    {tree : Tree} (found : tree.literal? = some token) : motive tree := by
  induction tree with
  | token leaf => simp [literal?] at found
  | node rule children ih =>
    unfold literal? at found
    split at found
    next leaf rest same =>
      obtain ⟨rfl, rfl⟩ := Tree.node.inj same
      obtain rfl := Option.some.inj found
      exact literal rest
    · simp at found
    next child _ notLiteral same =>
      obtain ⟨rfl, rfl⟩ := Tree.node.inj same
      exact single rule child notLiteral (ih child (.head _) found)
    · simp at found

/-! ## Tokens -/

mutual

/-- The tokens of a tree from left to right. -/
def tokens : Tree → List Token
  | .token leaf => [leaf]
  | .node _ children => tokensOf children

/-- The tokens of the trees of a list from left to right. -/
def tokensOf : List Tree → List Token
  | [] => []
  | tree :: rest => tree.tokens ++ tokensOf rest

end

/-- The tokens of a tree are among those of a list that holds it. -/
theorem tokens_subset_tokensOf {tree : Tree} {trees : List Tree} (member : tree ∈ trees) :
    tree.tokens ⊆ tokensOf trees := by
  induction trees with
  | nil => cases member
  | cons head rest ih =>
    intro token found
    rw [tokensOf, List.mem_append]
    rcases List.mem_cons.mp member with rfl | later
    · exact .inl found
    · exact .inr (ih later found)

/-! ## Parts -/

mutual

/-- The parts of a tree: the tree itself and the parts of its children. -/
def parts : Tree → List Tree
  | .token leaf => [.token leaf]
  | .node rule children => .node rule children :: partsOf children

/-- The parts of the trees of a list. -/
def partsOf : List Tree → List Tree
  | [] => []
  | tree :: rest => tree.parts ++ partsOf rest

end

theorem self_mem_parts (tree : Tree) : tree ∈ tree.parts := by
  cases tree <;> simp [parts]

/-- The parts of a list are the parts of its trees. -/
theorem mem_partsOf {part : Tree} {trees : List Tree} :
    part ∈ partsOf trees ↔ ∃ tree ∈ trees, part ∈ tree.parts := by
  induction trees with
  | nil => simp [partsOf]
  | cons tree rest ih => simp [partsOf, ih]

/-- Induction on parts: what holds of a node whenever it holds of all parts below it holds of every
tree. -/
theorem inductionOnParts {motive : Tree → Prop} (token : ∀ leaf, motive (.token leaf))
    (node : ∀ rule children, (∀ part ∈ partsOf children, motive part) →
      motive (.node rule children)) (tree : Tree) :
    motive tree := by
  suffices all : ∀ part ∈ tree.parts, motive part from all tree tree.self_mem_parts
  induction tree with
  | token leaf =>
    intro part isPart
    obtain rfl := List.mem_singleton.mp isPart
    exact token leaf
  | node rule children ih =>
    have below : ∀ part ∈ partsOf children, motive part := by
      intro part isPart
      obtain ⟨child, isChild, isBelow⟩ := mem_partsOf.mp isPart
      exact ih child isChild part isBelow
    intro part isPart
    rcases List.mem_cons.mp isPart with rfl | isBelow
    · exact node rule children below
    · exact below part isBelow

/-- A token of a tree is one of its parts. -/
theorem token_mem_parts {tree : Tree} {token : Token} (member : token ∈ tree.tokens) :
    Tree.token token ∈ tree.parts := by
  induction tree with
  | token leaf =>
    obtain rfl := List.mem_singleton.mp member
    exact List.mem_singleton_self _
  | node rule children ih =>
    have found : ∃ child ∈ children, token ∈ child.tokens := by
      rw [tokens] at member
      clear ih
      induction children with
      | nil => simp [tokensOf] at member
      | cons child rest restIh =>
        rcases List.mem_append.mp member with first | later
        · exact ⟨child, .head _, first⟩
        · obtain ⟨other, isOther, among⟩ := restIh later
          exact ⟨other, .tail _ isOther, among⟩
    obtain ⟨child, isChild, among⟩ := found
    rw [parts]
    exact .tail _ (mem_partsOf.mpr ⟨child, isChild, ih child isChild among⟩)

/-! ## Levels of precedence -/

/-- A question that every level of precedence passes on to its only child is one about the tree
below the levels. -/
theorem eq_core {α : Type} (question : Tree → α)
    (passedOn : ∀ rule child, rule.isLevel → question (.node rule [child]) = question child)
    (tree : Tree) :
    question tree = question tree.core := by
  induction tree with
  | token leaf => rfl
  | node rule children ih =>
    unfold Tree.core
    split
    next found child same =>
      obtain ⟨rfl, rfl⟩ := Tree.node.inj same
      split
      next level => rw [passedOn rule child level, ih child (.head _)]
      · rfl
    · rfl

/-! ## Properties that children inherit -/

/-- A property of trees that passes from every node to its children. -/
def Hereditary (property : Tree → Prop) : Prop :=
  ∀ rule children, property (.node rule children) → ∀ child ∈ children, property child

namespace Hereditary

variable {property : Tree → Prop}

/-- Having no tokens but certain ones passes to children. -/
theorem tokens_subset (allowed : List Token) : Hereditary fun tree => tree.tokens ⊆ allowed := by
  intro rule children within child member
  have below : child.tokens ⊆ tokensOf children := tokens_subset_tokensOf member
  exact fun token found => within (below found)

/-- Having a property at every part passes to children. -/
theorem parts : Hereditary fun tree => ∀ part ∈ tree.parts, property part := by
  intro rule children holds child member part found
  have deeper : part ∈ partsOf children := mem_partsOf.mpr ⟨child, member, found⟩
  exact holds part (by simp [Tree.parts, deeper])

variable {tree : Tree} {token : Token} (hereditary : Hereditary property)

include hereditary

/-- Every part of a tree inherits what the tree has. -/
theorem of_mem_parts {part : Tree} (holds : property tree) (member : part ∈ tree.parts) :
    property part := by
  induction tree with
  | token leaf =>
    obtain rfl := List.mem_singleton.mp member
    exact holds
  | node rule children ih =>
    rw [Tree.parts, List.mem_cons, mem_partsOf] at member
    rcases member with rfl | ⟨child, isChild, below⟩
    · exact holds
    · exact ih child isChild (hereditary rule children holds child isChild) below

/-- The children of the first node of a list inherit what all trees of the list have. -/
theorem below {rule : Rule} {children rest : List Tree}
    (all : ∀ tree ∈ Tree.node rule children :: rest, property tree) :
    ∀ child ∈ children, property child :=
  hereditary rule children (all _ List.mem_cons_self)

/-- The node that a tree consists of inherits what the tree has, through the nodes with a single
child around it. -/
theorem unwrap {rule : Rule} {children : List Tree} :
    ∀ {tree : Tree}, property tree → tree.unwrap? rule = some children →
      property (.node rule children)
  | .token _, _, found => by simp [unwrap?] at found
  | .node inner below, holds, found => by
    unfold unwrap? at found
    split at found
    next same =>
      obtain rfl : below = children := by simpa using found
      exact same ▸ holds
    · split at found
      next only => exact unwrap (hereditary inner [only] holds only (by simp)) found
      · simp at found

/-- The tree below the levels of precedence inherits what the whole tree has. -/
theorem core (holds : property tree) : property tree.core := by
  induction tree with
  | token leaf => exact holds
  | node rule children ih =>
    unfold Tree.core
    split
    next found child same =>
      obtain ⟨rfl, rfl⟩ := Tree.node.inj same
      split
      · exact ih child (.head _) (hereditary _ _ holds child (.head _))
      · exact holds
    · exact holds

/-- The token of the literal that a tree consists of inherits what the tree has. -/
theorem literal? (holds : property tree) (found : tree.literal? = some token) :
    property (.token token) := by
  refine literal?_induction (motive := fun tree => property tree → property (.token token)) ?_
    ?_ found holds
  · exact fun rest holds => hereditary _ _ holds _ (.head _)
  · exact fun rule child _ ih holds => ih (hereditary _ _ holds child (.head _))

/-- The string literal that a tree consists of is a string and inherits what the tree has. -/
theorem stringLiteral? (holds : property tree) (found : tree.stringLiteral? = some token) :
    property (.token token) ∧ token.isString := by
  obtain ⟨given, isString⟩ := Option.filter_eq_some_iff.mp found
  obtain ⟨literal, -⟩ := Option.filter_eq_some_iff.mp given
  exact ⟨hereditary.literal? holds literal, isString⟩

/-- The integer literal that a tree consists of is an integer and inherits what the tree has. -/
theorem intLiteral? (holds : property tree) (found : tree.intLiteral? = some token) :
    property (.token token) ∧ token.kind = .int := by
  obtain ⟨given, isInt⟩ := Option.filter_eq_some_iff.mp found
  obtain ⟨literal, -⟩ := Option.filter_eq_some_iff.mp given
  exact ⟨hereditary.literal? holds literal, by simpa using isInt⟩

/-- The root of a chain of selections inherits what the whole chain has. -/
theorem fieldPath {root : Tree} {fields : List String} (holds : property tree)
    (found : tree.fieldPath = .ok (root, fields)) : property root := by
  refine fieldPath_induction (motive := fun tree _ => property tree → property root) id ?_
    ?_ found holds
  · exact fun object field rest _ ih holds => ih (hereditary _ _ holds object (.head _))
  · exact fun rule child _ _ ih holds => ih (hereditary _ _ holds child (.head _))

/-- The arguments of a call inherit what the nodes behind its name have. -/
theorem argumentsOf {behind arguments : List Tree} (holds : ∀ tree ∈ behind, property tree)
    (found : CelWhere.argumentsOf behind = .ok arguments) :
    ∀ argument ∈ arguments, property argument := by
  unfold CelWhere.argumentsOf at found
  split at found
  · obtain rfl : [] = arguments := by simpa using found
    simp
  next rule below rest =>
    obtain rfl : below = arguments := by simpa using found
    exact hereditary rule below (holds _ (by simp))
  · simp at found

end Hereditary

end CelWhere.Tree
