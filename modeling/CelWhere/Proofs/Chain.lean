import CelWhere.Convert.Member
import CelWhere.Proofs.Grammar

/-! # Chains of selections

A chain selects a field of a name, a field of that field, and so on. The questions that the
conversion asks about a selection walk down its chain, each in a way of its own; on a chain they
find its root and its first field.

* `Rule.operations` — the rules of expressions that chains are the operands of;
* `Tree.chain?` — the root and the fields of a chain;
* `Tree.rootName_of_chain?`, `Tree.firstField_of_chain?`, `Tree.fieldPath_of_chain?` — what the
  questions find;
* `Tree.chains` — the tables and first fields of all chains in a tree. -/

namespace CelWhere

/-- The rules of operators and of operands without selections, calls, lists and maps. -/
def Rule.operations : List Rule :=
  [.expr, .conditionalOr, .conditionalAnd, .relation, .relationLt, .relationLe, .relationGt,
    .relationGe, .relationEq, .relationNe, .addition, .additionAdd, .additionSub, .multiplication,
    .multiplicationMul, .multiplicationDiv, .multiplicationMod, .unary, .unaryNot, .unaryNeg,
    .member, .primary, .ident, .parenExpr, .literal]

namespace Tree

variable {reference : String × String}

/-! ## The chain of a tree -/

/-- The name that a chain of selections starts from, and the selected fields in order. -/
def chain? : Tree → Option (String × List String)
  | .node .ident [.token name] => some (name.text, [])
  | .node .memberDot [object, .token field] =>
    object.chain?.map fun (root, fields) => (root, fields ++ [field.text])
  | .node .member [only] => only.chain?
  | .node .primary [only] => only.chain?
  | _ => none

/-- Chains are made from names by selections, and stay chains below levels of precedence. -/
theorem chain?_induction {motive : ∀ tree root fields, chain? tree = some (root, fields) → Prop}
    (name : ∀ name : Token, motive (.node .ident [.token name]) name.text [] rfl)
    (select : ∀ {object root fields} (field : Token) (found : object.chain? = some (root, fields)),
      motive object root fields found → motive (.node .memberDot [object, .token field]) root
      (fields ++ [field.text]) (by simp [chain?, found]))
    (level : ∀ {rule only root fields} (isLevel : rule = .member ∨ rule = .primary)
      (found : only.chain? = some (root, fields)), motive only root fields found →
      motive (.node rule [only]) root fields (by rcases isLevel with rfl | rfl <;> exact found))
    (tree : Tree) (root : String) (fields : List String)
    (found : tree.chain? = some (root, fields)) :
    motive tree root fields found := by
  fun_induction chain? tree generalizing fields with
  | case1 token =>
    obtain ⟨rfl, rfl⟩ : token.text = root ∧ fields = [] := by simpa [chain?] using found
    exact name token
  | case2 object field ih =>
    obtain ⟨⟨start, inner⟩, objectFound, same⟩ := Option.map_eq_some_iff.mp found
    obtain ⟨rfl, rfl⟩ := Prod.mk.inj same
    exact select field objectFound (ih inner objectFound)
  | case3 only ih =>
    have below := ih fields found
    exact level (.inl rfl) _ below
  | case4 only ih =>
    have below := ih fields found
    exact level (.inr rfl) _ below
  | case5 other => rw [chain?] at found <;> simp_all

section

variable {tree : Tree} {root : String} {fields : List String}
  (found : tree.chain? = some (root, fields))

include found

/-- The name that a chain starts from is found along first children. -/
theorem rootName_of_chain? : tree.rootName = .ok (some root) := by
  induction tree, root, fields, found using chain?_induction with
  | name => rfl
  | select field found ih => exact ih
  | level isLevel found ih => rcases isLevel with rfl | rfl <;> exact ih

/-- The name that a chain starts from is not empty. -/
theorem Grammatical.chain?_ne_empty (grammatical : tree.Grammatical) : root ≠ "" := by
  induction tree, root, fields, found using chain?_induction with
  | name name =>
    have spelled := (grammatical_node.mp grammatical).2 (.token name) (by simp)
    exact (grammatical_token.mp spelled).1
  | select field found ih => exact ih ((grammatical_node.mp grammatical).2 _ (.head _))
  | level isLevel found ih => exact ih ((grammatical_node.mp grammatical).2 _ (.head _))

/-- A chain starts from its name. -/
theorem Grammatical.root?_of_chain? (grammatical : tree.Grammatical) :
    tree.root? = .ok (some root) := by
  have given := chain?_ne_empty found grammatical
  simp [root?, rootName_of_chain? found, Except.map, given]

/-- Below its wrappers, a chain without fields is a name, and one with fields is a selection. -/
theorem hasRule_operand_of_chain? : tree.operand.hasRule .ident = fields.isEmpty := by
  induction tree, root, fields, found using chain?_induction with
  | name => rfl
  | select field found ih => simp [operand, hasRule]
  | level isLevel found ih => rcases isLevel with rfl | rfl <;> exact ih

/-- The first field of a chain is found from its end. -/
theorem firstField_of_chain? (fallback : String) :
    tree.firstField fallback = .ok (fields.headD fallback) := by
  induction tree, root, fields, found using chain?_induction generalizing fallback with
  | name => rfl
  | select field found ih =>
    rw [firstField, hasRule_operand_of_chain? found]
    -- The walk ends where the object is a name; there the selected field is the first one.
    rename_i inner
    cases inner with
    | nil => rfl
    | cons first rest => simpa using ih fallback
  | level isLevel found ih => rcases isLevel with rfl | rfl <;> exact ih fallback

/-- The path of a chain has all its fields, and starts from the node of its name. -/
theorem fieldPath_of_chain? :
    ∃ name : Token, name.text = root ∧
      tree.fieldPath = .ok (.node .ident [.token name], fields) := by
  induction tree, root, fields, found using chain?_induction with
  | name name => exact ⟨name, rfl, rfl⟩
  | select field found ih =>
    obtain ⟨name, spelled, path⟩ := ih
    exact ⟨name, spelled, by simp [fieldPath, path, Except.map]⟩
  | level isLevel found ih => rcases isLevel with rfl | rfl <;> exact ih

end

/-! ## Chains in a tree -/

/-- The table and the first field of a tree that is a chain with fields. -/
def reference? (tree : Tree) : Option (String × String) :=
  tree.chain?.bind fun (root, fields) => fields.head?.map fun field => (root, field)

/-- The tables and the first fields of the chains in a tree. -/
def chains (tree : Tree) : List (String × String) :=
  tree.parts.filterMap reference?

@[simp] theorem chains_token (leaf : Token) : (Tree.token leaf).chains = [] := rfl

/-- The chains of a node are its own and those of its children. -/
theorem mem_chains_node {rule : Rule} {children : List Tree} :
    reference ∈ (Tree.node rule children).chains ↔
      (Tree.node rule children).reference? = some reference ∨
      ∃ child ∈ children, reference ∈ child.chains := by
  simp only [chains, parts, List.mem_filterMap, List.mem_cons, mem_partsOf]
  constructor
  · rintro ⟨part, rfl | ⟨child, member, found⟩, same⟩
    · exact .inl same
    · exact .inr ⟨child, member, part, found, same⟩
  · rintro (same | ⟨child, member, part, found, same⟩)
    · exact ⟨_, .inl rfl, same⟩
    · exact ⟨part, .inr ⟨child, member, found⟩, same⟩

/-- The reference of a tree is among its chains. -/
theorem mem_chains_of_reference? {tree : Tree} (found : tree.reference? = some reference) :
    reference ∈ tree.chains :=
  List.mem_filterMap.mpr ⟨tree, tree.self_mem_parts, found⟩

/-- A node that selects no field has the chains of its children. -/
theorem mem_chains_of_ne {rule : Rule} {children : List Tree} (other : rule ≠ .memberDot) :
    reference ∈ (Tree.node rule children).chains ↔
      ∃ child ∈ children, reference ∈ child.chains := by
  rw [mem_chains_node]
  refine or_iff_right_of_imp fun found => ?_
  -- A wrapper has the reference of the tree in it.
  unfold reference? chain? at found
  split at found
  · simp at found
  next object field same => exact absurd (Tree.node.inj same).1 other
  next only same =>
    obtain ⟨rfl, rfl⟩ := Tree.node.inj same
    exact ⟨only, by simp, mem_chains_of_reference? found⟩
  next only same =>
    obtain ⟨rfl, rfl⟩ := Tree.node.inj same
    exact ⟨only, by simp, mem_chains_of_reference? found⟩
  · simp at found

/-- All chains in a chain have its table and its first field. -/
theorem chains_of_chain? {tree : Tree} {root : String} {fields : List String}
    (found : tree.chain? = some (root, fields)) (member : reference ∈ tree.chains) :
    root = reference.1 ∧ fields.head? = some reference.2 := by
  induction tree, root, fields, found using chain?_induction with
  | name => simp [mem_chains_of_ne] at member
  | select field found ih =>
    rcases mem_chains_node.mp member with own | ⟨child, isChild, below⟩
    · simp only [reference?, chain?, found, Option.map_some, Option.bind_some] at own
      obtain ⟨first, isFirst, rfl⟩ := Option.map_eq_some_iff.mp own
      exact ⟨rfl, isFirst⟩
    · simp only [List.mem_cons, List.not_mem_nil, or_false] at isChild
      rcases isChild with rfl | rfl
      · obtain ⟨sameRoot, head⟩ := ih below
        exact ⟨sameRoot, by simp [List.head?_append, head]⟩
      · simp at below
  | level isLevel found ih =>
    refine ih ?_
    rcases isLevel with rfl | rfl <;> simpa [mem_chains_of_ne] using member

/-- A literal has no chains. -/
theorem Grammatical.chains_of_literal? {tree : Tree} {token : Token}
    (grammatical : tree.Grammatical) (found : tree.literal? = some token) : tree.chains = [] := by
  refine literal?_induction (motive := fun tree => tree.chains = []) rfl
    (fun rule child grammatical below => ?_)
    grammatical found
  -- A selection has a second child.
  have noSelection : rule ≠ .memberDot := by
    rintro rfl
    simp [Rule.Produces] at grammatical
  refine List.eq_nil_iff_forall_not_mem.mpr fun reference member => ?_
  simp [mem_chains_of_ne noSelection, below] at member

end Tree

end CelWhere
