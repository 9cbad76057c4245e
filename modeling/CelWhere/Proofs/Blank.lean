import CelWhere.Proofs.Grammar

/-! # Trees without the contents of their strings

The text of a string literal decides how an expression is converted only inside an index, in the
argument of `duration` and in the pattern of `matches`. Blanking a tree takes the contents of all
other strings out of it.

* `Tree.blanked` — the tree with these strings empty; two trees that differ only there have the same
  blanked tree;
* `Tree.erased` — the tree with all strings empty, on which most questions about a tree have the
  same answer: `Tree.rootName_erased`, `Tree.isTemporal_erased`, `Tree.isDuration_erased`,
  `Tree.containsString_erased`;
* `Tree.Grammatical.blanked` — blanking keeps to the grammar. -/

namespace CelWhere

/-- The token of the same kind with an empty string, if it is a string. -/
def Token.blanked (token : Token) : Token :=
  if token.isString then ⟨token.kind, "\"\""⟩ else token

namespace Token

variable (token : Token)

@[simp] theorem kind_blanked : token.blanked.kind = token.kind := by
  unfold blanked
  split <;> rfl

@[simp] theorem isString_blanked : token.blanked.isString = token.isString := by
  simp [isString]

@[simp] theorem blanked_blanked : token.blanked.blanked = token.blanked := by
  by_cases isString : token.isString <;> simp [blanked, isString]

@[simp] theorem blanked_name (text : String) :
    (Token.mk .ident text).blanked = ⟨.ident, text⟩ := rfl

theorem blanked_eq_self {token : Token} (other : token.isString = false) :
    token.blanked = token := by
  simp [blanked, other]

/-- A blanked string is empty. -/
theorem stringValue_blanked {token : Token} (isString : token.isString) :
    token.blanked.stringValue = "" := by
  have unquoted : stripQuotes ['"', '"'] = [] := by decide
  simp [blanked, isString, stringValue, isRawText, unquoted, processEscapes, processFrom]

/-- A blanked string is spelled like a string. -/
theorem WellFormed.blanked {token : Token} (wellFormed : token.WellFormed) :
    token.blanked.WellFormed := by
  by_cases isString : token.isString
  · obtain ⟨kind, text⟩ := token
    rcases Bool.or_eq_true .. ▸ isString with single | several
    · obtain rfl : kind = .string := by simpa using single
      exact ⟨by simp [Token.blanked, Token.isString], trivial⟩
    · obtain rfl : kind = .multiline := by simpa using several
      exact ⟨by simp [Token.blanked, Token.isString], trivial⟩
  · rwa [blanked_eq_self (by simpa using isString)]

end Token

namespace Tree

variable {kept : Nat → Bool} (leaf : Token) (children : List Tree) (trees : List Tree) (rule : Rule)
  (tree : Tree)

/-! ## Blanking -/

/-- Whether a function reads the text of its argument at a position. -/
def keptByFunction (function : String) (position : Nat) : Bool :=
  function = "duration" || (function = "matches" && position = 1)

/-- Whether a method reads the text of its argument at a position. -/
def keptByMethod (method : String) (position : Nat) : Bool :=
  method = "matches" && position = 0

mutual

/-- The tree with the contents of its strings taken out, except inside an index, in the arguments of
`duration` and in the pattern of `matches`. -/
def blanked : Tree → Tree
  | .token leaf => .token leaf.blanked
  | .node .memberIndex [object, index] => .node .memberIndex [object.blanked, index]
  | .node .identArg [.token name, .node .exprList items] =>
    .node .identArg [.token name, .node .exprList (blankedBut (keptByFunction name.text) items)]
  | .node .memberDotArg [object, .token name, .node .exprList items] =>
    .node .memberDotArg
      [object.blanked, .token name, .node .exprList (blankedBut (keptByMethod name.text) items)]
  | .node rule children => .node rule (blankedBut (fun _ => false) children)

/-- The trees of a list with the contents of their strings taken out, except at kept positions. -/
def blankedBut : (Nat → Bool) → List Tree → List Tree
  | _, [] => []
  | kept, tree :: rest =>
    (if kept 0 then tree else tree.blanked) :: blankedBut (fun position => kept (position + 1)) rest

end

mutual

/-- The tree with the contents of all its strings taken out. -/
def erased : Tree → Tree
  | .token leaf => .token leaf.blanked
  | .node rule children => .node rule (erasedAll children)

/-- The trees of a list with the contents of all their strings taken out. -/
def erasedAll : List Tree → List Tree
  | [] => []
  | tree :: rest => tree.erased :: erasedAll rest

end

@[simp] theorem blanked_token : (Tree.token leaf).blanked = .token leaf.blanked := by
  simp [blanked]

/-- Without kept positions all trees of a list are blanked. -/
@[simp] theorem blankedBut_none : blankedBut (fun _ => false) trees = trees.map blanked := by
  induction trees with
  | nil => simp [blankedBut]
  | cons tree rest ih => simp [blankedBut, ih]

/-- With all positions kept the trees of a list stay as they are. -/
@[simp] theorem blankedBut_all : blankedBut (fun _ => true) trees = trees := by
  induction trees with
  | nil => simp [blankedBut]
  | cons tree rest ih => simp [blankedBut, ih]

@[simp] theorem erasedAll_eq_map : erasedAll trees = trees.map erased := by
  induction trees with
  | nil => simp [erasedAll]
  | cons tree rest ih => simp [erasedAll, ih]

@[simp] theorem erased_token : (Tree.token leaf).erased = .token leaf.blanked := by
  simp [erased]

@[simp] theorem erased_node :
    (Tree.node rule children).erased = .node rule (children.map erased) := by
  simp [erased]

/-- The children of a blanked node. -/
def blankedChildren : Rule → List Tree → List Tree
  | .memberIndex, [object, index] => [object.blanked, index]
  | .identArg, [.token name, .node .exprList items] =>
    [.token name, .node .exprList (blankedBut (keptByFunction name.text) items)]
  | .memberDotArg, [object, .token name, .node .exprList items] =>
    [object.blanked, .token name, .node .exprList (blankedBut (keptByMethod name.text) items)]
  | _, children => children.map blanked

/-- A blanked node is a node of the same rule. -/
theorem blanked_node :
    (Tree.node rule children).blanked = .node rule (blankedChildren rule children) := by
  unfold blankedChildren
  split <;> simp_all [blanked]

/-- A single child is blanked by itself. -/
@[simp] theorem blanked_single (child : Tree) :
    (Tree.node rule [child]).blanked = .node rule [child.blanked] := by
  rw [blanked_node]
  unfold blankedChildren
  split <;> simp_all

/-- Blanking keeps the label of a tree. -/
@[simp] theorem label_blanked : tree.blanked.label = tree.label := by
  cases tree with
  | token leaf => simp
  | node rule children => simp [blanked_node]

/-- Kept and blanked trees have the same labels. -/
theorem labels_blankedBut (kept : Nat → Bool) (trees : List Tree) :
    (blankedBut kept trees).map label = trees.map label := by
  induction trees generalizing kept with
  | nil => simp [blankedBut]
  | cons tree rest ih =>
    simp only [blankedBut, List.map_cons, ih]
    split <;> simp

/-- The children of a blanked node have the labels of the children of the node. -/
theorem labels_blankedChildren :
    (blankedChildren rule children).map label = children.map label := by
  unfold blankedChildren
  split <;> simp

/-- Each tree of a list with kept positions is one of the list, blanked or not. -/
theorem mem_blankedBut {trees : List Tree} {tree : Tree} (member : tree ∈ blankedBut kept trees) :
    tree ∈ trees ∨ tree ∈ trees.map blanked := by
  induction trees generalizing kept with
  | nil => simp [blankedBut] at member
  | cons first rest ih =>
    simp only [blankedBut, List.mem_cons] at member
    rcases member with same | later
    · split at same <;> simp [same]
    · rcases ih later with kept | blanked
      · exact .inl (by simp [kept])
      · exact .inr (List.mem_cons_of_mem _ blanked)

/-- **Blanking keeps to the grammar.** -/
theorem Grammatical.blanked {tree : Tree} (grammatical : tree.Grammatical) :
    tree.blanked.Grammatical := by
  induction tree with
  | token leaf =>
    rw [blanked_token, grammatical_token]
    exact (grammatical_token.mp grammatical).blanked
  | node rule children ih =>
    obtain ⟨produced, each⟩ := grammatical_node.mp grammatical
    rw [blanked_node, grammatical_node, labels_blankedChildren]
    refine ⟨produced, ?_⟩
    have blankedEach : ∀ child ∈ children, child.blanked.Grammatical := fun child member =>
      ih child member (each child member)
    -- A list of arguments with kept ones among them is grammatical, because the list and its
    -- blanked form are.
    have listBut : ∀ {items : List Tree} (kept : Nat → Bool), Tree.node .exprList items ∈ children →
        (Tree.node .exprList (blankedBut kept items)).Grammatical := by
      intro items kept member
      obtain ⟨labels, itemsEach⟩ := grammatical_node.mp (each _ member)
      have blankedList := blankedEach _ member
      rw [blanked_node] at blankedList
      obtain ⟨-, blankedItems⟩ := grammatical_node.mp blankedList
      refine grammatical_node.mpr ⟨by rwa [labels_blankedBut], fun item found => ?_⟩
      rcases mem_blankedBut found with given | blanked
      · exact itemsEach item given
      · exact blankedItems item blanked
    unfold blankedChildren
    split
    · simp only [List.mem_cons, List.not_mem_nil, or_false, forall_eq_or_imp, forall_eq]
      exact ⟨blankedEach _ (by simp), each _ (by simp)⟩
    · simp only [List.mem_cons, List.not_mem_nil, or_false, forall_eq_or_imp, forall_eq]
      exact ⟨each _ (by simp), listBut _ (by simp)⟩
    · simp only [List.mem_cons, List.not_mem_nil, or_false, forall_eq_or_imp, forall_eq]
      exact ⟨blankedEach _ (by simp), each _ (by simp), listBut _ (by simp)⟩
    · simpa using blankedEach

/-- Two trees have the same shape and the same tokens, except for the texts of strings outside of
indexes, of the arguments of `duration` and of the patterns of `matches`. -/
def SameUpToStrings (first second : Tree) : Prop :=
  first.blanked = second.blanked

/-! ## Erasing -/

/-- Kept and blanked trees have the same erased trees, if blanked trees have those of the trees
themselves. -/
theorem erased_blankedBut {trees : List Tree}
    (each : ∀ tree ∈ trees, tree.blanked.erased = tree.erased) :
    (blankedBut kept trees).map erased = trees.map erased := by
  induction trees generalizing kept with
  | nil => simp [blankedBut]
  | cons tree rest ih =>
    have first : (if kept 0 then tree else tree.blanked).erased = tree.erased := by
      split
      · rfl
      · exact each tree (by simp)
    simp only [blankedBut, List.map_cons, first]
    rw [ih fun other member => each other (by simp [member])]

/-- Erasing takes out what blanking does. -/
theorem erased_blanked : tree.blanked.erased = tree.erased := by
  induction tree with
  | token leaf => simp [erased]
  | node rule children ih =>
    -- The hypothesis for a list of arguments gives one for each of them, blanked or kept.
    have listBut : ∀ (items : List Tree) (kept : Nat → Bool), Tree.node .exprList items ∈ children →
        (blankedBut kept items).map erased = items.map erased := by
      intro items kept member
      have whole := ih _ member
      simp only [blanked_node, blankedChildren, erased, erasedAll_eq_map, node.injEq,
        true_and, List.map_map, List.map_inj_left, Function.comp_apply] at whole
      exact erased_blankedBut whole
    rw [blanked_node]
    unfold blankedChildren
    split
    next object index => simp [erased, ih]
    next name items => simp [erased, listBut items (keptByFunction name.text) (by simp)]
    next object name items =>
      simp [erased, ih object (by simp), listBut items (keptByMethod name.text) (by simp)]
    · simpa [erased] using ih

/-- An answer that does not depend on the contents of strings is the same for the blanked tree. -/
theorem blanked_congr {α : Type} {answer : Tree → α}
    (invariant : ∀ {tree : Tree}, tree.Grammatical → answer tree.erased = answer tree) {tree : Tree}
    (grammatical : tree.Grammatical) : answer tree.blanked = answer tree := by
  rw [← invariant grammatical.blanked, erased_blanked, invariant grammatical]

/-! ## Answers that do not depend on the contents of strings -/

theorem rootName_erased {tree : Tree} (grammatical : tree.Grammatical) :
    tree.erased.rootName = tree.rootName := by
  induction tree with
  | token leaf =>
    obtain ⟨kind, text⟩ := leaf
    by_cases isName : kind = .ident
    · subst isName
      simp
    · simp [rootName, isName]
  | node rule children ih =>
    obtain ⟨-, each⟩ := grammatical_node.mp grammatical
    by_cases isName : rule = .ident
    · subst isName
      obtain ⟨text, rfl⟩ := grammatical.ident
      simp
    · cases children with
      | nil => simp
      | cons child rest =>
        -- Below any other rule the root is that of the first child.
        have along : ∀ (child : Tree) (rest : List Tree),
            (Tree.node rule (child :: rest)).rootName = child.rootName := by
          intro child rest
          rw [rootName.eq_def]
          split <;> simp_all
        rw [erased_node, List.map_cons, along, along, ih child (by simp) (each child (by simp))]

/-- Whether a string occurs in a list does not depend on the contents of strings, if it does not in
its trees. -/
theorem anyContainsString_map {trees : List Tree}
    (each : ∀ tree ∈ trees, tree.erased.containsString = tree.containsString) :
    anyContainsString (trees.map erased) = anyContainsString trees := by
  induction trees with
  | nil => rfl
  | cons tree rest ih =>
    have later := ih fun other member => each other (by simp [member])
    have first := each tree (by simp)
    cases tree with
    | token leaf => simpa [anyContainsString] using later
    | node rule children =>
      simp only [List.map_cons, erased_node, anyContainsString, later] at first ⊢
      rw [first]

/-- A node that is no literal has the strings of its children. -/
theorem containsString_node {rule : Rule} (noLiteral : rule ≠ .literal) (children : List Tree) :
    (Tree.node rule children).containsString = anyContainsString children := by
  rw [containsString.eq_def]
  split <;> simp_all

theorem containsString_erased : tree.erased.containsString = tree.containsString := by
  induction tree with
  | token leaf => simp [containsString]
  | node rule children ih =>
    have list := anyContainsString_map ih
    by_cases isLiteral : rule = .literal
    · subst isLiteral
      cases children with
      | nil => rfl
      | cons child rest => cases child <;> simp [containsString]
    · rw [erased_node, containsString_node isLiteral, containsString_node isLiteral, list]

/-- Whether a list has a call of a duration function does not depend on the contents of strings, if
it does not in its trees. -/
theorem anyIsDuration_map {trees : List Tree}
    (each : ∀ tree ∈ trees, tree.erased.isDuration = tree.isDuration) :
    anyIsDuration (trees.map erased) = anyIsDuration trees := by
  induction trees with
  | nil => rfl
  | cons tree rest ih =>
    have first := each tree (by simp)
    have later := ih fun other member => each other (by simp [member])
    cases tree with
    | token leaf => simp [anyIsDuration, isDuration, later]
    | node rule children =>
      by_cases isList : rule = .exprList
      · subst isList
        simpa [anyIsDuration] using later
      · have noList : ∀ {below items : List Tree}, Tree.node rule below = .node .exprList items →
            False := by
          rintro _ _ ⟨⟩
          exact isList rfl
        rw [erased_node] at first
        rw [List.map_cons, erased_node, anyIsDuration.eq_3 _ _ fun _ => noList,
          anyIsDuration.eq_3 _ _ fun _ => noList, first, later]

theorem isDuration_erased {tree : Tree} (grammatical : tree.Grammatical) :
    tree.erased.isDuration = tree.isDuration := by
  induction tree with
  | token leaf => simp [isDuration]
  | node rule children ih =>
    obtain ⟨-, each⟩ := grammatical_node.mp grammatical
    have list := anyIsDuration_map fun child member => ih child member (each child member)
    by_cases isCall : rule = .identArg
    · -- A call is judged by its name, which is no string.
      subst isCall
      obtain ⟨text, rfl | ⟨items, rfl⟩⟩ := grammatical.identArg <;> simp [isDuration]
    · have among : ∀ children : List Tree, (Tree.node rule children).isDuration =
          anyIsDuration children := by
        intro children
        rw [isDuration.eq_def]
        split <;> simp_all
      rw [erased_node, among, among, list]

/-- Whether a list has to do with times does not depend on the contents of strings, if it does not
in its trees. -/
theorem anyIsTemporal_map {trees : List Tree}
    (each : ∀ tree ∈ trees, tree.erased.isTemporal = tree.isTemporal) :
    anyIsTemporal (trees.map erased) = anyIsTemporal trees := by
  induction trees with
  | nil => rfl
  | cons tree rest ih =>
    have later := ih fun other member => each other (by simp [member])
    simp only [List.map_cons, anyIsTemporal, each tree (by simp), later]

/-- A node that is neither a call nor a name has to do with times if its children do. -/
theorem isTemporal_node {rule : Rule} (noCall : rule ≠ .identArg) (noName : rule ≠ .ident)
    (children : List Tree) :
    (Tree.node rule children).isTemporal = anyIsTemporal children := by
  rw [isTemporal.eq_def]
  split <;> simp_all

theorem isTemporal_erased {tree : Tree} (grammatical : tree.Grammatical) :
    tree.erased.isTemporal = tree.isTemporal := by
  induction tree with
  | token leaf => simp [isTemporal]
  | node rule children ih =>
    obtain ⟨-, each⟩ := grammatical_node.mp grammatical
    have list := anyIsTemporal_map fun child member => ih child member (each child member)
    by_cases isCall : rule = .identArg
    · subst isCall
      obtain ⟨text, rfl | ⟨items, rfl⟩⟩ := grammatical.identArg <;> simp [isTemporal]
    · by_cases isName : rule = .ident
      · subst isName
        obtain ⟨text, rfl⟩ := grammatical.ident
        simp [isTemporal]
      · rw [erased_node, isTemporal_node isCall isName, isTemporal_node isCall isName, list]

/-! ## Answers through nodes with a single child -/

/-- A node without children stays as it is. -/
@[simp] theorem blanked_nil : (Tree.node rule []).blanked = .node rule [] := by
  simp [blanked_node, blankedChildren]

/-- A node with at least two children has at least two when it is blanked. -/
theorem blanked_two (first second : Tree) (rest : List Tree) :
    ∃ first' second' rest', (Tree.node rule (first :: second :: rest)).blanked =
      .node rule (first' :: second' :: rest') := by
  rw [blanked_node]
  unfold blankedChildren
  split <;> simp_all

/-- The children of a rule that keeps no strings. -/
theorem blanked_all {rule : Rule} (index : rule ≠ .memberIndex) (call : rule ≠ .identArg)
    (method : rule ≠ .memberDotArg) (children : List Tree) :
    (Tree.node rule children).blanked = .node rule (children.map blanked) := by
  rw [blanked_node]
  unfold blankedChildren
  split <;> simp_all

/-- The literal that a tree consists of is blanked with it. -/
theorem literal?_blanked : tree.blanked.literal? = tree.literal?.map Token.blanked := by
  induction tree with
  | token leaf => simp [literal?]
  | node rule children ih =>
    by_cases isLiteral : rule = .literal
    · subst isLiteral
      rw [blanked_all (by simp) (by simp) (by simp)]
      cases children with
      | nil => rfl
      | cons child rest => cases child <;> simp [blanked_node, literal?]
    · -- Other rules are looked through if they have a single child.
      rcases children with _ | ⟨first, _ | ⟨second, rest⟩⟩
      · rw [blanked_nil, literal?.eq_def]
        split <;> simp_all
      · have single : ∀ child : Tree, (Tree.node rule [child]).literal? = child.literal? := by
          intro child
          rw [literal?.eq_def]
          split <;> simp_all
        rw [blanked_single, single, single, ih first (by simp)]
      · have several : ∀ (first second : Tree) (rest : List Tree),
            (Tree.node rule (first :: second :: rest)).literal? = none := by
          intro first second rest
          rw [literal?.eq_def]
          split <;> simp_all
        obtain ⟨first', second', rest', same⟩ := blanked_two rule first second rest
        rw [same, several, several, Option.map_none]

section

variable {tree : Tree} (grammatical : tree.Grammatical)

include grammatical

/-- The literal of a tree of the grammar is spelled like one of its kind. -/
theorem Grammatical.literal? {token : Token} (found : tree.literal? = some token) :
    token.WellFormed := by
  have inherited : (Tree.token token).Grammatical :=
    Hereditary.literal? Hereditary.parts grammatical found
  exact grammatical_token.mp inherited

/-- No literal of a tree of the grammar is empty. -/
theorem Grammatical.givenLiteral? : tree.givenLiteral? = tree.literal? := by
  unfold Tree.givenLiteral?
  cases found : tree.literal? with
  | none => rfl
  | some token => simp [(grammatical.literal? found).1]

/-- The string that a tree consists of is blanked with it. -/
theorem stringLiteral?_blanked :
    tree.blanked.stringLiteral? = tree.stringLiteral?.map Token.blanked := by
  unfold stringLiteral?
  rw [grammatical.blanked.givenLiteral?, grammatical.givenLiteral?, literal?_blanked]
  cases tree.literal? with
  | none => rfl
  | some token => by_cases isString : token.isString <;> simp [Option.filter, isString]

/-- The integer that a tree consists of is no string. -/
theorem intLiteral?_blanked : tree.blanked.intLiteral? = tree.intLiteral? := by
  unfold intLiteral?
  rw [grammatical.blanked.givenLiteral?, grammatical.givenLiteral?, literal?_blanked]
  cases tree.literal? with
  | none => rfl
  | some token =>
    by_cases isInt : token.kind = .int
    · have same : token.blanked = token := Token.blanked_eq_self (by simp [Token.isString, isInt])
      simp [same]
    · simp [Option.filter, isInt]

end

theorem isNumeric_blanked : tree.blanked.isNumeric = tree.isNumeric := by
  unfold isNumeric
  rw [literal?_blanked]
  cases tree.literal? <;> simp [Token.isNumeric]

/-- The node of a rule that keeps no strings, under nodes with a single child. -/
theorem unwrap?_blanked {rule : Rule} (index : rule ≠ .memberIndex) (call : rule ≠ .identArg)
    (method : rule ≠ .memberDotArg) (tree : Tree) :
    tree.blanked.unwrap? rule = (tree.unwrap? rule).map (List.map blanked) := by
  induction tree with
  | token leaf => simp [unwrap?]
  | node found children ih =>
    by_cases same : found = rule
    · subst same
      rw [blanked_all index call method]
      unfold unwrap?
      simp
    · rcases children with _ | ⟨child, _ | ⟨second, rest⟩⟩
      · simp [unwrap?, same]
      · simp [unwrap?, same, ih child (by simp)]
      · obtain ⟨child', second', rest', below⟩ := blanked_two found child second rest
        simp [below, unwrap?, same]

theorem isList_blanked : tree.blanked.isList = tree.isList := by
  simp [isList, unwrap?_blanked]

/-- The core of a blanked tree is the blanked core. -/
theorem core_blanked : tree.blanked.core = tree.core.blanked := by
  induction tree with
  | token leaf => simp [core]
  | node rule children ih =>
    match children with
    | [] => simp [core]
    | [child] =>
      simp only [blanked_single, core, ih child (by simp)]
      split <;> simp
    | first :: second :: rest =>
      obtain ⟨first', second', rest', below⟩ := blanked_two rule first second rest
      simp [below, core]

/-- The operand of a blanked tree is the blanked operand. -/
theorem operand_blanked : tree.blanked.operand = tree.operand.blanked := by
  induction tree with
  | token leaf => simp [operand]
  | node rule children ih =>
    match children with
    | [] => simp [operand]
    | [child] =>
      have below := ih child (by simp)
      by_cases isSelection : rule = .member ∨ rule = .primary
      · rcases isSelection with rfl | rfl <;> simp [operand, below]
      · -- Any other rule ends the way down.
        have itself : ∀ child : Tree, (Tree.node rule [child]).operand = .node rule [child] := by
          intro child
          rw [operand.eq_def]
          split <;> simp_all
        rw [itself, blanked_single, itself]
    | first :: second :: rest =>
      obtain ⟨first', second', rest', below⟩ := blanked_two rule first second rest
      simp [below, operand]

/-- The innermost tree of a blanked tree is the blanked innermost tree. -/
theorem innermost_blanked : tree.blanked.innermost = tree.innermost.blanked := by
  induction tree with
  | token leaf => simp [innermost]
  | node rule children ih =>
    match children with
    | [] => simp [innermost]
    | [child] => simp [innermost, ih child (by simp)]
    | first :: second :: rest =>
      obtain ⟨first', second', rest', below⟩ := blanked_two rule first second rest
      simp [below, innermost]

/-- Blanking keeps the rule of a tree. -/
@[simp] theorem hasRule_blanked (tree : Tree) : tree.blanked.hasRule rule = tree.hasRule rule := by
  cases tree with
  | token leaf => simp [hasRule]
  | node found children => simp [blanked_node, hasRule]

/-- A question that a node passes on to its only child, and that has one answer wherever there are
several. -/
theorem blanked_eq_of_passed {α : Type} {rule : Rule} {children : List Tree} (question : Tree → α)
    (answer : α) (single : ∀ child, question (.node rule [child]) = question child)
    (several : ∀ first second rest, question (.node rule (first :: second :: rest)) = answer)
    (below : ∀ child ∈ children, question child.blanked = question child) :
    question (Tree.node rule children).blanked = question (.node rule children) := by
  rcases children with _ | ⟨first, _ | ⟨second, rest⟩⟩
  · rw [blanked_nil]
  · rw [blanked_single, single, single, below first (by simp)]
  · obtain ⟨first', second', rest', same⟩ := blanked_two rule first second rest
    rw [same, several, several]

variable {tree : Tree} (grammatical : tree.Grammatical)

include grammatical

theorem root?_blanked : tree.blanked.root? = tree.root? := by
  rw [root?, root?, blanked_congr rootName_erased grammatical]

theorem firstField_blanked (fallback : String) :
    tree.blanked.firstField fallback = tree.firstField fallback := by
  induction tree with
  | token leaf => simp [firstField]
  | node rule children ih =>
    obtain ⟨-, each⟩ := grammatical_node.mp grammatical
    by_cases isSelection : rule = .memberDot
    · subst isSelection
      obtain ⟨object, field, rfl, -⟩ := grammatical.memberDot
      have below := ih object (by simp) (each object (by simp))
      rw [blanked_all (by simp) (by simp) (by simp)]
      simp only [List.map_cons, List.map_nil, blanked_token, Token.blanked_name, firstField,
        operand_blanked, hasRule_blanked, below]
    · refine blanked_eq_of_passed (·.firstField fallback) (.ok fallback) (fun child => ?_)
        (fun first second rest => ?_)
        fun child member => ih child member (each child member)
      · rw [firstField.eq_def]
        split <;> simp_all
      · rw [firstField.eq_def]
        split <;> simp_all

theorem nameFrom_blanked (whole : Rule) : tree.blanked.nameFrom whole = tree.nameFrom whole := by
  induction tree with
  | token leaf =>
    obtain ⟨kind, text⟩ := leaf
    by_cases isName : kind = .ident
    · subst isName
      simp
    · simp [nameFrom, isName]
  | node rule children ih =>
    obtain ⟨-, each⟩ := grammatical_node.mp grammatical
    by_cases isName : rule = .ident
    · subst isName
      obtain ⟨text, rfl⟩ := grammatical.ident
      simp
    · refine blanked_eq_of_passed (·.nameFrom whole) (.error (.expectedName whole))
        (fun child => ?_)
        (fun first second rest => ?_) fun child member => ih child member (each child member)
      · simp [nameFrom]
      · rw [nameFrom.eq_def]
        split <;> simp_all

theorem identName_blanked : tree.blanked.identName = tree.identName := by
  cases tree with
  | token leaf =>
    rw [blanked_token, identName, identName, ← blanked_token, nameFrom_blanked grammatical]
  | node rule children =>
    have below := nameFrom_blanked grammatical rule
    rw [blanked_node] at below ⊢
    exact below

/-- The root of a chain of selections is blanked, and the fields stay. -/
theorem fieldPath_blanked :
    tree.blanked.fieldPath = tree.fieldPath.map fun (root, fields) => (root.blanked, fields) := by
  induction tree with
  | token leaf => simp [fieldPath, Except.map]
  | node rule children ih =>
    obtain ⟨-, each⟩ := grammatical_node.mp grammatical
    by_cases isSelection : rule = .memberDot
    · subst isSelection
      obtain ⟨object, field, rfl, -⟩ := grammatical.memberDot
      have below := ih object (by simp) (each object (by simp))
      rw [blanked_all (by simp) (by simp) (by simp)]
      simp only [List.map_cons, List.map_nil, blanked_token, Token.blanked_name, fieldPath, below]
      cases object.fieldPath <;> rfl
    · match children with
      | [] =>
        have itself : (Tree.node rule []).fieldPath = .ok (.node rule [], []) := by
          rw [fieldPath.eq_def]
          split <;> simp_all
        simp [itself, Except.map]
      | [child] =>
        have below := ih child (by simp) (each child (by simp))
        by_cases isLevel : rule = .member ∨ rule = .primary
        · rcases isLevel with rfl | rfl <;> simpa [fieldPath] using below
        · -- Any other rule is the root of the chain.
          have itself : ∀ child : Tree, (Tree.node rule [child]).fieldPath =
              .ok (.node rule [child], []) := by
            intro child
            rw [fieldPath.eq_def]
            split <;> simp_all
          simp [itself, Except.map]
      | first :: second :: rest =>
        have several : ∀ (first second : Tree) (rest : List Tree),
            (Tree.node rule (first :: second :: rest)).fieldPath =
            .ok (.node rule (first :: second :: rest), []) := by
          intro first second rest
          rw [fieldPath.eq_def]
          split <;> simp_all
        obtain ⟨first', second', rest', same⟩ := blanked_two rule first second rest
        rw [several, same, several, ← same]
        rfl

end Tree

end CelWhere
