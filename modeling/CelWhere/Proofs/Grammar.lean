import CelWhere.Cel.Parser
import CelWhere.Proofs.Tree

/-! # The grammar of expressions

A tree follows the grammar if every node has children that its rule produces and every token is
spelled like one of its kind. What a rule produces is said by the labels of the children, the rules
and token kinds at their roots.

* `Rule.Produces` — the productions of the grammar;
* `Tree.Grammatical` — every part of a tree follows them;
* `Tree.IsExpression` — the trees of whole expressions.

Trees that are read from texts are such trees; that is shown with the readers. -/

namespace CelWhere

variable {tree : Tree} {rule : Rule}

/-! ## Labels and productions -/

/-- What stands at the root of a tree. -/
inductive Label
  /-- A token of a kind. -/
  | token (kind : TokenKind)
  /-- A node of a rule. -/
  | rule (rule : Rule)
  deriving DecidableEq, Repr

/-- The label of a tree. -/
def Tree.label : Tree → Label
  | .token leaf => .token leaf.kind
  | .node rule _ => .rule rule

@[simp] theorem Tree.label_token (leaf : Token) : (Tree.token leaf).label = .token leaf.kind := rfl

@[simp] theorem Tree.label_node (rule : Rule) (children : List Tree) :
    (Tree.node rule children).label = .rule rule :=
  rfl

/-- The trees with a rule at the root are the nodes of that rule. -/
theorem Tree.label_eq_rule : tree.label = .rule rule ↔ ∃ children, tree = .node rule children := by
  cases tree with
  | token leaf => simp
  | node found children => simp

/-- The trees with a token kind at the root are the tokens of that kind. -/
theorem Tree.label_eq_token {kind : TokenKind} :
    tree.label = .token kind ↔ ∃ text, tree = .token ⟨kind, text⟩ := by
  cases tree with
  | token leaf =>
    obtain ⟨found, text⟩ := leaf
    simp
  | node found children => simp

/-- Labels in pairs. -/
def Label.Alternate (first second : Label) : List Label → Prop
  | [] => True
  | [_] => False
  | one :: two :: rest => one = first ∧ two = second ∧ Alternate first second rest

/-- The rules of the left operands of comparisons and membership tests. -/
def Rule.comparisons : List Rule :=
  [.relationLt, .relationLe, .relationGt, .relationGe, .relationEq, .relationNe, .relationIn]

/-- The rules of the left operands of products, quotients and remainders. -/
def Rule.products : List Rule := [.multiplicationMul, .multiplicationDiv, .multiplicationMod]

/-- The rules of selections and of the operands that they start from. -/
def Rule.members : List Rule := [.memberDot, .memberDotArg, .memberIndex, .memberObject, .primary]

/-- The rules of operands without selections. -/
def Rule.primaries : List Rule :=
  [.dotIdentArg, .dotIdent, .identArg, .ident, .parenExpr, .listLit, .mapLit, .literal]

/-- The kinds of literals. -/
def TokenKind.literals : List TokenKind :=
  [.uint, .float, .int, .multiline, .string, .bytes, .bool, .null]

/-- The productions of the grammar: the labels that the children of a rule can have. -/
def Rule.Produces (rule : Rule) (labels : List Label) : Prop :=
  match rule with
  -- An operator of a level stands as a rule around its left operand, beside the right one.
  | .expr =>
    labels = [.rule .conditionalOr] ∨
      labels = [.rule .conditionalOr, .rule .conditionalOr, .rule .expr]
  | .conditionalOr =>
    labels = [.rule .conditionalAnd] ∨ labels = [.rule .conditionalOr, .rule .conditionalAnd]
  | .conditionalAnd =>
    labels = [.rule .relation] ∨ labels = [.rule .conditionalAnd, .rule .relation]
  | .relation =>
    labels = [.rule .addition] ∨ ∃ operator ∈ comparisons,
      labels = [.rule operator, .rule .addition]
  | .relationLt | .relationLe | .relationGt | .relationGe | .relationEq | .relationNe
  | .relationIn =>
    labels = [.rule .relation]
  | .addition =>
    labels = [.rule .multiplication] ∨
      ∃ operator ∈ [Rule.additionAdd, .additionSub], labels =
      [.rule operator, .rule .multiplication]
  | .additionAdd | .additionSub => labels = [.rule .addition]
  | .multiplication =>
    labels = [.rule .unary] ∨ ∃ operator ∈ products, labels = [.rule operator, .rule .unary]
  | .multiplicationMul | .multiplicationDiv | .multiplicationMod => labels = [.rule .multiplication]
  | .unary =>
    labels = [.rule .member] ∨ ∃ sign ∈ [Rule.unaryNot, .unaryNeg],
      labels = [.rule sign, .rule .unary]
  | .unaryNot | .unaryNeg => labels = []
  | .member => ∃ rule ∈ members, labels = [.rule rule]
  | .memberDot => labels = [.rule .member, .token .ident]
  | .memberDotArg =>
    labels = [.rule .member, .token .ident] ∨
      labels = [.rule .member, .token .ident, .rule .exprList]
  | .memberIndex => labels = [.rule .member, .rule .expr]
  | .memberObject => labels = [.rule .member] ∨ labels = [.rule .member, .rule .fieldInits]
  | .primary => ∃ rule ∈ primaries, labels = [.rule rule]
  | .dotIdentArg | .identArg => labels = [.token .ident] ∨ labels = [.token .ident, .rule .exprList]
  | .dotIdent | .ident => labels = [.token .ident]
  | .parenExpr => labels = [.rule .expr]
  | .listLit => labels = [] ∨ labels = [.rule .exprList]
  | .mapLit => labels = [] ∨ labels = [.rule .mapInits]
  | .exprList => labels ≠ [] ∧ ∀ label ∈ labels, label = .rule .expr
  | .fieldInits => labels ≠ [] ∧ Label.Alternate (.token .ident) (.rule .expr) labels
  | .mapInits => labels ≠ [] ∧ Label.Alternate (.rule .expr) (.rule .expr) labels
  | .literal => ∃ kind ∈ TokenKind.literals, labels = [.token kind]
  -- Rules that the conversion does not know are not in the grammar.
  | .other _ => False

/-! ## Tokens -/

/-- Characters of the text of a number with a point or an exponent. -/
def isFloatChar (c : Char) : Bool :=
  Text.isPlainDigit c || c = '-' || c = '+' || c = '.' || c = 'e' || c = 'E'

/-- A token is spelled like one of its kind: no text is empty, and the texts that are written as
they stand have only the characters of names or of numbers. -/
def Token.WellFormed (token : Token) : Prop :=
  token.text ≠ "" ∧
    match token.kind with
    | .ident => ∀ c ∈ token.text.toList, Lexer.isNameChar c
    | .float => ∀ c ∈ token.text.toList, isFloatChar c
    | _ => True

/-! ## Trees -/

namespace Tree

variable {trees : List Tree}

/-- The root of a tree follows the grammar. -/
def RootGrammatical : Tree → Prop
  | .token leaf => leaf.WellFormed
  | .node rule children => rule.Produces (children.map label)

/-- A tree follows the grammar at each of its parts. -/
def Grammatical (tree : Tree) : Prop :=
  ∀ part ∈ tree.parts, part.RootGrammatical

/-- A tree follows the grammar and has a rule at its root. -/
def IsOf (rule : Rule) (tree : Tree) : Prop :=
  tree.Grammatical ∧ tree.label = .rule rule

/-- A tree of a whole expression. -/
def IsExpression (tree : Tree) : Prop :=
  tree.IsOf .expr

/-- Tokens follow the grammar if they are spelled like one of their kind. -/
@[simp] theorem grammatical_token {leaf : Token} :
    (Tree.token leaf).Grammatical ↔ leaf.WellFormed := by
  simp [Grammatical, parts, RootGrammatical]

/-- A node follows the grammar if its rule produces its children and they follow it. -/
@[simp] theorem grammatical_node {children : List Tree} :
    (Tree.node rule children).Grammatical ↔
      rule.Produces (children.map label) ∧ ∀ child ∈ children, child.Grammatical := by
  simp only [Grammatical, parts, List.mem_cons, forall_eq_or_imp, RootGrammatical, mem_partsOf]
  refine and_congr_right fun _ =>
    ⟨fun each child member part found => each part ⟨child, member, found⟩, ?_⟩
  rintro each part ⟨child, member, found⟩
  exact each child member part found

/-! ## Children of a node -/

variable {one : Label}

/-- Trees with one label are one tree with that label. -/
theorem map_label_one : trees.map label = [one] ↔ ∃ first, trees = [first] ∧ first.label = one := by
  simp [List.map_eq_cons_iff]

/-- Trees with two labels are two trees with these labels. -/
theorem map_label_two {two : Label} :
    trees.map label = [one, two] ↔ ∃ first second, trees = [first, second] ∧ first.label = one ∧
      second.label = two := by
  simp only [List.map_eq_cons_iff, List.map_eq_nil_iff]
  constructor
  · rintro ⟨first, _, rfl, firstLabel, second, _, rfl, secondLabel, rfl⟩
    exact ⟨first, second, rfl, firstLabel, secondLabel⟩
  · rintro ⟨first, second, rfl, firstLabel, secondLabel⟩
    exact ⟨first, [second], rfl, firstLabel, second, [], rfl, secondLabel, rfl⟩

/-- Trees with three labels are three trees with these labels. -/
theorem map_label_three {two three : Label} :
    trees.map label = [one, two, three] ↔
      ∃ first second third, trees = [first, second, third] ∧ first.label = one ∧
      second.label = two ∧
        third.label = three := by
  simp only [List.map_eq_cons_iff, List.map_eq_nil_iff]
  constructor
  · rintro ⟨first, _, rfl, firstLabel, second, _, rfl, secondLabel, third, _, rfl, thirdLabel, rfl⟩
    exact ⟨first, second, third, rfl, firstLabel, secondLabel, thirdLabel⟩
  · rintro ⟨first, second, third, rfl, firstLabel, secondLabel, thirdLabel⟩
    exact ⟨first, [second, third], rfl, firstLabel, second, [third], rfl, secondLabel, third,
      [], rfl, thirdLabel, rfl⟩

namespace Grammatical

/-- The children of a tree that follows the grammar follow it. -/
theorem child {children : List Tree} (grammatical : (Tree.node rule children).Grammatical)
    (member : tree ∈ children) :
    tree.Grammatical :=
  Hereditary.parts rule children grammatical tree member

/-- A name has the characters of names. -/
theorem name {text : String} (grammatical : (Tree.token ⟨.ident, text⟩).Grammatical) :
    ∀ c ∈ text.toList, Lexer.isNameChar c :=
  (grammatical_token.mp grammatical).2

variable {children : List Tree}

/-- A name is one token. -/
theorem ident (grammatical : (Tree.node .ident children).Grammatical) :
    ∃ text, children = [.token ⟨.ident, text⟩] := by
  obtain ⟨name, rfl, label⟩ := map_label_one.mp (grammatical_node.mp grammatical).1
  obtain ⟨text, rfl⟩ := label_eq_token.mp label
  exact ⟨text, rfl⟩

/-- Induction on trees that follow the grammar and have a literal. -/
theorem literal?_induction {motive : Tree → Prop} {token : Token}
    (literal : motive (.node .literal [.token token]))
    (single : ∀ rule child, (Tree.node rule [child]).Grammatical → motive child →
      motive (.node rule [child])) (grammatical : tree.Grammatical)
    (found : tree.literal? = some token) : motive tree := by
  refine Tree.literal?_induction (motive := fun tree => tree.Grammatical →
    motive tree) ?_ ?_ found grammatical
  · intro rest grammatical
    obtain ⟨kind, -, labels⟩ := (grammatical_node.mp grammatical).1
    obtain ⟨-, rfl⟩ : _ ∧ rest = [] := by simpa using labels
    exact literal
  · exact fun rule child _ ih grammatical => single rule child grammatical
      (ih (grammatical.child (.head _)))

/-- The selection of a field has an object and a name. -/
theorem memberDot (grammatical : (Tree.node .memberDot children).Grammatical) :
    ∃ object text, children = [object, .token ⟨.ident, text⟩] ∧ object.label = .rule .member := by
  obtain ⟨object, name, rfl, objectLabel, label⟩ :=
    map_label_two.mp (grammatical_node.mp grammatical).1
  obtain ⟨text, rfl⟩ := label_eq_token.mp label
  exact ⟨object, text, rfl, objectLabel⟩

/-- A call has a name and at most one list of arguments. -/
theorem identArg (grammatical : (Tree.node .identArg children).Grammatical) :
    ∃ text, children = [.token ⟨.ident, text⟩] ∨
      ∃ items, children = [.token ⟨.ident, text⟩, .node .exprList items] := by
  rcases (grammatical_node.mp grammatical).1 with alone | behind
  · obtain ⟨name, rfl, label⟩ := map_label_one.mp alone
    obtain ⟨text, rfl⟩ := label_eq_token.mp label
    exact ⟨text, .inl rfl⟩
  · obtain ⟨name, list, rfl, label, listLabel⟩ := map_label_two.mp behind
    obtain ⟨text, rfl⟩ := label_eq_token.mp label
    obtain ⟨items, rfl⟩ := label_eq_rule.mp listLabel
    exact ⟨text, .inr ⟨items, rfl⟩⟩

/-- The call of a method has an object, a name and at most one list of arguments. -/
theorem memberDotArg (grammatical : (Tree.node .memberDotArg children).Grammatical) :
    ∃ object text, object.label = .rule .member ∧ (children = [object, .token ⟨.ident, text⟩] ∨
      ∃ items, children = [object, .token ⟨.ident, text⟩, .node .exprList items]) := by
  rcases (grammatical_node.mp grammatical).1 with alone | behind
  · obtain ⟨object, name, rfl, objectLabel, label⟩ := map_label_two.mp alone
    obtain ⟨text, rfl⟩ := label_eq_token.mp label
    exact ⟨object, text, objectLabel, .inl rfl⟩
  · obtain ⟨object, name, list, rfl, objectLabel, label, listLabel⟩ := map_label_three.mp behind
    obtain ⟨text, rfl⟩ := label_eq_token.mp label
    obtain ⟨items, rfl⟩ := label_eq_rule.mp listLabel
    exact ⟨object, text, objectLabel, .inr ⟨items, rfl⟩⟩

end Grammatical

end Tree

end CelWhere
