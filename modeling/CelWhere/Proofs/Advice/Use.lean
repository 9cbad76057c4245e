import CelWhere.Index.Advice
import CelWhere.Proofs.Question

/-! # Uses of columns

A walk over an expression asks every node which columns it uses. Here the uses of a node are said
without the walk: how an operand names a column, and which operands are compared, matched, gone
through or taken out of a JSON value. On expressions the walk never fails, and it finds exactly
these uses.

* `Naming`, `Tree.naming?` — how an operand names a column;
* `Index.Asks`, `Index.Uses` — the operands that a node asks for a column, and the columns that it
  uses;
* `Index.detected` — the patterns that the walk over a tree finds;
* `Index.mem_detected_node` — those of a node are its own uses and the patterns below it. -/

namespace CelWhere

variable {field : String}

/-! ## Names of columns -/

/-- How an operand names a column. -/
inductive Naming
  /-- By a name. -/
  | name (text : String)
  /-- By a name with a leading dot. -/
  | absolute (text : String)
  /-- By the field of a selection. -/
  | field (text : String)
  /-- By a function that is called without arguments. -/
  | call (text : String)
  deriving DecidableEq, Repr

/-- The column that is named. -/
def Naming.text : Naming → String
  | .name text | .absolute text | .field text | .call text => text

/-- The rules that a name can be the only child of. -/
theorem Rule.of_produces_ident {rule : Rule} (produced : rule.Produces [.token .ident]) :
    rule = .ident ∨ rule = .dotIdent ∨ rule = .identArg ∨ rule = .dotIdentArg := by
  cases rule <;> simp [Produces, Label.Alternate, TokenKind.literals] at produced ⊢

namespace Tree

/-- How a tree names a column, seen through nodes with a single child. -/
def naming? : Tree → Option Naming
  | .node .ident [.token leaf] => some (.name leaf.text)
  | .node .dotIdent [.token leaf] => some (.absolute leaf.text)
  | .node .memberDot [_, .token leaf] => some (.field leaf.text)
  | .node .identArg [.token leaf] => some (.call leaf.text)
  | .node .dotIdentArg [.token leaf] => some (.call leaf.text)
  | .node _ [child] => child.naming?
  | _ => none

namespace Grammatical

variable {tree : Tree} (grammatical : tree.Grammatical)

include grammatical

/-- Names of columns are not empty. -/
theorem naming?_text_ne {naming : Naming} (named : tree.naming? = some naming) :
    naming.text ≠ "" := by
  have spelled {rule : Rule} {children : List Tree} {leaf : Token}
      (node : (Tree.node rule children).Grammatical)
      (member : .token leaf ∈ children) : leaf.text ≠ "" :=
    (grammatical_token.mp (node.child member)).1
  fun_induction naming? tree with
  | case1 leaf | case2 leaf | case3 _ leaf | case4 leaf | case5 leaf =>
    obtain rfl := Option.some.inj named
    exact spelled grammatical (by simp)
  | case6 rule child _ _ _ _ ih =>
    exact ih (grammatical.child (by simp)) named
  | case7 => simp at named

/-- On expressions the column of an operand is the one that it names. -/
theorem columnName_eq (operand : tree.label ≠ .token .ident) :
    Index.columnName tree = .ok (tree.naming?.map Naming.text) := by
  fun_induction naming? tree with
  | case1 leaf => rfl
  | case2 leaf | case4 leaf | case5 leaf =>
    have isName : leaf.kind = .ident :=
      by simpa [Rule.Produces] using (grammatical_node.mp grammatical).1
    simp [Index.columnName, isName, Naming.text]
  | case3 object leaf => rfl
  | case6 rule child notName notAbsolute notCall notDottedCall ih =>
    obtain ⟨produced, each⟩ := grammatical_node.mp grammatical
    -- A name that is an only child has been dealt with, so the child is an operand again.
    have below : child.label ≠ .token .ident := by
      intro isName
      obtain ⟨text, rfl⟩ := label_eq_token.mp isName
      rcases Rule.of_produces_ident produced with rfl | rfl | rfl | rfl
      · exact notName _ rfl rfl
      · exact notAbsolute _ rfl rfl
      · exact notCall _ rfl rfl
      · exact notDottedCall _ rfl rfl
    have otherRule : rule ≠ .ident := by
      rintro rfl
      obtain ⟨text, only⟩ := grammatical.ident
      exact notName _ rfl (List.cons.inj only).1
    have otherSelection : rule ≠ .memberDot := by
      rintro rfl
      simp [Rule.Produces] at produced
    rw [Index.columnName]
    · exact ih (each child (.head _)) below
    · exact otherRule
    · exact otherSelection
  | case7 other notName _ notSelection _ _ notSingle =>
    cases other with
    | token leaf =>
      have notIdent : leaf.kind ≠ .ident := by simpa using operand
      simp [Index.columnName, notIdent]
    | node rule children =>
      unfold Index.columnName
      split
      next same => simp at same
      next child rest same =>
        obtain ⟨rfl, rfl⟩ := Tree.node.inj same
        obtain ⟨text, only⟩ := grammatical.ident
        rw [only] at notName
        exact absurd rfl (notName _)
      next same =>
        obtain ⟨rfl, rfl⟩ := Tree.node.inj same
        obtain ⟨text, only⟩ := grammatical.ident
        cases only
      next object field rest same =>
        obtain ⟨rfl, rfl⟩ := Tree.node.inj same
        obtain ⟨first, text, both, -⟩ := grammatical.memberDot
        rw [both] at notSelection
        exact absurd rfl (notSelection _ _)
      next shorter same =>
        obtain ⟨rfl, rfl⟩ := Tree.node.inj same
        obtain ⟨object, text, rfl, -⟩ := grammatical.memberDot
        exact absurd rfl (shorter object _ [])
      next child _ same => exact absurd same (notSingle _ _)
      · rfl

/-- On expressions it is known which name a tree starts from, if it starts from one. -/
theorem root?_ok : ∃ root, tree.root? = .ok root :=
  exists_ok (shaped_grammatical.root? grammatical)

/-- On expressions it is known which field is selected first. -/
theorem firstField_ok (fallback : String) : ∃ field, tree.firstField fallback = .ok field :=
  exists_ok (shaped_grammatical.firstField grammatical)

/-- The field that is selected first is the other text, unless it is selected at a node that first
children lead to: what holds of that node, and passes up from first children, holds of the tree. -/
theorem firstField_induction {fallback : String} (first : tree.firstField fallback = .ok field)
    {motive : Tree → Prop}
    (here : ∀ object, (Tree.node .memberDot [object, .token ⟨.ident, field⟩]).Grammatical →
      motive (.node .memberDot [object, .token ⟨.ident, field⟩]))
    (above : ∀ rule child rest, motive child → motive (.node rule (child :: rest))) :
    field = fallback ∨ motive tree := by
  fun_induction firstField fallback tree with
  | case1 => simp [Rule.Produces] at grammatical
  | case2 child isName name rest =>
    obtain ⟨object, text, shape, -⟩ := grammatical.memberDot
    obtain ⟨rfl, rfl, rfl⟩ : child = object ∧ name = .token ⟨.ident, text⟩ ∧ rest = [] :=
      by simpa using shape
    obtain rfl := Except.ok.inj first
    exact .inr (here child grammatical)
  | case3 child isName => simp [Rule.Produces] at grammatical
  | case4 child rest _ ih | case5 rule child _ ih =>
    have below : child.Grammatical := grammatical.child (.head _)
    exact (ih below first).imp_right (above _ child _)
  | case6 => exact .inl (Except.ok.inj first).symm

end Grammatical

/-- A comparison or membership test has a single operand, or an operator around its left one. -/
theorem Grammatical.relation {children : List Tree}
    (grammatical : (Tree.node .relation children).Grammatical) :
    (∃ only, children = [only]) ∨
      ∃ operator ∈ Rule.comparisons, ∃ left right, children = [.node operator [left], right] ∧
        left.label = .rule .relation ∧ right.label = .rule .addition := by
  obtain ⟨produced, each⟩ := grammatical_node.mp grammatical
  rcases produced with alone | ⟨operator, isComparison, labels⟩
  · obtain ⟨only, rfl, -⟩ := map_label_one.mp alone
    exact .inl ⟨only, rfl⟩
  · obtain ⟨first, right, rfl, firstLabel, rightLabel⟩ := map_label_two.mp labels
    obtain ⟨below, rfl⟩ := label_eq_rule.mp firstLabel
    have single : below.map label = [.rule .relation] := by
      have inner := (grammatical_node.mp (each _ (.head _))).1
      simp only [Rule.comparisons, List.mem_cons, List.not_mem_nil, or_false] at isComparison
      rcases isComparison with rfl | rfl | rfl | rfl | rfl | rfl | rfl <;> exact inner
    obtain ⟨left, rfl, leftLabel⟩ := map_label_one.mp single
    exact .inr ⟨operator, isComparison, left, right, rfl, leftLabel, rightLabel⟩

end Tree

namespace Index

variable {operand node object : Tree} {type : PatternType} {root : Option String} {method : String}
  {rest : List Tree}

/-! ## Uses of a node -/

/-- A node asks an operand for a column, which it uses in a certain way. -/
inductive Asks : Tree → PatternType → Tree → Prop
  /-- The left side of a comparison or membership test. -/
  | left (operator : Rule) (left right : Tree) :
    Asks (.node .relation [.node operator [left], right]) .comparison left
  /-- The right side of one. -/
  | right (operator : Rule) (left right : Tree) :
    Asks (.node .relation [.node operator [left], right]) .comparison right
  /-- The left side of a membership test. -/
  | element (left right : Tree) : Asks (.node .relation [.node .relationIn [left], right])
    .arrayMembership left
  /-- The object that is matched by a method. -/
  | object (object : Tree) (rest : List Tree) :
    Asks (.node .memberDotArg (object :: .token ⟨.ident, "matches"⟩ :: rest)) .regexMatch object
  /-- The argument that is matched by a function. -/
  | argument (subject : Tree) (rest : List Tree) :
    Asks (.node .identArg [.token ⟨.ident, "matches"⟩, .node .exprList (subject :: rest)])
      .regexMatch subject

/-- The operands of a node follow the grammar. -/
theorem Asks.grammatical (asks : Asks node type operand) (grammatical : node.Grammatical) :
    operand.Grammatical := by
  cases asks with
  | left | element => exact (grammatical.child (.head _)).child (.head _)
  | right => exact grammatical.child (.tail _ (.head _))
  | object => exact grammatical.child (.head _)
  | argument => exact (grammatical.child (.tail _ (.head _))).child (.head _)

/-- A node uses a column. -/
inductive Uses (catalog : Catalog) : Tree → Pattern → Prop
  /-- The column that an operand names. -/
  | operand {node operand : Tree} {type : PatternType} {naming : Naming} {root : Option String}
    (asks : Asks node type operand) (named : operand.naming? = some naming)
    (rooted : operand.root? = .ok root) :
    Uses catalog node ⟨naming.text, type, root.getD ""⟩
  /-- The column that a comprehension goes through: the field that is selected first. -/
  | source {object : Tree} {rest : List Tree} {method table field : String} {naming : Naming}
    (isMethod : method ∈ comprehensionMethods) (named : object.naming? = some naming)
    (rooted : object.root? = .ok (some table)) (first : object.firstField naming.text = .ok field) :
    Uses catalog (.node .memberDotArg (object :: .token ⟨.ident, method⟩ :: rest))
      ⟨field, if catalog.isJson table field then .jsonArrayComprehension
        else .arrayComprehension, table⟩
  /-- The column that a comprehension goes through, of no known table. -/
  | rootless {object : Tree} {rest : List Tree} {method : String} {naming : Naming}
    (isMethod : method ∈ comprehensionMethods) (named : object.naming? = some naming)
    (rooted : object.root? = .ok none) :
    Uses catalog (.node .memberDotArg (object :: .token ⟨.ident, method⟩ :: rest))
      ⟨naming.text, .arrayComprehension, ""⟩
  /-- The JSON column that a selection goes through. -/
  | json {object : Tree} {field table first : String} (rooted : object.root? = .ok (some table))
    (found : object.firstField field = .ok first) (isJson : catalog.isJson table first) :
    Uses catalog (.node .memberDot [object, .token ⟨.ident, field⟩]) ⟨first, .jsonAccess, table⟩

variable {catalog : Catalog} {rule : Rule} {children : List Tree} {pattern : Pattern}

/-- The column of an operand of an expression is the one that it names. -/
theorem column?_eq (grammatical : operand.Grammatical) (isNode : operand.label ≠ .token .ident) :
    column? operand = .ok (operand.naming?.map Naming.text) := by
  rw [column?, grammatical.columnName_eq isNode]
  cases named : operand.naming? with
  | none => rfl
  | some naming =>
    have given : naming.text ≠ "" := grammatical.naming?_text_ne named
    simp [Except.map, given]

/-- The pattern of an operand that names a column, for the name that it starts from. -/
def namedPatterns (type : PatternType) (operand : Tree) (root : Option String) : List Pattern :=
  operand.naming?.toList.map fun naming => ⟨naming.text, type, root.getD ""⟩

theorem mem_namedPatterns :
    pattern ∈ namedPatterns type operand root ↔
      ∃ naming, operand.naming? = some naming ∧ pattern = ⟨naming.text, type, root.getD ""⟩ := by
  simp [namedPatterns, eq_comm]

/-- The pattern of an operand of an expression. -/
theorem columnPattern_eq (type : PatternType) (grammatical : operand.Grammatical)
    (isNode : operand.label ≠ .token .ident) (rooted : operand.root? = .ok root) :
    columnPattern type operand = .ok (namedPatterns type operand root) := by
  rw [columnPattern, column?_eq grammatical isNode, namedPatterns]
  cases operand.naming? with
  | none => rfl
  | some naming =>
    show (do
      let root ← operand.root?
      return [(⟨naming.text, type, root.getD ""⟩ : Pattern)]) = _
    rw [rooted]
    rfl

/-- The results of asking a node for its patterns are right: no question has failed, and the
patterns are the uses of the node. -/
def Right (catalog : Catalog) (node : Tree) (results : List (Except Fault (List Pattern))) : Prop :=
  ∃ lists : List (List Pattern), results = lists.map .ok ∧ ∀ pattern, pattern ∈ lists.flatten ↔
    Uses catalog node pattern

theorem relationPatterns_right (grammatical : (Tree.node .relation children).Grammatical) :
    Right catalog (.node .relation children) (relationPatterns children) := by
  rcases grammatical.relation with ⟨only, rfl⟩ | ⟨operator, isComparison, left, right, rfl,
    leftLabel, rightLabel⟩
  · refine ⟨[], by simp [relationPatterns], fun pattern => ⟨by simp, ?_⟩⟩
    intro uses
    cases uses with
    | operand asks => cases asks
  · have leftGrammatical : left.Grammatical :=
      (Asks.left operator left right).grammatical grammatical
    have rightGrammatical : right.Grammatical :=
      (Asks.right operator left right).grammatical grammatical
    obtain ⟨leftRoot, leftRooted⟩ := leftGrammatical.root?_ok
    obtain ⟨rightRoot, rightRooted⟩ := rightGrammatical.root?_ok
    have leftPattern (type : PatternType) :=
      columnPattern_eq type leftGrammatical (by simp [leftLabel]) leftRooted
    have rightPattern :=
      columnPattern_eq .comparison rightGrammatical (by simp [rightLabel]) rightRooted
    refine ⟨[namedPatterns .comparison left leftRoot, namedPatterns .comparison right rightRoot] ++
      (if operator = .relationIn then [namedPatterns .arrayMembership left leftRoot]
        else []), ?_, ?_⟩
    · rw [relationPatterns, leftPattern, leftPattern, rightPattern]
      split
      · rfl
      · rfl
    · intro pattern
      have members : pattern ∈ ([namedPatterns .comparison left leftRoot,
          namedPatterns .comparison right rightRoot] ++
          (if operator = .relationIn then [namedPatterns .arrayMembership left leftRoot]
            else [])).flatten ↔
          pattern ∈ namedPatterns .comparison left leftRoot ∨
          pattern ∈ namedPatterns .comparison right rightRoot ∨
            (operator = .relationIn ∧ pattern ∈ namedPatterns .arrayMembership left leftRoot) := by
        by_cases membership : operator = .relationIn
        · simp [membership]
        · simp [membership]
      rw [members, mem_namedPatterns, mem_namedPatterns, mem_namedPatterns]
      constructor
      · rintro (⟨naming, named, rfl⟩ | ⟨naming, named, rfl⟩ | ⟨rfl, naming, named, rfl⟩)
        · exact .operand (.left operator left right) named leftRooted
        · exact .operand (.right operator left right) named rightRooted
        · exact .operand (.element left right) named leftRooted
      · intro uses
        cases uses with
        | operand asks named rooted =>
          cases asks with
          | left =>
            obtain rfl := Except.ok.inj (rooted.symm.trans leftRooted)
            exact .inl ⟨_, named, rfl⟩
          | right =>
            obtain rfl := Except.ok.inj (rooted.symm.trans rightRooted)
            exact .inr (.inl ⟨_, named, rfl⟩)
          | element =>
            obtain rfl := Except.ok.inj (rooted.symm.trans leftRooted)
            exact .inr (.inr ⟨rfl, _, named, rfl⟩)

/-- The answer of a node that asks one question. -/
theorem Right.single {patterns : List Pattern} {result : Except Fault (List Pattern)}
    (found : result = .ok patterns)
    (same : ∀ pattern, pattern ∈ patterns ↔ Uses catalog node pattern) :
    Right catalog node [result] :=
  ⟨[patterns], by rw [found]; rfl, by simpa using same⟩

/-- The pattern of a selection out of a JSON value. -/
theorem selectionPattern_eq {first : String} (rooted : object.root? = .ok root)
    (found : object.firstField field = .ok first) :
    selectionPattern catalog [object, .token ⟨.ident, field⟩] =
      .ok ((root.toList.filter (catalog.isJson · first)).map fun table =>
        ⟨first, .jsonAccess, table⟩) := by
  cases root with
  | none => simp [selectionPattern, rooted, bind, Except.bind, pure, Except.pure]
  | some table =>
    by_cases isJson : catalog.isJson table first
    · simp [selectionPattern, rooted, found, bind, Except.bind, pure, Except.pure, isJson]
    · simp [selectionPattern, rooted, found, bind, Except.bind, pure, Except.pure, isJson]

theorem selectionPattern_right (grammatical : (Tree.node .memberDot children).Grammatical) :
    Right catalog (.node .memberDot children) [selectionPattern catalog children] := by
  obtain ⟨object, field, rfl, -⟩ := grammatical.memberDot
  have objectGrammatical : object.Grammatical := grammatical.child (by simp)
  obtain ⟨root, rooted⟩ := objectGrammatical.root?_ok
  obtain ⟨first, found⟩ := objectGrammatical.firstField_ok field
  refine .single (selectionPattern_eq rooted found) fun pattern => ?_
  rw [List.mem_map]
  constructor
  · rintro ⟨table, member, rfl⟩
    obtain ⟨among, isJson⟩ := List.mem_filter.mp member
    obtain rfl : root = some table := Option.mem_toList.mp among
    exact .json rooted found isJson
  · intro uses
    cases uses with
    | operand asks => cases asks
    | @json _ _ table _ otherRooted otherFound isJson =>
      obtain rfl := Except.ok.inj (otherRooted.symm.trans rooted)
      obtain rfl := Except.ok.inj (otherFound.symm.trans found)
      exact ⟨table, List.mem_filter.mpr ⟨by simp, isJson⟩, rfl⟩

/-- The pattern of a comprehension over an operand that names a column. -/
theorem comprehensionPattern_eq (grammatical : object.Grammatical)
    (isNode : object.label ≠ .token .ident) (rooted : object.root? = .ok root) :
    (object.naming? = none ∧ comprehensionPattern catalog object = .ok []) ∨
      ∃ naming, object.naming? = some naming ∧
        ((root = none ∧ comprehensionPattern catalog object =
          .ok [⟨naming.text, .arrayComprehension, ""⟩]) ∨
          ∃ table field, root = some table ∧ object.firstField naming.text = .ok field ∧
            comprehensionPattern catalog object = .ok [⟨field,
              if catalog.isJson table field then .jsonArrayComprehension
              else .arrayComprehension, table⟩]) := by
  rw [comprehensionPattern, column?_eq grammatical isNode]
  cases object.naming? with
  | none => exact .inl ⟨rfl, rfl⟩
  | some naming =>
    refine .inr ⟨naming, rfl, ?_⟩
    obtain ⟨field, found⟩ := grammatical.firstField_ok naming.text
    cases root with
    | none =>
      refine .inl ⟨rfl, ?_⟩
      simp only [rooted]
      rfl
    | some table =>
      refine .inr ⟨table, field, rfl, found, ?_⟩
      simp [rooted, found, bind, Except.bind, pure, Except.pure]

/-- The uses of a comprehension are those of its source. -/
theorem Uses.of_source
    (uses : Uses catalog (.node .memberDotArg (object :: .token ⟨.ident, method⟩ :: rest)) pattern)
    (otherMethod : method ≠ "matches") (rooted : object.root? = .ok root) :
    method ∈ comprehensionMethods ∧ ∃ naming, object.naming? = some naming ∧
      ((root = none ∧ pattern = ⟨naming.text, .arrayComprehension, ""⟩) ∨
        ∃ table field, root = some table ∧ object.firstField naming.text = .ok field ∧
        pattern = ⟨field,
          if catalog.isJson table field then .jsonArrayComprehension
          else .arrayComprehension, table⟩) := by
  cases uses with
  | operand asks =>
    cases asks with
    | object => exact absurd rfl otherMethod
  | source isMethod named otherRooted first =>
    obtain rfl := Except.ok.inj (otherRooted.symm.trans rooted)
    exact ⟨isMethod, _, named, .inr ⟨_, _, rfl, first, rfl⟩⟩
  | rootless isMethod named otherRooted =>
    obtain rfl := Except.ok.inj (otherRooted.symm.trans rooted)
    exact ⟨isMethod, _, named, .inl ⟨rfl, rfl⟩⟩

/-- A comprehension uses the column that its source names. -/
theorem comprehensionPattern_right {root : Option String} (isMethod : method ∈ comprehensionMethods)
    (otherMethod : method ≠ "matches") (grammatical : object.Grammatical)
    (isNode : object.label ≠ .token .ident) (rooted : object.root? = .ok root) :
    Right catalog (.node .memberDotArg (object :: .token ⟨.ident, method⟩ :: rest))
      [comprehensionPattern catalog object] := by
  have own {pattern : Pattern}
      (uses : Uses catalog (.node .memberDotArg (object :: .token ⟨.ident, method⟩ :: rest))
      pattern) := (uses.of_source otherMethod rooted).2
  rcases comprehensionPattern_eq grammatical isNode rooted with
    ⟨unnamed, answer⟩ | ⟨naming, named, ⟨rfl, answer⟩ | ⟨table, field, rfl, first, answer⟩⟩
  · refine .single answer fun pattern => ⟨by simp, fun uses => ?_⟩
    obtain ⟨naming, named, -⟩ := own uses
    simp [unnamed] at named
  · refine .single answer fun pattern => ?_
    rw [List.mem_singleton]
    constructor
    · rintro rfl
      exact .rootless isMethod named rooted
    · intro uses
      obtain ⟨_, otherNamed, ⟨-, rfl⟩ | ⟨_, _, rootless, -⟩⟩ := own uses
      · rw [Option.some.inj (otherNamed.symm.trans named)]
      · cases rootless
  · refine .single answer fun pattern => ?_
    rw [List.mem_singleton]
    constructor
    · rintro rfl
      exact .source isMethod named rooted first
    · intro uses
      obtain ⟨_, otherNamed, ⟨rootless, -⟩ | ⟨_, _, sameTable, otherFirst, rfl⟩⟩ := own uses
      · cases rootless
      · obtain rfl := Option.some.inj (otherNamed.symm.trans named)
        obtain rfl := Option.some.inj sameTable
        rw [Except.ok.inj (otherFirst.symm.trans first)]

theorem methodPattern_right (grammatical : (Tree.node .memberDotArg children).Grammatical) :
    Right catalog (.node .memberDotArg children) [methodPattern catalog children] := by
  obtain ⟨object, method, objectLabel, shape⟩ := grammatical.memberDotArg
  obtain ⟨rest, rfl⟩ : ∃ rest, children = object :: .token ⟨.ident, method⟩ :: rest := by
    rcases shape with rfl | ⟨items, rfl⟩
    · exact ⟨[], rfl⟩
    · exact ⟨[_], rfl⟩
  have objectGrammatical : object.Grammatical := grammatical.child (.head _)
  have isNode : object.label ≠ .token .ident := by simp [objectLabel]
  obtain ⟨root, rooted⟩ := objectGrammatical.root?_ok
  rw [methodPattern, Tree.nameText_token]
  by_cases isMatch : method = "matches"
  · subst isMatch
    rw [if_pos rfl]
    refine .single (columnPattern_eq .regexMatch objectGrammatical isNode rooted) fun pattern => ?_
    rw [mem_namedPatterns]
    constructor
    · rintro ⟨naming, named, rfl⟩
      exact .operand (.object object rest) named rooted
    · intro uses
      cases uses with
      | operand asks named otherRooted =>
        cases asks with
        | object =>
          obtain rfl := Except.ok.inj (otherRooted.symm.trans rooted)
          exact ⟨_, named, rfl⟩
      | source isMethod | rootless isMethod => simp [comprehensionMethods] at isMethod
  · rw [if_neg isMatch]
    by_cases isMethod : method ∈ comprehensionMethods
    · rw [if_pos (by simpa using isMethod)]
      exact comprehensionPattern_right isMethod isMatch objectGrammatical isNode rooted
    · rw [if_neg (by simpa using isMethod)]
      refine .single rfl fun pattern => ⟨by simp, fun uses => ?_⟩
      exact absurd (uses.of_source isMatch rooted).1 isMethod

theorem functionPattern_right (grammatical : (Tree.node .identArg children).Grammatical) :
    Right catalog (.node .identArg children) [functionPattern children] := by
  have noUse {pattern : Pattern} {name : String} {rest : List Tree} (other : name ≠ "matches")
      (uses : Uses catalog (.node .identArg (.token ⟨.ident, name⟩ :: rest)) pattern) : False := by
    cases uses with
    | operand asks =>
      cases asks with
      | argument => exact other rfl
  obtain ⟨name, rfl | ⟨items, rfl⟩⟩ := grammatical.identArg
  · refine .single (show functionPattern [.token ⟨.ident, name⟩] = .ok [] from rfl) fun pattern =>
      ⟨by simp, fun uses => ?_⟩
    cases uses with
    | operand asks => cases asks
  · have listGrammatical : (Tree.node .exprList items).Grammatical :=
      grammatical.child (.tail _ (.head _))
    obtain ⟨given, areExpressions⟩ := (Tree.grammatical_node.mp listGrammatical).1
    cases items with
    | nil => simp at given
    | cons subject rest =>
      have subjectGrammatical : subject.Grammatical := listGrammatical.child (.head _)
      have subjectLabel : subject.label = .rule .expr := areExpressions _ (by simp)
      obtain ⟨root, rooted⟩ := subjectGrammatical.root?_ok
      rw [functionPattern, Tree.nameText_token]
      by_cases isMatch : name = "matches"
      · subst isMatch
        rw [if_pos rfl]
        refine .single (columnPattern_eq .regexMatch subjectGrammatical
          (by simp [subjectLabel]) rooted) fun pattern => ?_
        rw [mem_namedPatterns]
        constructor
        · rintro ⟨naming, named, rfl⟩
          exact .operand (.argument subject rest) named rooted
        · intro uses
          cases uses with
          | operand asks named otherRooted =>
            cases asks with
            | argument =>
              obtain rfl := Except.ok.inj (otherRooted.symm.trans rooted)
              exact ⟨_, named, rfl⟩
      · rw [if_neg isMatch]
        exact .single rfl fun pattern => ⟨by simp, fun uses => (noUse isMatch uses).elim⟩

/-- **The patterns of a node.** On expressions, asking a node for its patterns does not fail, and
they are its uses. -/
theorem nodePatterns_right (catalog : Catalog)
    (grammatical : (Tree.node rule children).Grammatical) :
    Right catalog (.node rule children) (nodePatterns catalog rule children) := by
  unfold nodePatterns
  split
  · exact relationPatterns_right grammatical
  · exact selectionPattern_right grammatical
  · exact methodPattern_right grammatical
  · exact functionPattern_right grammatical
  next notRelation notSelection notMethod notFunction =>
    refine ⟨[], rfl, fun pattern => ⟨by simp, fun uses => ?_⟩⟩
    cases uses with
    | operand asks =>
      cases asks with
      | left | right | element => exact absurd rfl notRelation
      | object => exact absurd rfl notMethod
      | argument => exact absurd rfl notFunction
    | source | rootless => exact absurd rfl notMethod
    | json => exact absurd rfl notSelection

/-! ## Uses of a tree -/

/-- The patterns that the walk over a tree finds, in the order in which it finds them. -/
def detected (catalog : Catalog) (tree : Tree) : List Pattern :=
  (findings catalog tree).patterns

/-- Answers that did not fail, one after the other. -/
theorem Findings.ofResults_ok (lists : List (List Pattern)) :
    ofResults (lists.map .ok) = ⟨lists.flatten, none⟩ := by
  induction lists with
  | nil => rfl
  | cons first rest ih =>
    rw [List.map_cons, ofResults, ih]
    rfl

/-- A walk that goes on finds what comes first and then the rest. -/
theorem Findings.append_of_ok {first second : Findings} (succeeds : first.fault = none) :
    first ++ second = ⟨first.patterns ++ second.patterns, second.fault⟩ := by
  show append first second = _
  rw [append, succeeds]

/-- Walks over trees one after the other, if none of them fails. -/
theorem findingsBelow_eq {trees : List Tree}
    (succeed : ∀ tree ∈ trees, (findings catalog tree).fault = none) :
    findingsBelow catalog trees = ⟨trees.flatMap (detected catalog), none⟩ := by
  induction trees with
  | nil => rfl
  | cons first rest ih =>
    rw [findingsBelow, Findings.append_of_ok (succeed first (.head _)),
      ih fun tree member => succeed tree (.tail _ member), List.flatMap_cons]
    rfl

/-- What the walk finds at a node, if it does not fail below. -/
theorem findings_node (catalog : Catalog) (grammatical : (Tree.node rule children).Grammatical)
    (succeed : ∀ child ∈ children, (findings catalog child).fault = none) :
    ∃ own : List Pattern, (∀ pattern, pattern ∈ own ↔ Uses catalog (.node rule children) pattern) ∧
      findings catalog (.node rule children) =
        ⟨own ++ (if isClosed rule then [] else children.flatMap (detected catalog)), none⟩ := by
  obtain ⟨lists, answers, uses⟩ := nodePatterns_right catalog grammatical
  refine ⟨lists.flatten, uses, ?_⟩
  rw [findings, answers, Findings.ofResults_ok, Findings.append_of_ok rfl, findingsBelow_eq succeed]
  split
  · rfl
  · rfl

/-- On expressions the walk does not fail. -/
theorem fault_findings {tree : Tree} (grammatical : tree.Grammatical) :
    (findings catalog tree).fault = none := by
  induction tree with
  | token leaf => rfl
  | node rule children ih =>
    obtain ⟨own, -, found⟩ := findings_node catalog grammatical fun child member =>
      ih child member (grammatical.child member)
    rw [found]

/-- **What the walk finds.** The patterns of a node are its uses and, unless the walk does not go
below its rule, the patterns of its children. -/
theorem mem_detected_node (grammatical : (Tree.node rule children).Grammatical) :
    pattern ∈ detected catalog (.node rule children) ↔
      Uses catalog (.node rule children) pattern ∨
        (isClosed rule = false ∧ ∃ child ∈ children, pattern ∈ detected catalog child) := by
  obtain ⟨own, uses, found⟩ := findings_node catalog grammatical fun child member =>
    fault_findings (grammatical.child member)
  rw [detected, found, List.mem_append, uses]
  cases isClosed rule with
  | true => simp
  | false => simp

end Index

end CelWhere
