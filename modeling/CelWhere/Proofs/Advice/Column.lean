import CelWhere.Proofs.Advice.Basic
import CelWhere.Proofs.Lexical.Basic

/-! # Columns that are recommended

A column of an expression is referred to by a name that no comprehension around it binds, or by the
field of a selection. The walk takes the column of an operand from the name at the bottom of it,
whatever that name stands for, so it also takes variables of comprehensions and functions that are
called without arguments.

* `Tree.places` — the parts of a tree with the variables that are bound around them;
* `Tree.references` — the columns that an expression refers to;
* `Index.Takes` — the operands that a node takes a column from;
* `Index.IsStray` — a column that is taken from a variable or a called function;
* `Index.reference_or_stray` — every column that is found is one or the other. -/

namespace CelWhere

variable {tree : Tree}

namespace Tree

/-! ## Places -/

/-- The variable that a call binds in its arguments if it is a comprehension. -/
def binder? : Tree → Option String
  | .node .memberDotArg [_, .token method, .node .exprList (iterator :: _)] =>
    if method.text ∈ Index.comprehensionMethods then iterator.identName.toOption else none
  | _ => none

/-- The variables that are bound behind the first child of a node, where others are bound around
it. -/
def scope (node : Tree) (bound : List String) : List String :=
  node.binder?.toList ++ bound

mutual

/-- The parts of a tree with the variables that are bound around them, except those below some
rules. -/
def places (closed : Rule → Bool) (bound : List String) : Tree → List (List String × Tree)
  | .token leaf => [(bound, .token leaf)]
  | .node rule [] => [(bound, .node rule [])]
  | .node rule (first :: rest) =>
    (bound, .node rule (first :: rest)) ::
      if closed rule then []
      else first.places closed bound ++ placesOf closed
      (scope (.node rule (first :: rest)) bound) rest

/-- The parts of the trees of a list. -/
def placesOf (closed : Rule → Bool) (bound : List String) : List Tree → List (List String × Tree)
  | [] => []
  | tree :: rest => tree.places closed bound ++ placesOf closed bound rest

end

variable {closed : Rule → Bool} {bound : List String} {place : List String × Tree}

theorem mem_placesOf {trees : List Tree} :
    place ∈ placesOf closed bound trees ↔ ∃ tree ∈ trees, place ∈ tree.places closed bound := by
  induction trees with
  | nil => simp [placesOf]
  | cons tree rest ih => simp [placesOf, ih]

/-- A tree is a part of itself. -/
theorem self_mem_places (tree : Tree) : (bound, tree) ∈ tree.places closed bound := by
  cases tree with
  | token leaf => simp [places]
  | node rule children => cases children <;> simp [places]

/-- The parts of a node are the node, those of its first child, and those of the others with its
variable bound. -/
theorem mem_places_node {rule : Rule} {first : Tree} {rest : List Tree} :
    place ∈ (Tree.node rule (first :: rest)).places closed bound ↔
      place = (bound, .node rule (first :: rest)) ∨
      (closed rule = false ∧ (place ∈ first.places closed bound ∨
        ∃ child ∈ rest, place ∈ child.places closed
        (scope (.node rule (first :: rest)) bound))) := by
  cases isClosed : closed rule with
  | true => simp [places, isClosed]
  | false => simp [places, isClosed, mem_placesOf]

/-- Induction on the way up from a place: what holds there, and passes from the children of nodes to
the nodes, holds of the whole tree. -/
theorem places_induction {motive : List String → Tree → Prop} (here : motive place.1 place.2)
    (first : ∀ bound rule child rest, closed rule = false → motive bound child →
      motive bound (.node rule (child :: rest)))
    (later : ∀ bound rule first rest, closed rule = false →
      (∃ child ∈ rest, motive (scope (.node rule (first :: rest)) bound) child) →
      motive bound (.node rule (first :: rest))) (found : place ∈ tree.places closed bound) :
    motive bound tree := by
  induction tree generalizing bound with
  | token leaf =>
    obtain rfl : place = (bound, .token leaf) := by simpa [places] using found
    exact here
  | node rule children ih =>
    cases children with
    | nil =>
      obtain rfl : place = (bound, .node rule []) := by simpa [places] using found
      exact here
    | cons head rest =>
      rcases mem_places_node.mp found with rfl | ⟨isOpen, below | ⟨child, isChild, below⟩⟩
      · exact here
      · exact first bound rule head rest isOpen (ih head (.head _) below)
      · exact later bound rule head rest isOpen ⟨child, isChild, ih child (.tail _ isChild) below⟩

/-- The parts of a part are parts. -/
theorem places_trans {part : Tree} {inner : List String}
    (outer : (inner, part) ∈ tree.places closed bound) (found : place ∈ part.places closed inner) :
    place ∈ tree.places closed bound := by
  refine places_induction (motive := fun bound tree => place ∈ tree.places closed bound)
    found ?_ ?_ outer
  · intro bound rule child rest isOpen below
    exact mem_places_node.mpr (.inr ⟨isOpen, .inl below⟩)
  · intro bound rule first rest isOpen below
    exact mem_places_node.mpr (.inr ⟨isOpen, .inr below⟩)

/-- Every part of an expression follows the grammar. -/
theorem Grammatical.of_mem_places (grammatical : tree.Grammatical)
    (found : place ∈ tree.places closed bound) : place.2.Grammatical := by
  refine places_induction (motive := fun _ tree => tree.Grammatical → place.2.Grammatical) id ?_ ?_
    found grammatical
  · intro _ rule child rest _ below grammatical
    exact below (grammatical.child (.head _))
  · rintro _ rule first rest _ ⟨child, isChild, below⟩ grammatical
    exact below (grammatical.child (.tail _ isChild))

/-- The places above some rules are among all places. -/
theorem mem_places_of_closed (found : place ∈ tree.places closed bound) :
    place ∈ tree.places (fun _ => false) bound := by
  refine places_induction (motive := fun bound tree => place ∈ tree.places (fun _ => false) bound)
    (self_mem_places _) ?_ ?_ found
  · intro bound rule child rest _ below
    exact mem_places_node.mpr (.inr ⟨rfl, .inl below⟩)
  · intro bound rule first rest _ below
    exact mem_places_node.mpr (.inr ⟨rfl, .inr below⟩)

/-! ## References -/

/-- The column that a part refers to: a name that is not bound, with or without a leading dot, or a
field. -/
def referent? (bound : List String) : Tree → Option String
  | .node .ident [.token leaf] | .node .dotIdent [.token leaf] =>
    if leaf.text ∈ bound then none else some leaf.text
  | .node .memberDot [_, .token leaf] => some leaf.text
  | _ => none

/-- The columns that an expression refers to. -/
def references (tree : Tree) : List String :=
  (tree.places (fun _ => false) []).filterMap fun place => place.2.referent? place.1

theorem mem_references {column : String} :
    column ∈ tree.references ↔
      ∃ bound part, (bound, part) ∈ tree.places (fun _ => false) [] ∧
      part.referent? bound = some column := by
  simp [references]

end Tree

/-- Whether a naming is by a bound variable or a called function, and so not by a reference. -/
def Naming.isStray (bound : List String) : Naming → Bool
  | .name text | .absolute text => bound.contains text
  | .field _ => false
  | .call _ => true

namespace Tree

variable {bound : List String} {tree : Tree} {naming : Naming}

/-- What an operand names is referred to in it, unless it is a variable or a called function. -/
theorem exists_reference_of_naming (named : tree.naming? = some naming)
    (notStray : naming.isStray bound = false) :
    ∃ part, (bound, part) ∈ tree.places (fun _ => false) bound ∧
      part.referent? bound = some naming.text := by
  fun_induction naming? tree with
  | case1 leaf | case2 leaf =>
    obtain rfl := Option.some.inj named
    have free : leaf.text ∉ bound := by simpa [Naming.isStray] using notStray
    exact ⟨_, self_mem_places _, by simp [referent?, free, Naming.text]⟩
  | case3 object leaf =>
    obtain rfl := Option.some.inj named
    exact ⟨_, self_mem_places _, rfl⟩
  | case4 leaf | case5 leaf =>
    obtain rfl := Option.some.inj named
    simp [Naming.isStray] at notStray
  | case6 rule child _ _ _ _ ih =>
    obtain ⟨part, found, refers⟩ := ih named
    exact ⟨part, mem_places_node.mpr (.inr ⟨rfl, .inl found⟩), refers⟩
  | case7 => simp at named

/-- The field that is selected first is referred to, unless it is the other text. -/
theorem Grammatical.exists_reference_of_firstField (grammatical : tree.Grammatical)
    {fallback field : String} (first : tree.firstField fallback = .ok field) :
    field = fallback ∨ ∃ inner part, (inner, part) ∈ tree.places (fun _ => false) bound ∧
      part.referent? inner = some field := by
  refine grammatical.firstField_induction first (motive := fun tree => ∃ inner part,
    (inner, part) ∈ tree.places (fun _ => false) bound ∧ part.referent? inner = some field) ?_ ?_
  · intro object _
    exact ⟨bound, _, self_mem_places _, rfl⟩
  · rintro rule child rest ⟨inner, part, found, refers⟩
    exact ⟨inner, part, mem_places_node.mpr (.inr ⟨rfl, .inl found⟩), refers⟩

/-- No field is selected in an operand that is a variable or a called function. -/
theorem Grammatical.firstField_of_isStray (grammatical : tree.Grammatical)
    (named : tree.naming? = some naming) (stray : naming.isStray bound) (fallback : String) :
    tree.firstField fallback = .ok fallback := by
  fun_induction naming? tree with
  | case1 leaf | case2 leaf | case4 leaf | case5 leaf => rfl
  | case3 object leaf =>
    obtain rfl := Option.some.inj named
    simp [Naming.isStray] at stray
  | case6 rule child notName notAbsolute _ _ ih =>
    rw [firstField]
    · exact ih (grammatical.child (.head _)) named
    · rintro rfl
      simp [Rule.Produces] at grammatical
  | case7 => simp at named

end Tree

namespace Index

variable {catalog : Catalog} {tree : Tree} {bound : List String} {pattern : Pattern}

/-! ## Stray columns -/

/-- A node takes a column from an operand: it asks it for one, or it goes through it. -/
inductive Takes : Tree → Tree → Prop
  /-- The operand is asked for a column. -/
  | asked {node operand : Tree} {type : PatternType} (asks : Asks node type operand) :
    Takes node operand
  /-- A comprehension goes through the operand. -/
  | source {object : Tree} {method : String} {rest : List Tree}
    (isMethod : method ∈ comprehensionMethods) :
    Takes (.node .memberDotArg (object :: .token ⟨.ident, method⟩ :: rest)) object

/-- A column is stray if the walk takes it from an operand that is a variable or a function that is
called. -/
def IsStray (tree : Tree) (column : String) : Prop :=
  ∃ bound node, (bound, node) ∈ tree.places isClosed [] ∧ ∃ operand naming, Takes node operand ∧
    operand.naming? = some naming ∧ naming.isStray bound ∧ naming.text = column

/-- **Where patterns come from.** The walk finds the uses of the nodes that it comes to. -/
theorem mem_detected (grammatical : tree.Grammatical) :
    pattern ∈ detected catalog tree ↔ ∃ place ∈ tree.places isClosed bound,
      Uses catalog place.2 pattern := by
  constructor
  · -- By induction on the tree: behind the first child more variables may be bound.
    intro found
    induction tree generalizing bound with
    | token leaf => simp [detected, findings] at found
    | node rule children ih =>
      rcases (mem_detected_node grammatical).mp found with uses | ⟨isOpen, child, isChild, below⟩
      · exact ⟨_, Tree.self_mem_places _, uses⟩
      · cases children with
        | nil => cases isChild
        | cons first rest =>
          rcases List.mem_cons.mp isChild with rfl | isLater
          · obtain ⟨place, isPlace, uses⟩ := ih child isChild (grammatical.child isChild) below
            exact ⟨place, Tree.mem_places_node.mpr (.inr ⟨isOpen, .inl isPlace⟩), uses⟩
          · obtain ⟨place, isPlace, uses⟩ := ih child isChild (grammatical.child isChild) below
            exact ⟨place, Tree.mem_places_node.mpr (.inr ⟨isOpen, .inr ⟨child, isLater, isPlace⟩⟩),
              uses⟩
  · rintro ⟨⟨inner, part⟩, isPlace, uses⟩
    refine Tree.places_induction (motive := fun _ tree => tree.Grammatical →
      pattern ∈ detected catalog tree) ?_ ?_ ?_
      isPlace grammatical
    · intro grammatical
      cases part with
      | token leaf =>
        cases uses with
        | operand asks => cases asks
      | node rule children => exact (mem_detected_node grammatical).mpr (.inl uses)
    · intro _ rule child rest isOpen below grammatical
      have found := below (grammatical.child (.head _))
      exact (mem_detected_node grammatical).mpr (.inr ⟨isOpen, child, .head _, found⟩)
    · rintro _ rule first rest isOpen ⟨child, isChild, below⟩ grammatical
      have found := below (grammatical.child (.tail _ isChild))
      exact (mem_detected_node grammatical).mpr (.inr ⟨isOpen, child, .tail _ isChild, found⟩)

/-- An operand is in the scope of its node. -/
theorem Takes.mem_places {node operand : Tree} (takes : Takes node operand) :
    (bound, operand) ∈ node.places (fun _ => false) bound := by
  cases takes with
  | asked asks =>
    cases asks with
    | left | element =>
      refine Tree.mem_places_node.mpr (.inr ⟨rfl, .inl ?_⟩)
      exact Tree.mem_places_node.mpr (.inr ⟨rfl, .inl (Tree.self_mem_places _)⟩)
    | right =>
      exact Tree.mem_places_node.mpr (.inr ⟨rfl, .inr ⟨operand, .head _, Tree.self_mem_places _⟩⟩)
    | object => exact Tree.mem_places_node.mpr (.inr ⟨rfl, .inl (Tree.self_mem_places _)⟩)
    | argument =>
      refine Tree.mem_places_node.mpr (.inr ⟨rfl, .inr ⟨_, .head _, ?_⟩⟩)
      exact Tree.mem_places_node.mpr (.inr ⟨rfl, .inl (Tree.self_mem_places _)⟩)
  | source isMethod => exact Tree.mem_places_node.mpr (.inr ⟨rfl, .inl (Tree.self_mem_places _)⟩)

/-- What a node uses is taken from an operand, or it is a reference below the node. -/
theorem Uses.reference_or_taken {node : Tree} (uses : Uses catalog node pattern)
    (grammatical : node.Grammatical) :
    (∃ inner part, (inner, part) ∈ node.places (fun _ => false) bound ∧
      part.referent? inner = some pattern.column) ∨
      ∃ operand naming, Takes node operand ∧ operand.naming? = some naming ∧
      naming.text = pattern.column := by
  cases uses with
  | operand asks named rooted => exact .inr ⟨_, _, .asked asks, named, rfl⟩
  | @source object _ _ _ _ _ isMethod named rooted first =>
    have objectGrammatical : object.Grammatical := grammatical.child (.head _)
    rcases objectGrammatical.exists_reference_of_firstField first with
      rfl | ⟨inner, part, found, refers⟩
    · exact .inr ⟨object, _, .source isMethod, named, rfl⟩
    · exact .inl ⟨inner, part, Tree.mem_places_node.mpr (.inr ⟨rfl, .inl found⟩), refers⟩
  | @rootless object _ _ _ isMethod named rooted =>
    exact .inr ⟨object, _, .source isMethod, named, rfl⟩
  | @json object _ _ _ rooted first isJson =>
    have objectGrammatical : object.Grammatical := grammatical.child (.head _)
    rcases objectGrammatical.exists_reference_of_firstField first with
      rfl | ⟨inner, part, found, refers⟩
    · exact .inl ⟨bound, _, Tree.self_mem_places _, rfl⟩
    · exact .inl ⟨inner, part, Tree.mem_places_node.mpr (.inr ⟨rfl, .inl found⟩), refers⟩

/-- Every column that is found is referred to, or it is stray. -/
theorem reference_or_stray (grammatical : tree.Grammatical)
    (found : pattern ∈ detected catalog tree) :
    pattern.column ∈ tree.references ∨ IsStray tree pattern.column := by
  obtain ⟨⟨bound, node⟩, isPlace, uses⟩ := (mem_detected grammatical).mp found
  have everywhere := Tree.mem_places_of_closed isPlace
  have nodeGrammatical : node.Grammatical := grammatical.of_mem_places isPlace
  rcases uses.reference_or_taken nodeGrammatical with
    ⟨inner, part, isPart, refers⟩ | ⟨operand, naming, takes, named, column⟩
  · exact .inl (Tree.mem_references.mpr ⟨inner, part, Tree.places_trans everywhere isPart, refers⟩)
  · -- The operand stands in the scope of its node, so what is bound around the node decides.
    cases stray : naming.isStray bound with
    | true => exact .inr ⟨bound, node, isPlace, operand, naming, takes, named, stray, column⟩
    | false =>
      obtain ⟨part, isPart, refers⟩ := Tree.exists_reference_of_naming named stray
      have inNode := Tree.places_trans takes.mem_places isPart
      exact .inl (Tree.mem_references.mpr ⟨bound, part, Tree.places_trans everywhere inNode,
        column ▸ refers⟩)

/-- Every stray column is found. -/
theorem IsStray.detected (grammatical : tree.Grammatical) {column : String}
    (stray : IsStray tree column) :
    ∃ pattern ∈ detected catalog tree, pattern.column = column := by
  obtain ⟨bound, node, isPlace, operand, naming, takes, named, isStray, rfl⟩ := stray
  have nodeGrammatical : node.Grammatical := grammatical.of_mem_places isPlace
  have uses : ∃ pattern, Uses catalog node pattern ∧ pattern.column = naming.text := by
    cases takes with
    | asked asks =>
      obtain ⟨root, rooted⟩ := (asks.grammatical nodeGrammatical).root?_ok
      exact ⟨_, .operand asks named rooted, rfl⟩
    | source isMethod =>
      have objectGrammatical : operand.Grammatical := nodeGrammatical.child (.head _)
      obtain ⟨root, rooted⟩ := objectGrammatical.root?_ok
      cases root with
      | none => exact ⟨_, .rootless isMethod named rooted, rfl⟩
      | some table =>
        -- No field is selected in a stray operand, so the column is not replaced by one.
        exact ⟨_, .source isMethod named rooted
          (objectGrammatical.firstField_of_isStray named isStray _), rfl⟩
  obtain ⟨pattern, uses, column⟩ := uses
  exact ⟨pattern, (mem_detected grammatical).mpr ⟨_, isPlace, uses⟩, column⟩

end Index

/-! ## Recommendations for texts -/

namespace Settings

/-- An expression that is converted for PostgreSQL is analyzed as well: the winners get
recommendations. -/
theorem analyze_postgres {settings : Settings} {text sql : String}
    (inPostgres : settings.dialect = .postgresql) (converted : settings.convert text = .ok sql) :
    ∃ tree, parse? text = some tree ∧ tree.IsExpression ∧ ∃ kept : List Index.Pattern,
      settings.analyze text = .ok (sql, kept.map Index.recommendPostgres) ∧
        ∀ pattern, pattern ∈ kept ↔ Index.Wins settings.catalog tree pattern := by
  obtain ⟨tree, condition, parsed, treeConverted, rfl⟩ :=
    convert_toOption (congrArg Except.toOption converted : (settings.convert text).toOption =
      some sql)
  have expression := parse?_isExpression parsed
  obtain ⟨kept, advised, -, winners⟩ := Index.adviseTree_postgres settings.catalog expression.1
  refine ⟨tree, parsed, expression, kept, ?_, winners⟩
  have analyzed : settings.analyzeTree tree =
      .ok (condition.sql, kept.map Index.recommendPostgres) := by
    rw [analyzeTree, treeConverted, inPostgres, Index.advisor?_postgresql]
    show (Index.adviseTree Index.postgresAdvisor settings.catalog tree >>= fun advice =>
      pure (condition.sql, advice.2)) = _
    rw [advised]
    rfl
  unfold analyze withTree
  rw [parsed]
  simp only [analyzed]

/-- **Columns that are recommended.** An expression that is converted for PostgreSQL is analyzed,
and recommends the columns that the nodes use which the walk comes to. Each of them is one that the
expression refers to, unless it is taken from a variable of a comprehension or from a function that
is called; and all that are taken so are recommended. -/
theorem analyze_columns (settings : Settings) {text sql : String}
    (inPostgres : settings.dialect = .postgresql) (converted : settings.convert text = .ok sql) :
    ∃ tree recommendations, parse? text = some tree ∧
      settings.analyze text = .ok (sql, recommendations) ∧
      (∀ column, column ∈ recommendations.map (·.column) ↔
        ∃ bound node, (bound, node) ∈ tree.places Index.isClosed [] ∧
        ∃ pattern, Index.Uses settings.catalog node pattern ∧ pattern.column = column) ∧
      (∀ column ∈ recommendations.map (·.column), column ∈ tree.references ∨
        Index.IsStray tree column) ∧
      ∀ column, Index.IsStray tree column → column ∈ recommendations.map (·.column) := by
  obtain ⟨tree, parsed, expression, kept, analyzed, winners⟩ :=
    analyze_postgres inPostgres converted
  refine ⟨tree, _, parsed, analyzed, ?_, ?_, ?_⟩
  · intro column
    rw [Index.mem_columns winners]
    constructor
    · rintro ⟨pattern, found, same⟩
      obtain ⟨⟨bound, node⟩, isPlace, uses⟩ := (Index.mem_detected expression.1).mp found
      exact ⟨bound, node, isPlace, pattern, uses, same⟩
    · rintro ⟨bound, node, isPlace, pattern, uses, same⟩
      exact ⟨pattern, (Index.mem_detected expression.1).mpr ⟨_, isPlace, uses⟩, same⟩
  · intro column recommended
    obtain ⟨pattern, found, rfl⟩ := (Index.mem_columns winners).mp recommended
    exact Index.reference_or_stray expression.1 found
  · intro column stray
    exact (Index.mem_columns winners).mpr (stray.detected expression.1)

/-- A variable and a function among columns of several uses. -/
theorem analyze_columns_stray :
    let settings : Settings := {}
    let text := "t.l.exists(x, x.id == 2 && x > now())"
    let sql := "EXISTS (SELECT 1 FROM UNNEST(t.l) AS x WHERE x.id = 2 AND x > NOW())"
    settings.convert text = .ok sql ∧
      ∃ tree recommendations, parse? text = some tree ∧
      settings.analyze text = .ok (sql, recommendations) ∧
        recommendations.map (·.column) = ["l", "id", "x", "now"] ∧
        tree.references = ["l", "t", "id"] ∧
        ∀ column ∈ recommendations.map (·.column), column ∈ tree.references ∨
        Index.IsStray tree column := by
  intro settings text sql
  have converted : settings.convert text = .ok sql := by decide +kernel
  have columns : (settings.analyze text).toOption.map (fun answer => answer.2.map (·.column)) =
      some ["l", "id", "x", "now"] := by
    decide +kernel
  have references : ∀ tree ∈ parse? text, tree.references = ["l", "t", "id"] := by decide +kernel
  obtain ⟨tree, recommendations, parsed, analyzed, -, each, -⟩ :=
    analyze_columns settings rfl converted
  rw [analyzed] at columns
  exact ⟨converted, tree, recommendations, parsed, analyzed, Option.some.inj columns,
    references tree parsed, each⟩

/-- Recommendations of an index for a variable and for a function, which the expressions do not
refer to. -/
theorem recommended_variable :
    (∀ tree ∈ parse? "l.exists(x, x > 5)", tree.references = ["l"]) ∧
    ({} : Settings).analyze "l.exists(x, x > 5)" =
    .ok ("EXISTS (SELECT 1 FROM UNNEST(l) AS x WHERE x > 5)",
      [⟨"l", .gin, "CREATE INDEX idx_l_l_gin ON l USING GIN (l)",
        "GIN index for comprehension on l"⟩,
        ⟨"x", .btree, "CREATE INDEX idx_x_x ON x (x)",
          "BTree index for comparison operations on x"⟩]) ∧
    (∀ tree ∈ parse? "f() == 1", tree.references = []) ∧
    ({} : Settings).analyze "f() == 1" = .ok ("F() = 1",
      [⟨"f", .btree, "CREATE INDEX idx_f_f ON f (f)",
        "BTree index for comparison operations on f"⟩]) := by
  refine ⟨?_, ?_, ?_, ?_⟩
  all_goals decide +kernel

end Settings

end CelWhere
