import CelWhere.Proofs.Advice.Basic

/-! # The order of operands

Swapping the operands of conjunctions and disjunctions changes the order in which the walk finds
patterns, and so which of them is kept, but not the columns and their uses. The kind of an index
depends on these only.

* `Tree.bare` — an operand without parentheses;
* `Tree.Rearranged` — operands of conjunctions and disjunctions are swapped, outside of the objects
  of selections;
* `Tree.Rearranged.naming?_eq` — operands name the same columns;
* `Index.Detects.rearranged` — the same columns are used in the same ways;
* `Index.Wins.rearranged` — the winners of a column ask for the same kind of index. -/

namespace CelWhere

variable {rest : List Tree}

/-- The rules of selections, whose first child is the object that is selected from. -/
def Rule.selections : List Rule := [.memberDot, .memberDotArg, .memberIndex]

namespace Tree

variable {rule : Rule}

/-! ## Nodes around operands -/

/-- A node around another one names the column that the other one names. -/
theorem naming?_wrapped (rule inner : Rule) (children : List Tree) :
    (Tree.node rule [.node inner children]).naming? = (Tree.node inner children).naming? := by
  rw [naming?]
  all_goals simp

/-- Of the nodes with several children, selections name a column. -/
theorem naming?_several {first second : Tree} {naming : Naming} :
    (Tree.node rule (first :: second :: rest)).naming? = some naming ↔
      rule = .memberDot ∧ rest = [] ∧ ∃ leaf, second = .token leaf ∧ naming = .field leaf.text := by
  constructor
  · intro named
    unfold naming? at named
    split at named
    next same => simp at same
    next same => simp at same
    next object leaf same =>
      obtain ⟨rfl, both⟩ := Tree.node.inj same
      obtain ⟨rfl, rfl, rfl⟩ : first = object ∧ second = .token leaf ∧ rest = [] :=
        by simpa using both
      exact ⟨rfl, rfl, leaf, rfl, (Option.some.inj named).symm⟩
    next same => simp at same
    next same => simp at same
    next same => simp at same
    · simp at named
  · rintro ⟨rfl, rfl, leaf, rfl, rfl⟩
    rfl

/-! ## Rearranged expressions -/

/-- The operand in parentheses and levels of precedence that have a single child. -/
def bare : Tree → Tree
  | .node rule [child] =>
    if rule.isLevel || rule = .parenExpr then child.bare else .node rule [child]
  | tree => tree

/-- Some conjunctions and disjunctions of an expression have their operands swapped, outside of the
objects of selections. Swapped operands may be put in parentheses. -/
inductive Rearranged : Tree → Tree → Prop
  /-- A token stays the same. -/
  | token (leaf : Token) : Rearranged (.token leaf) (.token leaf)
  /-- A node is rearranged below. -/
  | node (rule : Rule) (pairs : List (Tree × Tree))
    (object : rule ∈ Rule.selections → ∀ pair ∈ pairs.head?, pair.1 = pair.2)
    (each : ∀ pair ∈ pairs, Rearranged pair.1 pair.2) :
    Rearranged (.node rule (pairs.map Prod.fst)) (.node rule (pairs.map Prod.snd))
  /-- The operands of a conjunction or disjunction are swapped. -/
  | swap {rule : Rule} {left right newLeft newRight : Tree}
    (junction : rule = .conditionalAnd ∨ rule = .conditionalOr)
    (one : Rearranged left.bare newRight.bare) (other : Rearranged right.bare newLeft.bare) :
    Rearranged (.node rule [left, right]) (.node rule [newLeft, newRight])

namespace Rearranged

variable {tree other : Tree}

/-- Swapping can be undone. -/
theorem symm (rearranged : tree.Rearranged other) : other.Rearranged tree := by
  induction rearranged with
  | token leaf => exact .token leaf
  | node rule pairs object each ih =>
    have first : (pairs.map Prod.swap).map Prod.fst = pairs.map Prod.snd :=
      by simp [Function.comp_def]
    have second : (pairs.map Prod.swap).map Prod.snd = pairs.map Prod.fst :=
      by simp [Function.comp_def]
    rw [← first, ← second]
    refine .node rule _ ?_ ?_
    · intro isSelection pair isHead
      rw [List.head?_map] at isHead
      obtain ⟨original, isOriginal, rfl⟩ := Option.map_eq_some_iff.mp isHead
      exact (object isSelection original isOriginal).symm
    · intro pair member
      obtain ⟨original, isOriginal, rfl⟩ := List.mem_map.mp member
      exact ih original isOriginal
  | swap junction one other oneIh otherIh => exact .swap junction otherIh oneIh

/-- Nothing needs to be swapped. -/
protected theorem refl (tree : Tree) : tree.Rearranged tree := by
  induction tree with
  | token leaf => exact .token leaf
  | node rule children ih =>
    have first : (children.map fun child => (child, child)).map Prod.fst = children :=
      by simp [Function.comp_def]
    have second : (children.map fun child => (child, child)).map Prod.snd = children :=
      by simp [Function.comp_def]
    have whole := Rearranged.node rule (children.map fun child => (child, child)) (by simp)
      (by simpa using ih)
    rwa [first, second] at whole

/-- A token is rearranged to itself only. -/
theorem of_token {leaf : Token} (rearranged : (Tree.token leaf).Rearranged other) :
    other = .token leaf := by
  cases rearranged
  rfl

/-- A node is rearranged to nodes of its rule. -/
theorem of_node {children : List Tree} (rearranged : (Tree.node rule children).Rearranged other) :
    ∃ others, other = .node rule others := by
  cases rearranged with
  | node _ pairs => exact ⟨_, rfl⟩
  | swap => exact ⟨_, rfl⟩

/-- An operator around its left operand is rearranged in that operand. -/
theorem of_single {child : Tree} (rearranged : (Tree.node rule [child]).Rearranged other) :
    ∃ newChild, other = .node rule [newChild] ∧ child.Rearranged newChild := by
  generalize isTree : Tree.node rule [child] = tree at rearranged
  cases rearranged with
  | token => cases isTree
  | node _ pairs object each =>
    obtain ⟨rfl, same⟩ := Tree.node.inj isTree
    obtain ⟨pair, rfl, rfl⟩ := List.map_eq_singleton_iff.mp same.symm
    exact ⟨pair.2, rfl, each pair (.head _)⟩
  | swap => cases isTree

/-- Rearranged operands name the same column. -/
theorem naming?_eq (rearranged : tree.Rearranged other) : tree.naming? = other.naming? := by
  induction rearranged with
  | token leaf => rfl
  | swap junction =>
    rcases junction with rfl | rfl
    · rfl
    · rfl
  | node rule pairs object each ih =>
    rcases pairs with _ | ⟨⟨first, newFirst⟩, _ | ⟨⟨second, newSecond⟩, rest⟩⟩
    · rfl
    · have below := each _ (.head _)
      cases first with
      | token leaf =>
        obtain rfl := below.of_token
        rfl
      | node inner children =>
        obtain ⟨others, rfl⟩ := below.of_node
        show (Tree.node rule [.node inner children]).naming? =
          (Tree.node rule [.node inner others]).naming?
        rw [naming?_wrapped, naming?_wrapped]
        exact ih _ (.head _)
    · -- Only a selection names a column then, by a token, which stays the same.
      have below : second.Rearranged newSecond := each (second, newSecond) (by simp)
      have sameLeaf (leaf : Token) : second = .token leaf ↔ newSecond = .token leaf := by
        constructor
        · rintro rfl
          exact below.of_token
        · rintro rfl
          exact below.symm.of_token
      refine Option.ext fun naming => ?_
      simp only [List.map_cons]
      rw [naming?_several, naming?_several]
      simp only [sameLeaf, List.map_eq_nil_iff]

end Rearranged

/-- An operand without its parentheses follows the grammar. -/
theorem Grammatical.bare {tree : Tree} (grammatical : tree.Grammatical) :
    tree.bare.Grammatical := by
  fun_induction Tree.bare tree with
  | case1 rule child isWrapper ih =>
    exact ih (grammatical.child (.head _))
  | case2 | case3 => exact grammatical

end Tree

namespace Index

variable {pattern : Pattern}

variable {catalog : Catalog} {tree other : Tree} {rule : Rule} {children : List Tree}
  {column : String} {type : PatternType}

/-! ## Columns and their uses -/

/-- The walk over a tree finds a column that is used in some way. -/
def Detects (catalog : Catalog) (tree : Tree) (column : String) (type : PatternType) : Prop :=
  ∃ pattern ∈ detected catalog tree, pattern.column = column ∧ pattern.type = type

/-- The columns of a node are those that it uses and those of its children. -/
theorem detects_node (grammatical : (Tree.node rule children).Grammatical) :
    Detects catalog (.node rule children) column type ↔
      (∃ pattern, Uses catalog (.node rule children) pattern ∧ pattern.column = column ∧
        pattern.type = type) ∨
        (isClosed rule = false ∧ ∃ child ∈ children, Detects catalog child column type) := by
  simp only [Detects, mem_detected_node grammatical]
  constructor
  · rintro ⟨pattern, own | ⟨isOpen, child, isChild, below⟩, same⟩
    · exact .inl ⟨pattern, own, same⟩
    · exact .inr ⟨isOpen, child, isChild, pattern, below, same⟩
  · rintro (⟨pattern, own, same⟩ | ⟨isOpen, child, isChild, pattern, below, same⟩)
    · exact ⟨pattern, .inl own, same⟩
    · exact ⟨pattern, .inr ⟨isOpen, child, isChild, below⟩, same⟩

/-- Parentheses and levels of precedence around an operand do not matter. -/
theorem detects_bare (grammatical : tree.Grammatical) :
    Detects catalog tree.bare column type ↔ Detects catalog tree column type := by
  fun_induction Tree.bare tree with
  | case1 rule child isWrapper ih =>
    have noUse (pattern : Pattern) : ¬Uses catalog (.node rule [child]) pattern := by
      intro uses
      cases uses with
      | operand asks => cases asks
    have isOpen : isClosed rule = false := by
      cases rule <;> simp [Rule.isLevel, isClosed] at isWrapper ⊢
    rw [ih (grammatical.child (.head _)), detects_node grammatical]
    simp [noUse, isOpen]
  | case2 | case3 => exact Iff.rfl

/-- The first of some pairs, given the first of their first parts. -/
theorem pairs_eq_cons {pairs : List (Tree × Tree)} {first : Tree}
    (same : pairs.map Prod.fst = first :: rest) :
    ∃ second behind, pairs = (first, second) :: behind ∧ behind.map Prod.fst = rest := by
  obtain ⟨⟨_, second⟩, behind, rfl, rfl, rfl⟩ := List.map_eq_cons_iff.mp same
  exact ⟨second, behind, rfl, rfl⟩

section

variable {pairs : List (Tree × Tree)}
  (object : rule ∈ Rule.selections → ∀ pair ∈ pairs.head?, pair.1 = pair.2)
  (each : ∀ pair ∈ pairs, pair.1.Rearranged pair.2)

include each

/-- A comparison that is rearranged below keeps its operator, and its operands name the same
columns. -/
theorem comparison_rearranged {operator : Rule} {left right : Tree}
    (same : pairs.map Prod.fst = [.node operator [left], right]) :
    ∃ newLeft newRight, pairs.map Prod.snd = [.node operator [newLeft], newRight] ∧
      newLeft.naming? = left.naming? ∧ newRight.naming? = right.naming? := by
  obtain ⟨first, behind, rfl, sameBehind⟩ := pairs_eq_cons same
  obtain ⟨newRight, rest, rfl, none⟩ := pairs_eq_cons sameBehind
  obtain rfl := List.map_eq_nil_iff.mp none
  have below : (Tree.node operator [left]).Rearranged first := each (_, first) (.head _)
  obtain ⟨newLeft, rfl, leftRearranged⟩ := below.of_single
  have rightRearranged : right.Rearranged newRight := each (right, newRight) (by simp)
  exact ⟨newLeft, newRight, rfl, leftRearranged.naming?_eq.symm, rightRearranged.naming?_eq.symm⟩

/-- A call that is rearranged below keeps its name, and its first argument names the same column. -/
theorem call_rearranged {name : Token} {subject : Tree}
    (same : pairs.map Prod.fst = [.token name, .node .exprList (subject :: rest)]) :
    ∃ newSubject newRest, pairs.map Prod.snd =
      [.token name, .node .exprList (newSubject :: newRest)] ∧
      newSubject.naming? = subject.naming? := by
  obtain ⟨newName, behind, rfl, sameBehind⟩ := pairs_eq_cons same
  obtain ⟨newList, others, rfl, none⟩ := pairs_eq_cons sameBehind
  obtain rfl := List.map_eq_nil_iff.mp none
  have nameRearranged : (Tree.token name).Rearranged newName := each (_, newName) (.head _)
  obtain rfl := nameRearranged.of_token
  have below : (Tree.node .exprList (subject :: rest)).Rearranged newList :=
    each (_, newList) (by simp)
  generalize isList : Tree.node .exprList (subject :: rest) = list at below
  cases below with
  | token => cases isList
  | node _ items _ eachItem =>
    obtain ⟨rfl, sameItems⟩ := Tree.node.inj isList
    obtain ⟨newSubject, newRest, rfl, -⟩ := pairs_eq_cons sameItems.symm
    have subjectRearranged : subject.Rearranged newSubject :=
      eachItem (subject, newSubject) (.head _)
    exact ⟨newSubject, newRest.map Prod.snd, rfl, subjectRearranged.naming?_eq.symm⟩
  | swap junction =>
    obtain ⟨rfl, -⟩ := Tree.node.inj isList
    simp at junction

include object

/-- A selection that is rearranged below keeps its object and its name. -/
theorem selection_rearranged {source : Tree} {name : Token} (isSelection : rule ∈ Rule.selections)
    (same : pairs.map Prod.fst = source :: .token name :: rest) :
    ∃ newRest, pairs.map Prod.snd = source :: .token name :: newRest ∧
      (rest = [] → newRest = []) := by
  obtain ⟨newSource, behind, rfl, sameBehind⟩ := pairs_eq_cons same
  obtain ⟨newName, restPairs, rfl, rfl⟩ := pairs_eq_cons sameBehind
  have sameSource : source = newSource := object isSelection (source, newSource) rfl
  have nameRearranged : (Tree.token name).Rearranged newName :=
    each (.token name, newName) (by simp)
  refine ⟨restPairs.map Prod.snd, ?_, by simp⟩
  rw [List.map_cons, List.map_cons, nameRearranged.of_token, sameSource]

/-- A node that is rearranged below asks operands for the same columns. -/
theorem Asks.rearranged {operand : Tree}
    (asks : Asks (.node rule (pairs.map Prod.fst)) type operand) :
    ∃ newOperand, Asks (.node rule (pairs.map Prod.snd)) type newOperand ∧
      newOperand.naming? = operand.naming? := by
  generalize isNode : Tree.node rule (pairs.map Prod.fst) = node at asks
  cases asks with
  | left operator left right =>
    obtain ⟨rfl, same⟩ := Tree.node.inj isNode
    obtain ⟨newLeft, newRight, shape, leftSame, -⟩ := comparison_rearranged each same
    exact ⟨newLeft, shape ▸ .left operator newLeft newRight, leftSame⟩
  | right operator left right =>
    obtain ⟨rfl, same⟩ := Tree.node.inj isNode
    obtain ⟨newLeft, newRight, shape, -, rightSame⟩ := comparison_rearranged each same
    exact ⟨newRight, shape ▸ .right operator newLeft newRight, rightSame⟩
  | element left right =>
    obtain ⟨rfl, same⟩ := Tree.node.inj isNode
    obtain ⟨newLeft, newRight, shape, leftSame, -⟩ := comparison_rearranged each same
    exact ⟨newLeft, shape ▸ .element newLeft newRight, leftSame⟩
  | object _ rest =>
    obtain ⟨rfl, same⟩ := Tree.node.inj isNode
    obtain ⟨newRest, shape, -⟩ := selection_rearranged object each (by simp [Rule.selections]) same
    exact ⟨operand, shape ▸ .object operand newRest, rfl⟩
  | argument _ rest =>
    obtain ⟨rfl, same⟩ := Tree.node.inj isNode
    obtain ⟨newSubject, newRest, shape, subjectSame⟩ := call_rearranged each same
    exact ⟨newSubject, shape ▸ .argument newSubject newRest, subjectSame⟩

/-- A node that is rearranged below uses the same columns in the same ways. -/
theorem Uses.rearranged (uses : Uses catalog (.node rule (pairs.map Prod.fst)) pattern)
    (grammatical : (Tree.node rule (pairs.map Prod.snd)).Grammatical) :
    ∃ other, Uses catalog (.node rule (pairs.map Prod.snd)) other ∧ other.column = pattern.column ∧
      other.type = pattern.type := by
  generalize isNode : Tree.node rule (pairs.map Prod.fst) = node at uses
  cases uses with
  | operand asks named rooted =>
    subst isNode
    obtain ⟨newOperand, newAsks, same⟩ := asks.rearranged object each
    obtain ⟨newRoot, newRooted⟩ := (newAsks.grammatical grammatical).root?_ok
    exact ⟨_, .operand newAsks (same.trans named) newRooted, rfl, rfl⟩
  | source isMethod named rooted first =>
    obtain ⟨rfl, same⟩ := Tree.node.inj isNode
    obtain ⟨newRest, shape, -⟩ := selection_rearranged object each (by simp [Rule.selections]) same
    rw [shape]
    exact ⟨_, .source isMethod named rooted first, rfl, rfl⟩
  | rootless isMethod named rooted =>
    obtain ⟨rfl, same⟩ := Tree.node.inj isNode
    obtain ⟨newRest, shape, -⟩ := selection_rearranged object each (by simp [Rule.selections]) same
    rw [shape]
    exact ⟨_, .rootless isMethod named rooted, rfl, rfl⟩
  | json rooted found isJson =>
    obtain ⟨rfl, same⟩ := Tree.node.inj isNode
    obtain ⟨newRest, shape, empty⟩ :=
      selection_rearranged object each (by simp [Rule.selections]) same
    rw [shape, empty rfl]
    exact ⟨_, .json rooted found isJson, rfl, rfl⟩

end

/-- Conjunctions and disjunctions use no columns by themselves. -/
theorem not_uses_junction (junction : rule = .conditionalAnd ∨ rule = .conditionalOr) :
    ¬Uses catalog (.node rule children) pattern := by
  intro uses
  rcases junction with rfl | rfl
  · cases uses with
    | operand asks => cases asks
  · cases uses with
    | operand asks => cases asks

/-- **Rearranged expressions use the same columns.** -/
theorem Detects.rearranged (rearranged : tree.Rearranged other) (grammatical : tree.Grammatical)
    (otherGrammatical : other.Grammatical) (detects : Detects catalog tree column type) :
    Detects catalog other column type := by
  induction rearranged with
  | token leaf => exact detects
  | node rule pairs object each ih =>
    rw [detects_node grammatical] at detects
    rw [detects_node otherGrammatical]
    rcases detects with ⟨pattern, uses, rfl, rfl⟩ | ⟨isOpen, child, isChild, found⟩
    · exact .inl (uses.rearranged object each otherGrammatical)
    · obtain ⟨pair, isPair, rfl⟩ := List.mem_map.mp isChild
      have isOther : pair.2 ∈ pairs.map Prod.snd := List.mem_map_of_mem isPair
      have below :=
        ih pair isPair (grammatical.child isChild) (otherGrammatical.child isOther) found
      exact .inr ⟨isOpen, pair.2, isOther, below⟩
  | @swap rule left right newLeft newRight junction one other oneIh otherIh =>
    have leftGrammatical : left.Grammatical := grammatical.child (.head _)
    have rightGrammatical : right.Grammatical := grammatical.child (.tail _ (.head _))
    have newLeftGrammatical : newLeft.Grammatical := otherGrammatical.child (.head _)
    have newRightGrammatical : newRight.Grammatical := otherGrammatical.child (.tail _ (.head _))
    -- What is found in an operand without its parentheses is found in the operand.
    have oneFound := oneIh leftGrammatical.bare newRightGrammatical.bare
    have otherFound := otherIh rightGrammatical.bare newLeftGrammatical.bare
    rw [detects_bare leftGrammatical, detects_bare newRightGrammatical] at oneFound
    rw [detects_bare rightGrammatical, detects_bare newLeftGrammatical] at otherFound
    rw [detects_node grammatical] at detects
    rw [detects_node otherGrammatical]
    rcases detects with ⟨pattern, uses, -⟩ | ⟨isOpen, child, isChild, found⟩
    · exact absurd uses (not_uses_junction junction)
    · rcases List.mem_pair.mp isChild with rfl | rfl
      · exact .inr ⟨isOpen, newRight, by simp, oneFound found⟩
      · exact .inr ⟨isOpen, newLeft, by simp, otherFound found⟩

/-! ## Recommendations -/

/-- The winner of a column is a comparison in both of two rearranged expressions, or in none of
them. -/
theorem Wins.rearranged (wins : Wins catalog tree pattern) (rearranged : tree.Rearranged other)
    (grammatical : tree.Grammatical) (otherGrammatical : other.Grammatical) :
    ∃ winner, Wins catalog other winner ∧ winner.column = pattern.column ∧
      (winner.type = .comparison ↔ pattern.type = .comparison) := by
  have there {column : String} {type : PatternType} (found : Detects catalog tree column type) :=
    found.rearranged rearranged grammatical otherGrammatical
  have back {column : String} {type : PatternType} (found : Detects catalog other column type) :=
    found.rearranged rearranged.symm otherGrammatical grammatical
  obtain ⟨found, isFound, sameColumn, -⟩ := there ⟨pattern, wins.mem, rfl, rfl⟩
  obtain ⟨winner, otherWins, winnerColumn⟩ := exists_wins isFound
  have same : winner.column = pattern.column := winnerColumn.trans sameColumn
  refine ⟨winner, otherWins, same, ?_⟩
  rw [otherWins.comparison_iff, wins.comparison_iff, same]
  constructor
  · intro each use isUse column
    obtain ⟨otherUse, isOtherUse, otherColumn, type⟩ := there ⟨use, isUse, rfl, rfl⟩
    exact type ▸ each otherUse isOtherUse (otherColumn.trans column)
  · intro each use isUse column
    obtain ⟨otherUse, isOtherUse, otherColumn, type⟩ := back ⟨use, isUse, rfl, rfl⟩
    exact type ▸ each otherUse isOtherUse (otherColumn.trans column)

/-- What is recommended: an index of some kind for a column. -/
def Recommendation.advice (recommendation : Recommendation) : String × IndexType :=
  (recommendation.column, recommendation.indexType)

/-- Patterns of a column that are both comparisons, or both are not, get the same advice. -/
theorem advice_recommendPostgres_eq {first second : Pattern} (column : first.column = second.column)
    (type : first.type = .comparison ↔ second.type = .comparison) :
    (recommendPostgres first).advice = (recommendPostgres second).advice := by
  simp only [Recommendation.advice, recommendPostgres_column, recommendPostgres_indexType, column,
    type]

/-- Patterns of different columns get different advice. -/
theorem advice_nodup {patterns : List Pattern} (distinct : (patterns.map Pattern.column).Nodup) :
    ((patterns.map recommendPostgres).map Recommendation.advice).Nodup := by
  have columns : ((patterns.map recommendPostgres).map Recommendation.advice).map Prod.fst =
      patterns.map Pattern.column := by
    simp [Function.comp_def, Recommendation.advice]
  exact .of_map Prod.fst (columns ▸ distinct)

/-- **Advice does not depend on the order of operands.** Two expressions of which one is the other
with operands of conjunctions and disjunctions swapped get the same advice, which is an index of one
kind for each column. -/
theorem adviseTree_rearranged (catalog : Catalog) (expression : tree.IsExpression)
    (otherExpression : other.IsExpression) (rearranged : tree.Rearranged other) :
    ∃ patterns recommendations otherPatterns otherRecommendations,
      adviseTree postgresAdvisor catalog tree = .ok (patterns, recommendations) ∧
      adviseTree postgresAdvisor catalog other = .ok (otherPatterns, otherRecommendations) ∧
      (recommendations.map Recommendation.column).Nodup ∧
      (recommendations.map Recommendation.advice).Perm
      (otherRecommendations.map Recommendation.advice) := by
  obtain ⟨kept, advised, distinct, winners⟩ := adviseTree_postgres catalog expression.1
  obtain ⟨otherKept, otherAdvised, otherDistinct, otherWinners⟩ :=
    adviseTree_postgres catalog otherExpression.1
  refine ⟨_, _, _, _, advised, otherAdvised, ?_, ?_⟩
  · rw [List.map_map]
    simpa [Function.comp_def] using distinct
  · refine (List.perm_ext_iff_of_nodup (advice_nodup distinct) (advice_nodup otherDistinct)).mpr
      fun advice => ?_
    simp only [List.mem_map, exists_exists_and_eq_and]
    constructor
    · rintro ⟨pattern, isKept, rfl⟩
      obtain ⟨winner, wins, column, type⟩ :=
        ((winners pattern).mp isKept).rearranged rearranged expression.1 otherExpression.1
      exact ⟨winner, (otherWinners winner).mpr wins, advice_recommendPostgres_eq column type⟩
    · rintro ⟨pattern, isKept, rfl⟩
      obtain ⟨winner, wins, column, type⟩ :=
        ((otherWinners pattern).mp isKept).rearranged rearranged.symm otherExpression.1 expression.1
      exact ⟨winner, (winners winner).mpr wins, advice_recommendPostgres_eq column type⟩

/-- Conjuncts are swapped, and the disjuncts of one of them, which is put in parentheses. -/
theorem adviseTree_rearranged_junctions :
    let side (operand : Tree) : Tree :=
      .node .addition
        [.node .multiplication [.node .unary [.node .member [.node .primary [operand]]]]]
    let name (text : String) : Tree := side (.node .ident [.token ⟨.ident, text⟩])
    let test (operator : Rule) (left right : String) : Tree :=
      .node .relation [.node operator [.node .relation [name left]], name right]
    let either (left right : Tree) : Tree :=
      .node .relation [side (.node .parenExpr [.node .expr [.node .conditionalOr
        [.node .conditionalOr [.node .conditionalAnd [left]], .node .conditionalAnd [right]]]])]
    let both (left right : Tree) : Tree :=
      .node .expr
        [.node .conditionalOr [.node .conditionalAnd [.node .conditionalAnd [left], right]]]
    let tree :=
      both (test .relationEq "a" "b") (either (test .relationIn "a" "l") (test .relationLt "b" "c"))
    let other :=
      both (either (test .relationLt "b" "c") (test .relationIn "a" "l")) (test .relationEq "a" "b")
    tree.Rearranged other ∧ ∃ patterns recommendations otherPatterns otherRecommendations,
      adviseTree postgresAdvisor {} tree = .ok (patterns, recommendations) ∧
      adviseTree postgresAdvisor {} other = .ok (otherPatterns, otherRecommendations) ∧
      (recommendations.map Recommendation.column).Nodup ∧
      (recommendations.map Recommendation.advice).Perm
      (otherRecommendations.map Recommendation.advice) := by
  intro side name test either both tree other
  have nameOf (text : String) (given : text ≠ "") (spelled : text.toList.all Lexer.isNameChar) :
      (name text).Grammatical ∧ (name text).label = .rule .addition := by
    have leaf : Token.WellFormed ⟨.ident, text⟩ := ⟨given, List.all_eq_true.mp spelled⟩
    simp [name, side, Rule.Produces, Rule.members, Rule.primaries, leaf]
  have a := nameOf "a" (by decide) (by decide)
  have b := nameOf "b" (by decide) (by decide)
  have c := nameOf "c" (by decide) (by decide)
  have l := nameOf "l" (by decide) (by decide)
  have expression : tree.IsExpression := by
    refine ⟨?_, rfl⟩
    simp [tree, both, either, test, a, b, c, l, side, Rule.Produces, Rule.members, Rule.primaries,
      Rule.comparisons]
  have otherExpression : other.IsExpression := by
    refine ⟨?_, rfl⟩
    simp [other, both, either, test, a, b, c, l, side, Rule.Produces, Rule.members, Rule.primaries,
      Rule.comparisons]
  have rearranged : tree.Rearranged other := by
    have disjunction : (either (test .relationIn "a" "l")
        (test .relationLt "b" "c")).bare.Rearranged
        (either (test .relationLt "b" "c") (test .relationIn "a" "l")).bare :=
      .swap (.inr rfl) (.refl _) (.refl _)
    have conjunction : (Tree.node .conditionalAnd [.node .conditionalAnd [test .relationEq "a" "b"],
          either (test .relationIn "a" "l") (test .relationLt "b" "c")]).Rearranged
        (.node .conditionalAnd
          [.node .conditionalAnd [either (test .relationLt "b" "c") (test .relationIn "a" "l")],
          test .relationEq "a" "b"]) :=
      .swap (.inl rfl) (.refl _) disjunction
    have level (rule : Rule) (other : rule ∉ Rule.selections) {child newChild : Tree}
        (below : child.Rearranged newChild) : (Tree.node rule [child]).Rearranged
        (.node rule [newChild]) :=
      .node rule [(child, newChild)] (fun isSelection => absurd isSelection other)
        (by simpa using below)
    exact level .expr (by decide) (level .conditionalOr (by decide) conjunction)
  exact ⟨rearranged, adviseTree_rearranged {} expression otherExpression rearranged⟩

end Index

end CelWhere
