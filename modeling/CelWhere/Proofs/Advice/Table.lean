import CelWhere.Conversion
import CelWhere.Proofs.Advice.Basic
import CelWhere.Proofs.Reader

/-! # Tables that are recommended

A recommendation is a statement that makes an index on a column of a table. The table is the one
from which the winner of the column is selected, so of several tables with a column of the same name
one gets a recommendation.

* `Index.target?` — the table and the column that a statement makes an index on;
* `Index.Pattern.IsNamed` — the table and the column of a pattern are names, as they are for all
  patterns found;
* `Index.target?_recommendPostgres` — a recommendation is for the table and the column of its
  pattern;
* `Index.exists_isFor_iff` — the pairs of a table and a column that recommendations are for. -/

namespace CelWhere

variable {pattern : Pattern}

namespace Index

/-! ## Reading statements -/

/-- What stands behind an opening bracket, up to the end of a name. -/
def bracketed? : List Char → Option (List Char)
  | '(' :: text => some (text.takeWhile Lexer.isNameChar)
  | _ => none

/-- The table and the column of a statement that is given by its words. -/
def targetOfWords? : List (List Char) → Option (String × String)
  | create :: index :: _ :: on :: table :: rest =>
    if [create, index, on] = ["CREATE".toList, "INDEX".toList, "ON".toList] then
      (rest.findSome? bracketed?).map fun column => (String.ofList table, String.ofList column)
    else none
  | _ => none

/-- The table and the column that a statement makes an index on. -/
def target? (statement : String) : Option (String × String) :=
  targetOfWords? (statement.toList.splitOn ' ')

/-- A text has only the characters of names. -/
def IsName (text : String) : Prop := ∀ c ∈ text.toList, Lexer.isNameChar c

/-- A pattern has names for its table and its column. -/
structure Pattern.IsNamed (pattern : Pattern) : Prop where
  /-- The column is a name. -/
  column : IsName pattern.column
  /-- The table is a name. -/
  table : IsName pattern.tableHint

variable {text table column : String}

/-- Other characters are not in names. -/
theorem IsName.not_mem (isName : IsName text) {c : Char} (other : Lexer.isNameChar c = false) :
    c ∉ text.toList := by
  intro member
  have inside := isName c member
  simp [other] at inside

/-- The name behind a bracket is read up to its end. -/
theorem bracketed?_name (isName : IsName text) {rest : List Char}
    (ends : rest.head?.all (!Lexer.isNameChar ·)) :
    bracketed? ('(' :: (text.toList ++ rest)) = some text.toList := by
  have stops : rest.takeWhile Lexer.isNameChar = [] := by
    cases rest with
    | nil => rfl
    | cons first _ =>
      have stop : Lexer.isNameChar first = false := by simpa using ends
      simp [stop]
  rw [bracketed?, List.takeWhile_append_of_pos isName, stops, List.append_nil]

/-- The words of a statement: the name of the index, the table, how the index works, and the column,
with what stands behind it. -/
def statementWords (name : List Char) (table : String) (method : List (List Char)) (column : String)
    (ending : List Char) (tail : List (List Char)) : List (List Char) :=
  "CREATE".toList :: "INDEX".toList :: name :: "ON".toList :: table.toList ::
    (method ++ ('(' :: (column.toList ++ ending)) :: tail)

/-- A statement is read by its words. -/
theorem target?_of_words {statement : String} (name : List Char) (method : List (List Char))
    (ending : List Char) (tail : List (List Char))
    (spelled : statement.toList = [' '].intercalate
      (statementWords name table method column ending tail)) (isTable : IsName table)
    (isColumn : IsName column) (nameBlank : ' ' ∉ name) (endingBlank : ' ' ∉ ending)
    (tailBlank : ∀ word ∈ tail, ' ' ∉ word)
    (plain : ∀ word ∈ method, ' ' ∉ word ∧ bracketed? word = none)
    (ends : ending.head?.all (!Lexer.isNameChar ·)) : target? statement = some (table, column) := by
  have noBlank : ∀ word ∈ statementWords name table method column ending tail, ' ' ∉ word := by
    have tableBlank : ' ' ∉ table.toList := isTable.not_mem (by decide)
    have columnBlank : ' ' ∉ column.toList := isColumn.not_mem (by decide)
    simp only [statementWords, List.forall_mem_cons, List.forall_mem_append]
    have methodBlank : ∀ word ∈ method, ' ' ∉ word := fun word member => (plain word member).1
    refine ⟨by decide, by decide, nameBlank, by decide, tableBlank, methodBlank, ?_, tailBlank⟩
    simp [columnBlank, endingBlank]
  have skipped : method.findSome? bracketed? = none :=
    List.findSome?_eq_none_iff.mpr fun word member => (plain word member).2
  have found : (method ++ ('(' :: (column.toList ++ ending)) :: tail).findSome? bracketed? =
      some column.toList := by
    rw [List.findSome?_append, skipped, List.findSome?_cons, bracketed?_name isColumn ends]
    rfl
  rw [target?, spelled, List.splitOn_intercalate ' ' noBlank (by simp [statementWords]),
    statementWords, targetOfWords?, if_pos rfl, found]
  simp

/-- The name of the index for a pattern, with a mark for its kind. -/
def indexName (pattern : Pattern) (mark : String) : List Char :=
  "idx_".toList ++ (pattern.table.toList ++ '_' :: (pattern.column.toList ++ mark.toList))

/-- The table of a pattern is a name, also if none is seen. -/
theorem Pattern.IsNamed.isName_table (named : pattern.IsNamed) : IsName pattern.table := by
  rw [Pattern.table]
  split
  · exact List.all_eq_true.mp (by decide)
  · exact named.table

theorem Pattern.IsNamed.blank_not_mem_indexName (named : pattern.IsNamed) {mark : String}
    (markBlank : ' ' ∉ mark.toList) : ' ' ∉ indexName pattern mark := by
  have tableBlank : ' ' ∉ pattern.table.toList := named.isName_table.not_mem (by decide)
  have columnBlank : ' ' ∉ pattern.column.toList := named.column.not_mem (by decide)
  unfold indexName
  simp [tableBlank, columnBlank, markBlank]

/-- How an inverted index is asked for. -/
def ginMethod : List (List Char) := [['U', 'S', 'I', 'N', 'G'], ['G', 'I', 'N']]

theorem ginMethod_plain : ∀ word ∈ ginMethod, ' ' ∉ word ∧ bracketed? word = none := by
  simp [ginMethod, bracketed?]

/-- The statement for an inverted index that needs no operators. -/
theorem target?_ginStatement (named : pattern.IsNamed) :
    target? (ginStatement pattern "gin" "") = some (pattern.table, pattern.column) := by
  refine target?_of_words (indexName pattern "_gin") ginMethod [')']
    [] ?_ named.isName_table named.column
    (named.blank_not_mem_indexName (by decide)) (by simp) (by simp) ginMethod_plain (by decide)
  unfold ginStatement indexName
  simp [statementWords, ginMethod, List.intercalate]

/-- **What a recommendation is for.** A recommendation makes an index on the column of its pattern,
in its table. -/
theorem target?_recommendPostgres (named : pattern.IsNamed) :
    target? (recommendPostgres pattern).expression = some (pattern.table, pattern.column) := by
  cases use : pattern.type with
  | comparison =>
    simp only [recommendPostgres, use]
    refine target?_of_words (indexName pattern "") [] [')'] [] ?_ named.isName_table
      named.column (named.blank_not_mem_indexName (by decide)) (by decide) (by simp)
      (by simp) (by decide)
    unfold indexName
    simp [statementWords, List.intercalate]
  | regexMatch =>
    -- Here the operators follow the column, so the bracket closes in a word of its own.
    simp only [recommendPostgres, use]
    refine target?_of_words (indexName pattern "_trgm") ginMethod [] ["gin_trgm_ops)".toList] ?_
      named.isName_table named.column (named.blank_not_mem_indexName (by decide)) (by simp)
      (by simp) ginMethod_plain
      rfl
    unfold ginStatement indexName
    simp [statementWords, ginMethod, List.intercalate]
  | jsonAccess | arrayMembership | arrayComprehension | jsonArrayComprehension =>
    simp only [recommendPostgres, use]
    exact target?_ginStatement named

end Index

/-! ## Names in expressions -/

namespace Tree.Grammatical

variable {tree : Tree} {rule : Rule} {children : List Tree}

/-- The tokens of names in a node are names. -/
theorem isName_of_mem (grammatical : (Tree.node rule children).Grammatical) {leaf : Token}
    (member : .token leaf ∈ children) (isIdent : leaf.kind = .ident) : Index.IsName leaf.text := by
  obtain ⟨kind, text⟩ := leaf
  obtain rfl : kind = .ident := isIdent
  exact (grammatical.child member).name

variable (grammatical : tree.Grammatical)

include grammatical

theorem isName_naming? {naming : Naming} (named : tree.naming? = some naming) :
    Index.IsName naming.text := by
  fun_induction naming? tree with
  | case1 leaf | case2 leaf | case4 leaf | case5 leaf =>
    obtain rfl := Option.some.inj named
    refine grammatical.isName_of_mem (.head _) ?_
    simpa [Rule.Produces] using (grammatical_node.mp grammatical).1
  | case3 object leaf =>
    obtain rfl := Option.some.inj named
    have produced : object.label = .rule .member ∧ leaf.kind = .ident := by
      simpa [Rule.Produces] using (grammatical_node.mp grammatical).1
    exact grammatical.isName_of_mem (.tail _ (.head _)) produced.2
  | case6 rule child _ _ _ _ ih =>
    exact ih (grammatical.child (.head _)) named
  | case7 => simp at named

theorem isName_rootName {root : String} (named : tree.rootName = .ok (some root)) :
    Index.IsName root := by
  fun_induction rootName tree with
  | case1 leaf =>
    obtain ⟨kind, text⟩ := leaf
    by_cases isIdent : kind = .ident
    · subst isIdent
      obtain rfl := Option.some.inj (Except.ok.inj named)
      exact grammatical.name
    · simp [isIdent] at named
  | case2 child rest =>
    obtain ⟨text, only⟩ := grammatical.ident
    obtain ⟨rfl, rfl⟩ := List.cons.inj only
    obtain rfl := Option.some.inj (Except.ok.inj named)
    exact grammatical.isName_of_mem (.head _) rfl
  | case3 | case4 => cases named
  | case5 rule child rest _ ih =>
    exact ih (grammatical.child (.head _)) named
  | case6 rule => cases named

theorem isName_root? {root : String} (rooted : tree.root? = .ok (some root)) :
    Index.IsName root := by
  unfold root? at rooted
  cases found : tree.rootName with
  | error fault => simp [found, Except.map] at rooted
  | ok start =>
    rw [found] at rooted
    have kept : start.filter (· ≠ "") = some root := Except.ok.inj rooted
    exact grammatical.isName_rootName
      (found.trans (congrArg Except.ok (Option.filter_eq_some_iff.mp kept).1))

theorem isName_firstField {fallback field : String} (first : tree.firstField fallback = .ok field)
    (isName : Index.IsName fallback) : Index.IsName field := by
  have found : field = fallback ∨ Index.IsName field := by
    refine grammatical.firstField_induction first (motive := fun _ => Index.IsName field) ?_ ?_
    · intro object selection
      have member : .token ⟨.ident, field⟩ ∈ [object, .token ⟨.ident, field⟩] := by simp
      exact selection.isName_of_mem member rfl
    · intro rule child rest below
      exact below
  rcases found with rfl | isField
  · exact isName
  · exact isField

end Tree.Grammatical

namespace Index

variable {catalog : Catalog} {tree node : Tree} {pattern : Pattern}

/-- The uses of a node are of named columns in named tables. -/
theorem Uses.isNamed (uses : Uses catalog node pattern) (grammatical : node.Grammatical) :
    pattern.IsNamed := by
  cases uses with
  | @operand _ operand _ _ root asks named rooted =>
    have below : operand.Grammatical := asks.grammatical grammatical
    refine ⟨below.isName_naming? named, ?_⟩
    cases root with
    | none => simp [IsName]
    | some table => exact below.isName_root? rooted
  | @source object _ _ _ _ _ isMethod named rooted first =>
    have below : object.Grammatical := grammatical.child (.head _)
    exact ⟨below.isName_firstField first (below.isName_naming? named), below.isName_root? rooted⟩
  | @rootless object _ _ _ isMethod named rooted =>
    have below : object.Grammatical := grammatical.child (.head _)
    exact ⟨below.isName_naming? named, by simp [IsName]⟩
  | @json object field _ _ rooted first isJson =>
    have below : object.Grammatical := grammatical.child (.head _)
    have member : .token ⟨.ident, field⟩ ∈ [object, .token ⟨.ident, field⟩] := by simp
    have isField : IsName field := grammatical.isName_of_mem member rfl
    exact ⟨below.isName_firstField first isField, below.isName_root? rooted⟩

/-- All patterns that the walk finds are of named columns in named tables. -/
theorem isNamed_of_detected (grammatical : tree.Grammatical)
    (found : pattern ∈ detected catalog tree) :
    pattern.IsNamed := by
  induction tree with
  | token leaf => simp [detected, findings] at found
  | node rule children ih =>
    rcases (mem_detected_node grammatical).mp found with uses | ⟨-, child, isChild, below⟩
    · exact uses.isNamed grammatical
    · exact ih child isChild (grammatical.child isChild) below

/-! ## The tables of recommendations -/

/-- A recommendation makes an index on a column of a table. -/
def Recommendation.IsFor (table column : String) (recommendation : Recommendation) : Prop :=
  target? recommendation.expression = some (table, column)

/-- A column of a table gets a recommendation if a pattern of it wins. -/
theorem exists_isFor_iff (grammatical : tree.Grammatical) {kept : List Pattern}
    (winners : ∀ pattern, pattern ∈ kept ↔ Wins catalog tree pattern) (table column : String) :
    (∃ recommendation ∈ kept.map recommendPostgres, recommendation.IsFor table column) ↔
      ∃ winner, Wins catalog tree winner ∧ winner.table = table ∧ winner.column = column := by
  have read {winner : Pattern} (wins : Wins catalog tree winner) :
      target? (recommendPostgres winner).expression = some (winner.table, winner.column) :=
    target?_recommendPostgres (isNamed_of_detected grammatical wins.mem)
  constructor
  · rintro ⟨_, recommended, isFor⟩
    obtain ⟨winner, isKept, rfl⟩ := List.mem_map.mp recommended
    have wins := (winners winner).mp isKept
    obtain ⟨sameTable, sameColumn⟩ := Prod.mk.inj (Option.some.inj ((read wins).symm.trans isFor))
    exact ⟨winner, wins, sameTable, sameColumn⟩
  · rintro ⟨winner, wins, rfl, rfl⟩
    exact ⟨_, List.mem_map_of_mem ((winners winner).mpr wins), read wins⟩

/-- **Tables that are recommended.** A column of a table gets a recommendation if the winner of the
column is of that table. So all columns of tables that are found get one exactly if no column is
found in two tables. -/
theorem adviseTree_tables (catalog : Catalog) (expression : tree.IsExpression) :
    ∃ patterns recommendations, adviseTree postgresAdvisor catalog tree =
      .ok (patterns, recommendations) ∧
      (∀ table column, (∃ recommendation ∈ recommendations, recommendation.IsFor table column) ↔
        ∃ winner, Wins catalog tree winner ∧ winner.table = table ∧ winner.column = column) ∧
      ((∀ pattern ∈ detected catalog tree,
          ∃ recommendation ∈ recommendations, recommendation.IsFor pattern.table pattern.column) ↔
        ∀ one ∈ detected catalog tree, ∀ other ∈ detected catalog tree,
          one.column = other.column → one.table = other.table) := by
  obtain ⟨kept, advised, -, winners⟩ := adviseTree_postgres catalog expression.1
  have represented := exists_isFor_iff expression.1 winners
  refine ⟨kept, _, advised, represented, ?_⟩
  constructor
  · -- The recommendations for both are those for the one winner of the column.
    intro each one isOne other isOther same
    obtain ⟨winner, wins, winnerTable, winnerColumn⟩ := (represented _ _).mp (each one isOne)
    obtain ⟨rival, rivalWins, rivalTable, rivalColumn⟩ := (represented _ _).mp (each other isOther)
    obtain rfl : winner = rival :=
      wins.eq_of_key_eq rivalWins (by rw [winnerColumn, rivalColumn, same])
    rw [← winnerTable, ← rivalTable]
  · intro single pattern found
    obtain ⟨winner, wins, same⟩ := exists_wins found
    exact (represented _ _).mpr ⟨winner, wins, single winner wins.mem pattern found same, same⟩

/-- A column of two tables, of which the one that is matched against a pattern wins. -/
theorem adviseTree_tables_matched :
    let text := "a.x == 1 && b.x.matches(\"c\") && b.y in l"
    ∃ tree patterns recommendations, parse? text = some tree ∧ tree.IsExpression ∧
      adviseTree postgresAdvisor {} tree = .ok (patterns, recommendations) ∧
      recommendations.map (target? ·.expression) = [some ("b", "x"), some ("b", "y"),
        some ("l", "l")] ∧
      ∀ table column, (∃ recommendation ∈ recommendations, recommendation.IsFor table column) ↔
        ∃ winner, Wins {} tree winner ∧ winner.table = table ∧ winner.column = column := by
  intro text
  have targets : ∀ tree ∈ parse? text,
      (adviseTree postgresAdvisor {} tree).toOption.map
      (fun advice => advice.2.map (target? ·.expression)) =
        some [some ("b", "x"), some ("b", "y"), some ("l", "l")] := by
    decide +kernel
  have isText : (parse? text).isSome := by decide +kernel
  obtain ⟨tree, parsed⟩ := Option.isSome_iff_exists.mp isText
  have expression := parse?_isExpression parsed
  obtain ⟨patterns, recommendations, advised, winners, -⟩ := adviseTree_tables {} expression
  have found := targets tree parsed
  rw [advised] at found
  exact ⟨tree, patterns, recommendations, parsed, expression, advised,
    Option.some.inj found, winners⟩

/-- Two tables with a column of the same name, compared alike: one recommendation for the first of
them. -/
theorem table_without_recommendation :
    (∀ tree ∈ parse? "a.x == 1 && b.x == 2",
      detected {} tree = [⟨"x", .comparison, "a"⟩, ⟨"x", .comparison, "b"⟩]) ∧
    ({} : Settings).analyze "a.x == 1 && b.x == 2" = .ok ("a.x = 1 AND b.x = 2",
      [⟨"x", .btree, "CREATE INDEX idx_a_x ON a (x)",
        "BTree index for comparison operations on x"⟩]) ∧
    target? "CREATE INDEX idx_a_x ON a (x)" = some ("a", "x") := by
  refine ⟨?_, ?_, ?_⟩
  all_goals decide +kernel

end Index

end CelWhere
