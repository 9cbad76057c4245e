import CelWhere.Proofs.Alignment
import CelWhere.Proofs.Construct.Basic
import CelWhere.Proofs.Reader

/-! # The conditions that expressions are converted to

* `Settings.convertTree_leads` — the text of a condition is read like that of the blanked tree, and
  leaves nothing open. So its quotes and brackets match, and the contents of strings do not change
  its skeleton. -/

namespace CelWhere

open Lexical

/-- The text that an expression is converted to is that of the condition of its tree. -/
theorem Settings.convert_toOption {settings : Settings} {expression sql : String}
    (converted : (settings.convert expression).toOption = some sql) :
    ∃ tree condition, parse? expression = some tree ∧
      ({ settings with mode := .inline } : Settings).convertTree tree = .ok condition ∧
      condition.sql = sql := by
  unfold convert convertIn withTree at converted
  cases parsed : parse? expression with
  | none => simp [parsed, Except.map, Except.toOption] at converted
  | some tree =>
    cases result : ({ settings with mode := .inline } : Settings).convertTree tree with
    | error fault => simp [parsed, result, Except.map, Except.toOption] at converted
    | ok condition =>
      refine ⟨tree, condition, rfl, result, ?_⟩
      simpa [parsed, result, Except.map, Except.toOption] using converted

/-- A condition with its literals written out is the text of the fragment of its tree. -/
theorem Settings.inlined?_of_convertTree {settings : Settings} {tree : Tree} {condition : Condition}
    (inline : settings.mode = .inline) (converted : settings.convertTree tree = .ok condition) :
    (settings.context.fragment tree).inlined? settings.dialect = some condition.sql.toList := by
  obtain ⟨-, succeeds, written, -⟩ := convertTree_eq_ok.mp converted
  obtain ⟨text, inlined, wrote⟩ := Fragment.run_inlined inline _ succeeds
  have sql : condition.sql = String.ofList text := by
    rw [← written]
    exact wrote.trans String.empty_append
  rw [inlined, sql, String.toList_ofList]

/-- The text of a condition is read like that of the blanked tree, and leaves nothing open. -/
theorem Settings.convertTree_leads {settings : Settings} {tree : Tree} {condition : Condition}
    (standard : settings.dialect ∈ Dialect.standard) (expression : tree.IsExpression)
    (units : tree.UnitsNamed)
    (converted : ({ settings with mode := .inline } : Settings).convertTree tree = .ok condition) :
    ∃ other, (settings.context.fragment tree.blanked).inlined? settings.dialect = some other ∧
      TextLeads .clear [] condition.sql.toList other .behind [] := by
  have sound := Surface.Source.sound ⟨settings.context, tree, expression.1⟩ expression.2
  have inlined := inlined?_of_convertTree rfl converted
  exact sound.closed ⟨standard, units⟩ _ inlined

/-- **Conditions are lexically well formed.** Where an expression is converted with its literals
written out, reading the condition ends outside of quoted regions, and the brackets outside of them
are nested and matched. -/
theorem Settings.convertTree_wellFormed (settings : Settings) (tree : Tree) {condition : Condition}
    (standard : settings.dialect ∈ Dialect.standard) (expression : tree.IsExpression)
    (units : tree.UnitsNamed)
    (converted : ({ settings with mode := .inline } : Settings).convertTree tree = .ok condition) :
    EndsOutside condition.sql ∧ BracketsMatch condition.sql := by
  obtain ⟨other, -, leads⟩ := convertTree_leads standard expression units converted
  -- A text starts outside of quoted regions.
  obtain ⟨after, -, -, matched⟩ := leads .outside rfl
  constructor
  · rw [EndsOutside, readFrom_eq]
    rcases after with outside | closing
    · exact decide_eq_false (by simp [Place.start, outside])
    · exact decide_eq_false (by simp [Place.start, closing])
  · rw [BracketsMatch, skeleton, readFrom_eq]
    exact matched

/-- A quote and a bracket inside a pattern, a subquery, an interval and an index. -/
theorem Settings.convertTree_wellFormed_exists :
    ∃ tree condition,
      parse? "names.exists(n, n.endsWith(\"it's )\")) && made + interval(3, day) < ends[0]" =
      some tree ∧
      tree.IsExpression ∧ tree.UnitsNamed ∧
      ({ dialect := .duckdb } : Settings).convertTree tree = .ok condition ∧
      condition.sql =
      "EXISTS (SELECT 1 FROM UNNEST(names) AS n WHERE n LIKE '%it''s )' ESCAPE '\\') AND " ++
        "made + INTERVAL 3 day < ends[1]" ∧
      EndsOutside condition.sql ∧ BracketsMatch condition.sql := by
  -- Trees of this size are large to write down, so the text is read and converted.
  have converted : (({ dialect := .duckdb } : Settings).convert
      "names.exists(n, n.endsWith(\"it's )\")) && made + interval(3, day) < ends[0]").toOption =
        some ("EXISTS (SELECT 1 FROM UNNEST(names) AS n WHERE n LIKE '%it''s )' ESCAPE '\\') AND "
          ++ "made + INTERVAL 3 day < ends[1]") := by
    decide +kernel
  have named :
      ∀ tree ∈
        parse? "names.exists(n, n.endsWith(\"it's )\")) && made + interval(3, day) < ends[0]",
      tree.UnitsNamed := by
    decide +kernel
  obtain ⟨tree, condition, parsed, treeConverted, sql⟩ := convert_toOption converted
  have expression := parse?_isExpression parsed
  have units := named tree parsed
  exact ⟨tree, condition, parsed, expression, units, treeConverted, sql,
    convertTree_wellFormed { dialect := .duckdb } tree (by decide) expression units treeConverted⟩

/-- **The contents of strings do not change the structure of conditions.** Where two expressions
differ in the contents of strings only, and both are converted with their literals written out, the
conditions have the same skeleton. -/
theorem Settings.convertTree_skeleton (settings : Settings) (first second : Tree)
    {one two : Condition} (standard : settings.dialect ∈ Dialect.standard)
    (firstExpression : first.IsExpression) (firstUnits : first.UnitsNamed)
    (secondExpression : second.IsExpression) (secondUnits : second.UnitsNamed)
    (same : first.SameUpToStrings second)
    (firstConverted : ({ settings with mode := .inline } : Settings).convertTree first = .ok one)
    (secondConverted : ({ settings with mode := .inline } : Settings).convertTree second =
      .ok two) :
    skeleton one.sql = skeleton two.sql := by
  obtain ⟨firstOther, firstFound, firstLeads⟩ :=
    convertTree_leads standard firstExpression firstUnits firstConverted
  obtain ⟨secondOther, secondFound, secondLeads⟩ :=
    convertTree_leads standard secondExpression secondUnits secondConverted
  obtain rfl : firstOther = secondOther := by
    rw [same, secondFound] at firstFound
    exact (Option.some.inj firstFound).symm
  -- Both texts have the marks of the text of the blanked tree.
  have firstMarks := (firstLeads .outside rfl).2.2.1
  have secondMarks := (secondLeads .outside rfl).2.2.1
  rw [skeleton, skeleton, readFrom_eq, readFrom_eq]
  exact firstMarks.symm.trans secondMarks

/-- Quotes, brackets and the mark of a comment in the pattern of a test. -/
theorem Settings.convertTree_skeleton_startsWith :
    let levels (inner : Tree) : Tree :=
      .node .expr [.node .conditionalOr [.node .conditionalAnd [.node .relation [.node .addition
        [.node .multiplication [.node .unary [.node .member [inner]]]]]]]]
    let test (text : String) : Tree :=
      levels (.node .memberDotArg
        [.node .member [.node .primary [.node .ident [.token ⟨.ident, "name"⟩]]],
        .token ⟨.ident, "startsWith"⟩,
        .node .exprList [levels (.node .primary [.node .literal [.token ⟨.string, text⟩]])]])
    let first := test "\"it's (\""
    let second := test "\"') OR 1=1 --\""
    first.IsExpression ∧ first.UnitsNamed ∧ second.IsExpression ∧ second.UnitsNamed ∧
      first.SameUpToStrings second ∧
      ({} : Settings).convertTree first = .ok ⟨"name LIKE 'it''s (%' ESCAPE E'\\\\'", #[]⟩ ∧
      ({} : Settings).convertTree second = .ok ⟨"name LIKE ''') OR 1=1 --%' ESCAPE E'\\\\'", #[]⟩ ∧
      skeleton "name LIKE 'it''s (%' ESCAPE E'\\\\'" =
      skeleton "name LIKE ''') OR 1=1 --%' ESCAPE E'\\\\'" := by
  intro levels test first second
  have expression : ∀ {text : String}, text ≠ "" → (test text).IsExpression := by
    intro text notEmpty
    refine ⟨?_, rfl⟩
    simp [test, levels, Rule.Produces, Rule.members, Rule.primaries, TokenKind.literals,
      Token.WellFormed, notEmpty]
    decide
  have units : ∀ text, (test text).UnitsNamed := by
    intro text
    simp [test, levels, Tree.UnitsNamed, Tree.parts, Tree.partsOf, Tree.intervalUnit?]
  have same : first.SameUpToStrings second := by rfl
  have firstConverted : ({ mode := .inline } : Settings).convertTree first =
    .ok ⟨"name LIKE 'it''s (%' ESCAPE E'\\\\'", #[]⟩ := by rfl
  have secondConverted : ({ mode := .inline } : Settings).convertTree second =
    .ok ⟨"name LIKE ''') OR 1=1 --%' ESCAPE E'\\\\'", #[]⟩ := by rfl
  have firstExpression : first.IsExpression := expression (by decide)
  have secondExpression : second.IsExpression := expression (by decide)
  have alike := convertTree_skeleton {} first second (by decide) firstExpression
    (units _) secondExpression (units _)
    same firstConverted secondConverted
  exact ⟨firstExpression, units _, secondExpression, units _, same, firstConverted,
    secondConverted, alike⟩

end CelWhere
