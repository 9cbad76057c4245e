import CelWhere.Proofs.Allowance.Question
import CelWhere.Proofs.Chain
import CelWhere.Proofs.Lexical.Basic
import CelWhere.Proofs.Validation.Fragment

/-! # Validation asks for every chain

In expressions of operators, lists, literals, names and chains of selections no variable is bound,
and the conversion visits every chain, whatever special form its operator takes. So validation asks
for the table and the first field of each chain, and for nothing else.

* `Tree.SelectsFields` — the expressions;
* `Arrangement.validates`, `Convert.selection_validates` — the constructs that treat their operands
  in different ways;
* `Context.validates` — the fragment of an expression asks for its chains. -/

namespace CelWhere

variable {child : Tree → Fragment} {rule : Rule} {children : List Tree} (catalog : Catalog)
  (context : Context)

/-! ## Expressions of operators, lists and chains -/

namespace Tree

/-- Whether the root of a tree is an operator, a list, a literal, a name or a chain of
selections. -/
def selects : Tree → Bool
  | .token _ => true
  | .node rule children =>
    if rule = .memberDot then (Tree.node rule children).chain?.isSome
    else (Rule.operations ++ [Rule.relationIn, .listLit, .exprList]).contains rule

/-- A tree has nothing but operators, lists, literals, names and chains of selections. -/
def SelectsFields (tree : Tree) : Prop :=
  ∀ part ∈ tree.parts, part.selects

instance (tree : Tree) : Decidable tree.SelectsFields :=
  inferInstanceAs (Decidable (∀ part ∈ tree.parts, part.selects))

end Tree

namespace Convert

variable (name : String)

open Fragment (Validates)

/-- A literal asks for nothing. -/
theorem literalOf_validates (token : Token) : Validates [] (literalOf token) := by
  have reading : ∀ radix text, Validates []
      (.attempt (readInteger radix text) fun value => .literal (.int value)) := by
    intro radix text
    cases read : readInteger radix text with
    | ok value => exact ⟨by simp, by simp⟩
    | error fault => exact ⟨by simp, by simpa using readInteger_not_ofSchemas read⟩
  obtain ⟨kind, text⟩ := token
  cases kind with
  | null | bool | bytes => exact ⟨by simp [literalOf], by simp [literalOf]⟩
  | ident | other =>
    exact ⟨by simp [literalOf], by simp [literalOf, Fault.OfSchemas, Fault.faultClass]⟩
  | int =>
    exact reading .marked text
  | uint =>
    exact reading .marked (dropUnsignedMark text)
  | float =>
    simp only [literalOf]
    split
    · exact ⟨by simp, by simp⟩
    · exact ⟨by simp, by simp [Fault.OfSchemas, Fault.faultClass]⟩
  | string | multiline =>
    simp only [literalOf, withoutNull, nullByteFault?]
    split
    next fault found =>
      split at found
      · obtain rfl := Option.some.inj found
        exact ⟨by simp, by simp [Fault.OfSchemas, Fault.faultClass]⟩
      · simp at found
    · exact ⟨by simp, by simp⟩

/-- A name asks for nothing. -/
theorem reference_validates : Validates [] (reference name) := by
  rw [reference]
  cases found : columnNameFault? name with
  | none => exact ⟨by simp, by simp⟩
  | some fault => exact ⟨by simp, by simpa using NameRules.not_ofSchemas found⟩

/-- The name of a field asks for nothing by itself. -/
theorem fieldName_validates : Validates [] (fieldName name) := by
  rw [fieldName]
  cases found : columnNameFault? name with
  | none => exact ⟨by simp, by simp⟩
  | some fault => exact ⟨by simp, by simpa using NameRules.not_ofSchemas found⟩

/-- Expressions in a row ask for what each of them asks for. -/
theorem expressions_validates {items : List Tree}
    (each : ∀ item ∈ items, Validates item.chains (child item)) :
    Validates (items.flatMap Tree.chains) (expressions child items) := by
  rw [expressions]
  induction items with
  | nil => exact ⟨by simp [Fragment.join], by simp [Fragment.join]⟩
  | cons item rest ih =>
    have head := each item (.head _)
    have tail := ih fun other member => each other (.tail _ member)
    cases rest with
    | nil =>
      exact ⟨by simp [Fragment.join, head.asked], by simpa [Fragment.join] using head.unscoped⟩
    | cons next more =>
      rw [List.map_cons, List.map_cons, Fragment.join]
      · rw [List.map_cons] at tail
        refine ⟨fun reference => ?_, by simp [head.unscoped, tail.unscoped]⟩
        have behind := tail.asked reference
        simp only [Fragment.references_append, Fragment.references_text, List.append_nil,
          List.mem_append, head.asked, behind, List.flatMap_cons]
      · simp

/-- The selection of a field of a chain asks for the table and the first field, besides what the
object asks for. -/
theorem selection_validates {context : Context} {object : Tree} {field : Token} {root : String}
    {fields : List String} (grammatical : object.Grammatical)
    (found : object.chain? = some (root, fields))
    (visited : Validates object.chains (context.fragment object)) :
    Validates (Tree.node .memberDot [object, .token field]).chains
      (selection context context.child [object, .token field]) := by
  have whole : (Tree.node .memberDot [object, .token field]).chain? =
      some (root, fields ++ [field.text]) := by
    simp [Tree.chain?, found]
  have head : (fields ++ [field.text]).head? = some (fields.headD field.text) := by
    cases fields <;> rfl
  have own : (Tree.node .memberDot [object, .token field]).reference? =
      some (root, fields.headD field.text) := by
    simp [Tree.reference?, whole, head]
  -- All chains in the object have the same reference as the whole.
  have asked : ∀ reference, reference ∈ (Tree.node .memberDot [object, .token field]).chains ↔
      reference = (root, fields.headD field.text) := by
    intro reference
    constructor
    · intro member
      obtain ⟨sameRoot, sameField⟩ := Tree.chains_of_chain? whole member
      rw [head, Option.some.injEq] at sameField
      rw [sameRoot, sameField]
    · rintro rfl
      exact Tree.mem_chains_of_reference? own
  have fieldAsks := fieldName_validates field.text
  rw [selection, grammatical.root?_of_chain? found]
  simp only [Fragment.attempt_ok, Tree.nameText_token, Tree.firstField_of_chain? found]
  split
  next isJson =>
    -- The path is written from its root, and the object is not visited.
    obtain ⟨name, -, path⟩ := Tree.fieldPath_of_chain? whole
    have nameAsks : Validates [] (.nested (context.fragment (.node .ident [.token name]))) := by
      rw [Fragment.Validates.nested_iff, context.fragment_eq]
      exact reference_validates name.text
    have pathAsks : Validates [] (jsonPath context context.child
        [object, .token field]) := by
      rw [jsonPath, path]
      simp only [Fragment.attempt_ok]
      split
      · exact nameAsks
      next column rest _ =>
        refine Validates.jsonSteps context rest ⟨?_, ?_⟩
        · simpa using nameAsks.asked
        · simpa using nameAsks.unscoped
    refine ⟨fun reference => ?_, by simp [pathAsks.unscoped]⟩
    rw [asked]
    simp [pathAsks.asked]
  next noJson =>
    refine ⟨fun reference => ?_, by simp [visited.unscoped, fieldAsks.unscoped]⟩
    rw [asked]
    simp only [Fragment.references_append, Fragment.references_known, Fragment.references_nested,
      Fragment.references_text, List.append_nil, List.mem_append, List.mem_singleton, visited.asked,
      fieldAsks.asked, List.not_mem_nil, or_false]
    refine or_iff_left_of_imp fun member => ?_
    rw [← asked, Tree.mem_chains_node]
    exact .inr ⟨object, .head _, member⟩

end Convert

/-! ## Conversion of expressions -/

open Fragment (Validates)

/-- A fragment asks for the chains of a node if it asks for those of its children. -/
theorem Fragment.Validates.ofChildren {fragment : Fragment}
    (validates : Validates (children.flatMap Tree.chains) fragment) (other : rule ≠ .memberDot) :
    Validates (Tree.node rule children).chains fragment := by
  refine ⟨fun reference => ?_, validates.unscoped⟩
  rw [validates.asked, Tree.mem_chains_of_ne other, List.mem_flatMap]

/-- Two operands ask for what both ask for, in whichever way they are written. -/
theorem Pairing.validates (pairing : Pairing) (dialect : Dialect) {left right : Fragment}
    {one two : List (String × String)} (first : Validates one left) (second : Validates two right) :
    Validates (one ++ two) (pairing.fragment dialect left right) := by
  have leftCast := first.castToNumeric dialect
  have rightCast := second.castToNumeric dialect
  cases pairing with
  | sign =>
    exact ⟨by simp [fragment, first.asked, second.asked], by simp [fragment, first.unscoped,
      second.unscoped]⟩
  | castLeft =>
    exact ⟨by simp [fragment, leftCast.asked, second.asked], by simp [fragment, leftCast.unscoped,
      second.unscoped]⟩
  | castRight =>
    exact ⟨by simp [fragment, first.asked, rightCast.asked], by simp [fragment, first.unscoped,
      rightCast.unscoped]⟩
  | remainder =>
    exact ⟨by simp [fragment, first.asked, second.asked], by simp [fragment, first.unscoped,
      second.unscoped]⟩
  | membership => exact first.membership dialect second
  | concat => exact first.concat dialect second
  | shift => exact first.timestampArithmetic dialect _ second
  | swapped =>
    have arithmetic := second.timestampArithmetic dialect "+" first
    refine ⟨fun reference => ?_, arithmetic.unscoped⟩
    rw [fragment, arithmetic.asked, List.mem_append, List.mem_append, or_comm]

/-- An arrangement asks for what its operands ask for. -/
theorem Arrangement.validates {arrangement : Arrangement} (dialect : Dialect)
    (each : ∀ operand ∈ arrangement.operands, Validates operand.chains (child operand)) :
    Validates (arrangement.operands.flatMap Tree.chains) (arrangement.fragment dialect child) := by
  cases arrangement with
  | only operand =>
    have one := each operand (.head _)
    exact ⟨by simp [fragment, operands, one.asked], by simp [fragment, one.unscoped]⟩
  | not operand | minus operand | tested operand =>
    have one := each operand (.head _)
    exact ⟨by simp [fragment, operands, one.asked], by simp [fragment, one.unscoped]⟩
  | choice condition positive negative =>
    have one := each condition (by simp [operands])
    have two := each positive (by simp [operands])
    have three := each negative (by simp [operands])
    exact ⟨by simp [fragment, operands, one.asked, two.asked, three.asked],
      by simp [fragment, one.unscoped, two.unscoped, three.unscoped]⟩
  | pair pairing left right =>
    have both :=
      pairing.validates dialect (each left (by simp [operands])) (each right (by simp [operands]))
    simpa [operands, fragment] using both

/-- In trees of the grammar it is known how two operands are written. -/
theorem Tree.Grammatical.exists_pairing {operator : Rule} {left right : Tree}
    (isOperator : operator ∈ rule.operators) (leftGrammatical : left.Grammatical)
    (rightGrammatical : right.Grammatical) :
    ∃ pairing, Arrangement.pairing catalog rule operator left right = .ok pairing := by
  have shape := Tree.shaped_grammatical
  have signed (comparator : Comparator) :
      ∃ pairing, Arrangement.ofSign catalog comparator left right = .ok pairing := by
    have answers {tree : Tree} (grammatical : tree.Grammatical) : ∃ isJson,
        catalog.isJsonText tree = .ok isJson :=
      exists_ok (shape.isJsonText grammatical)
    obtain ⟨leftJson, isLeft⟩ := answers leftGrammatical
    obtain ⟨rightJson, isRight⟩ := answers rightGrammatical
    simp only [Arrangement.ofSign, isLeft, isRight, bind, Except.bind, Except.map]
    split <;> exact ⟨_, rfl⟩
  obtain ⟨temporal, isTemporal⟩ := exists_ok (shape.eitherTemporal leftGrammatical rightGrammatical)
  obtain ⟨swapped, isSwapped⟩ := exists_ok (shape.durationFirst leftGrammatical rightGrammatical)
  cases rule with
  | relation =>
    simp only [Rule.operators, Rule.comparisons, List.mem_cons, List.not_mem_nil,
      or_false] at isOperator
    rcases isOperator with rfl | rfl | rfl | rfl | rfl | rfl | rfl
    case inr.inr.inr.inr.inr.inr => exact ⟨_, rfl⟩
    all_goals exact signed _
  | addition =>
    simp only [Rule.operators, List.mem_cons, List.not_mem_nil, or_false] at isOperator
    rcases isOperator with rfl | rfl
    · simp only [Arrangement.pairing, Arrangement.ofSum, isTemporal, isSwapped, bind,
        Except.bind, Except.map]
      split <;> exact ⟨_, rfl⟩
    · exact ⟨_, by rw [Arrangement.pairing, isTemporal, Except.map]⟩
  | multiplication =>
    simp only [Rule.operators, Rule.products, List.mem_cons, List.not_mem_nil,
      or_false] at isOperator
    rcases isOperator with rfl | rfl | rfl <;> exact ⟨_, rfl⟩
  | _ => simp [Rule.operators] at isOperator

/-- So it is known how operands are arranged. -/
theorem Tree.Grammatical.exists_arrangement (grammatical : (Tree.node rule children).Grammatical)
    (isArranged : rule.isArranged) :
    ∃ arrangement, Arrangement.of catalog rule children = .ok arrangement := by
  cases grammatical.arranged isArranged with
  | only => exact ⟨_, Arrangement.of_single ..⟩
  | choice | or | and | not | minus => exact ⟨_, rfl⟩
  | @operator _ operator left right isOperator leftOf rightOf =>
    obtain ⟨pairing, chosen⟩ := exists_pairing catalog isOperator leftOf.1 rightOf.1
    rw [Arranged.of_operator isOperator, Arrangement.ofOperator, chosen]
    split <;> exact ⟨_, rfl⟩

/-- Operators ask for what their operands ask for. -/
theorem Context.validates_arranged (isArranged : rule.isArranged)
    (grammatical : (Tree.node rule children).Grammatical)
    (below : ∀ part ∈ Tree.partsOf children, Validates part.chains (context.fragment part)) :
    Validates (Tree.node rule children).chains (context.fragment (.node rule children)) := by
  obtain ⟨arrangement, found⟩ := grammatical.exists_arrangement context.catalog isArranged
  have written := arrangement.validates context.dialect fun operand member =>
    Fragment.Validates.nested_iff.mpr (below operand (Arrangement.mem_partsOf found member))
  rw [context.fragment_eq, Convert.step_arranged isArranged, found]
  refine ⟨fun reference => ?_, written.unscoped⟩
  rw [Fragment.attempt_ok, written.asked, List.mem_flatMap]
  refine ((grammatical.arranged isArranged).exists_operand (fun rule children passes => ?_)
    (fun tree token grammatical literal => ?_) isArranged found).symm
  · refine Tree.mem_chains_of_ne ?_
    rintro rfl
    simp [Rule.isArranged, Rule.isLevel] at passes
  · simp [grammatical.chains_of_literal? literal]

/-- **Every chain is asked for.** The fragment of an expression of operators, lists, literals, names
and chains asks for the tables and first fields of its chains, and for nothing else. -/
theorem Context.validates {tree : Tree} (grammatical : tree.Grammatical)
    (selects : tree.SelectsFields) :
    Validates tree.chains (context.fragment tree) := by
  induction tree using Tree.inductionOnParts with
  | token leaf =>
    exact ⟨by simp [context.fragment_eq, Convert.step], by simp [context.fragment_eq, Convert.step]⟩
  | node rule children ih =>
    obtain ⟨produced, below⟩ := Tree.grammatical_node.mp grammatical
    have parts : ∀ part ∈ Tree.partsOf children, Validates part.chains (context.fragment part) := by
      intro part isPart
      have inside : part ∈ (Tree.node rule children).parts := .tail _ isPart
      exact ih part isPart (Tree.Hereditary.parts.of_mem_parts grammatical inside)
        (Tree.Hereditary.parts.of_mem_parts selects inside)
    have each : ∀ child ∈ children, Validates child.chains (context.fragment child) :=
      fun child member =>
      parts child (Tree.mem_partsOf.mpr ⟨child, member, child.self_mem_parts⟩)
    have root : (Tree.node rule children).selects := selects _ (Tree.self_mem_parts _)
    by_cases isArranged : rule.isArranged
    · exact context.validates_arranged isArranged grammatical parts
    cases rule with
    | unaryNot | unaryNeg =>
      obtain rfl : children = [] := List.map_eq_nil_iff.mp produced
      rw [context.fragment_eq]
      exact .ofChildren ⟨by simp [Convert.step], by simp [Convert.step]⟩ (by decide)
    | parenExpr =>
      obtain ⟨inner, rfl, -⟩ := Tree.map_label_one.mp produced
      have one := each inner (by simp)
      rw [context.fragment_eq]
      exact .ofChildren ⟨by simp [Convert.step, Convert.parenthesised, one.asked],
        by simp [Convert.step, Convert.parenthesised, one.unscoped]⟩ (by decide)
    | ident =>
      obtain ⟨text, rfl⟩ := grammatical.ident
      have named := Convert.reference_validates text
      rw [context.fragment_eq]
      exact .ofChildren (by simpa [Convert.step, Convert.name] using named) (by decide)
    | literal =>
      obtain ⟨kind, -, labels⟩ := produced
      obtain ⟨leaf, rfl, label⟩ := Tree.map_label_one.mp labels
      obtain ⟨text, rfl⟩ := Tree.label_eq_token.mp label
      have written := Convert.literalOf_validates ⟨kind, text⟩
      rw [context.fragment_eq]
      exact .ofChildren (by simpa [Convert.step, Convert.literal] using written) (by decide)
    | exprList =>
      rw [context.fragment_eq]
      refine .ofChildren (Convert.expressions_validates fun item member => ?_) (by decide)
      exact Fragment.Validates.nested_iff.mpr (each item member)
    | listLit =>
      rcases produced with none | some
      · obtain rfl : children = [] := List.map_eq_nil_iff.mp none
        rw [context.fragment_eq]
        exact .ofChildren ⟨by simp [Convert.step, Convert.listOf], by simp [Convert.step,
          Convert.listOf]⟩ (by decide)
      · obtain ⟨list, rfl, label⟩ := Tree.map_label_one.mp some
        obtain ⟨items, rfl⟩ := Tree.label_eq_rule.mp label
        have one := each (.node .exprList items) (by simp)
        rw [context.fragment_eq] at one ⊢
        refine .ofChildren ⟨fun reference => ?_, ?_⟩ (by decide)
        · simpa [Convert.step, Convert.listOf] using one.asked reference
        · simpa [Convert.step, Convert.listOf] using one.unscoped
    | memberDot =>
      obtain ⟨object, text, rfl, -⟩ := grammatical.memberDot
      have isChain : (Tree.node .memberDot [object, .token ⟨.ident, text⟩]).chain?.isSome := root
      rw [Tree.chain?, Option.isSome_map] at isChain
      obtain ⟨⟨start, fields⟩, found⟩ := Option.isSome_iff_exists.mp isChain
      rw [context.fragment_eq]
      exact Convert.selection_validates (below object (by simp)) found (each object (by simp))
    -- The other rules are not in the language.
    | memberDotArg | memberIndex | memberObject | dotIdentArg | dotIdent | identArg | mapLit
    | fieldInits | mapInits
    | other => exact absurd root (by simp [Tree.selects, Rule.operations])
    | _ => exact absurd rfl isArranged

/-! ## Validated conversions -/

namespace Settings

/-- **Validation is sound and complete for chains.** Take an expression of operators, lists,
literals, names and chains, and schemas that are not empty. If it is converted with validation, the
schemas have the table and the first field of each of its chains. If they have them, validation
changes nothing, and the conversion does not fail for the schemas. -/
theorem convertTree_validates (settings : Settings) {tree : Tree} (expression : tree.IsExpression)
    (selects : tree.SelectsFields) (schemas : settings.catalog ≠ []) :
    let checked := (settings.withValidation true).convertTree tree
    let free := (settings.withValidation false).convertTree tree
    ((∃ condition, checked = .ok condition) → ∀ reference ∈ tree.chains,
      settings.catalog.Has reference) ∧
    ((∀ reference ∈ tree.chains, settings.catalog.Has reference) →
      checked = free ∧ ∀ fault, checked = .error fault →
      fault.faultClass ≠ .refused .invalidSchema) := by
  intro checked free
  have validates := settings.context.validates expression.1 selects
  obtain ⟨has, lacks⟩ : ((settings.withValidation true).visit .fresh tree).Tells settings.catalog
      (settings.context.fragment tree).references :=
    Fragment.Unscoped.run validates.unscoped rfl rfl
  have noSchemaFault : (∀ reference ∈ tree.chains, settings.catalog.Has reference) →
      ∀ fault, checked = .error fault → fault.faultClass ≠ .refused .invalidSchema := by
    intro known fault failed ofSchemas
    rcases convertTree_eq_error.mp failed with unset | ⟨-, ended⟩
    · simp [fault?, withValidation, schemas] at unset
    · obtain ⟨reference, asked, lacking⟩ := lacks fault ended ofSchemas
      exact lacking (known reference ((validates.asked reference).mp asked))
  constructor
  · rintro ⟨condition, converted⟩ reference member
    obtain ⟨-, succeeds, -⟩ := convertTree_eq_ok.mp converted
    exact has succeeds reference ((validates.asked reference).mpr member)
  · intro known
    refine ⟨?_, noSchemaFault known⟩
    rcases convertTree_withValidation tree schemas with same | ⟨fault, refused, ofSchemas, -⟩
    · exact same
    · exact absurd ofSchemas (noSchemaFault known fault refused)

/-- Chains on both sides of a comparison with a cast, in a list, behind a sign and in a test for
null. -/
theorem convertTree_validates_choice :
    let text := "t.a.b == 1 && u.c in [t.a.d, x] ? -u.c.e : null == u.c"
    let settings : Settings :=
      { dialect := .mysql
        catalog := [("t", ⟨[{ name := "a", isJson := true }]⟩), ("u", ⟨[{ name := "c" }]⟩)] }
    ∃ tree condition, parse? text = some tree ∧ tree.IsExpression ∧ tree.SelectsFields ∧
      settings.catalog ≠ [] ∧
      (settings.withValidation true).convertTree tree = .ok condition ∧
      condition.sql = "CASE WHEN (t.a->>'$.b') + 0 = 1 AND " ++
        "JSON_CONTAINS(JSON_ARRAY(t.a->>'$.d', x), JSON_EXTRACT(JSON_ARRAY(u.c), '$[0]')) " ++
        "THEN -u.c.e ELSE u.c IS NULL END" ∧
      ("t", "a") ∈ tree.chains ∧ ("u", "c") ∈ tree.chains ∧
      (∀ reference ∈ tree.chains, settings.catalog.Has reference) ∧
      (settings.withValidation false).convertTree tree = .ok condition := by
  intro text settings
  have converted : ((settings.withValidation true).convert text).toOption =
      some ("CASE WHEN (t.a->>'$.b') + 0 = 1 AND " ++
        "JSON_CONTAINS(JSON_ARRAY(t.a->>'$.d', x), JSON_EXTRACT(JSON_ARRAY(u.c), '$[0]')) " ++
        "THEN -u.c.e ELSE u.c IS NULL END") := by
    decide +kernel
  have inLanguage : ∀ tree ∈ parse? text, tree.SelectsFields ∧ ("t", "a") ∈ tree.chains ∧
      ("u", "c") ∈ tree.chains := by
    decide +kernel
  obtain ⟨tree, condition, parsed, treeConverted, sql⟩ := convert_toOption converted
  obtain ⟨selects, first, second⟩ := inLanguage tree parsed
  have expression := parse?_isExpression parsed
  have schemas : settings.catalog ≠ [] := by simp [settings]
  obtain ⟨sound, complete⟩ := convertTree_validates settings expression selects schemas
  have known := sound ⟨condition, treeConverted⟩
  exact ⟨tree, condition, parsed, expression, selects, schemas, treeConverted, sql, first,
    second, known, (complete known).1.symm.trans treeConverted⟩

end Settings

end CelWhere
