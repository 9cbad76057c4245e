import CelWhere.Proofs.Allowance.Question
import CelWhere.Proofs.Chain
import CelWhere.Proofs.Grouping.Basic
import CelWhere.Proofs.Provenance

/-! # Expressions that all dialects write alike

Dialects differ in how they write strings, lists, times, JSON values and casts. An expression
without any of these is converted to the same fragment for every dialect, and the fragment runs
alike for all of them.

* `Tree.Neutral` — operators, numbers, truth values, null, names that stand for no times, chains
  that go through no JSON field, calls without special handling, and the methods of strings that
  dialects share;
* `Tree.Neutral.isTemporal`, `containsString`, `isList`, `isJsonText` — no special form of an
  operator applies to them;
* `Context.fragment_neutral` — the fragment of such a tree does not depend on the dialect;
* `Fragment.run_inDialect` — nor does a run of it. -/

namespace CelWhere

variable {catalog : Catalog} {tree : Tree}

/-! ## Neutral trees -/

namespace Tree

/-- The kinds of names and of literals that are no strings. -/
def neutralKinds : List TokenKind := [.ident, .int, .uint, .float, .bool, .null]

/-- The functions with a handling of their own. -/
def handledFunctions : List String :=
  ["has", "size", "matches", "bool", "bytes", "double", "int", "uint", "string"] ++
    temporalFunctions

/-- The methods of strings that all dialects write alike. -/
def neutralMethods : List String :=
  ["lowerAscii", "upperAscii", "trim", "reverse", "charAt", "indexOf", "lastIndexOf",
    "substring", "replace"]

/-- Whether the root of a tree is one that no dialect writes in a way of its own. -/
def isNeutral (catalog : Catalog) : Tree → Bool
  | .token leaf => neutralKinds.contains leaf.kind
  | .node .ident [name] => !temporalNames.contains name.nameText
  | .node .memberDot children =>
    (Tree.node .memberDot children).reference?.any fun (table, field) => !catalog.isJson table field
  | .node .identArg (name :: _) => !handledFunctions.contains name.nameText
  | .node .memberDotArg (_ :: method :: _) => neutralMethods.contains method.nameText
  | .node rule _ => (Rule.operations ++ [Rule.exprList]).contains rule

/-- A tree of the grammar in which no dialect writes anything in a way of its own. -/
structure Neutral (catalog : Catalog) (tree : Tree) : Prop where
  /-- The tree follows the grammar. -/
  grammatical : tree.Grammatical
  /-- Each of its parts is neutral at its root. -/
  each : ∀ part ∈ tree.parts, part.isNeutral catalog

namespace Neutral

variable {catalog : Catalog} {tree : Tree} {rule : Rule} {children : List Tree}

theorem root (neutral : tree.Neutral catalog) : tree.isNeutral catalog :=
  neutral.each tree tree.self_mem_parts

/-- The children of neutral trees are neutral. -/
theorem hereditary (catalog : Catalog) : Hereditary (Neutral catalog) := by
  intro rule children neutral child member
  exact ⟨Hereditary.parts rule children neutral.grammatical child member,
    Hereditary.parts rule children neutral.each child member⟩

/-- A neutral name stands for no time. -/
theorem not_mem_temporalNames {text : String}
    (neutral : (Tree.node .ident [.token ⟨.ident, text⟩]).Neutral catalog) :
    text ∉ temporalNames := by
  have root : (!temporalNames.contains text) = true := neutral.root
  rwa [Bool.not_eq_true', List.contains_eq_mem, decide_eq_false_iff_not] at root

/-- A function that is called in a neutral tree has no handling of its own. -/
theorem not_mem_handledFunctions {text : String} {rest : List Tree}
    (neutral : (Tree.node .identArg (.token ⟨.ident, text⟩ :: rest)).Neutral catalog) :
    text ∉ handledFunctions := by
  have root : (!handledFunctions.contains text) = true := neutral.root
  rwa [Bool.not_eq_true', List.contains_eq_mem, decide_eq_false_iff_not] at root

/-- A neutral tree has to do with neither times nor strings. -/
theorem quiet (neutral : tree.Neutral catalog) : Grouping.Quiet tree := by
  induction tree with
  | token leaf =>
    refine ⟨rfl, ?_⟩
    have kind : neutralKinds.contains leaf.kind := neutral.root
    show leaf.isString = false
    by_contra isString
    rw [Bool.not_eq_false, Token.isString, Bool.or_eq_true, decide_eq_true_eq, decide_eq_true_eq]
      at isString
    rcases isString with same | same <;> simp [same, neutralKinds] at kind
  | node rule children ih =>
    have below : ∀ child ∈ children, Grouping.Quiet child := fun child member =>
      ih child member (hereditary catalog rule children neutral child member)
    by_cases isName : rule = .ident
    · subst isName
      obtain ⟨text, rfl⟩ := neutral.grammatical.ident
      refine ⟨?_, rfl⟩
      rw [Tree.isTemporal, nameText_token, List.contains_eq_mem,
        decide_eq_false neutral.not_mem_temporalNames]
    · by_cases isCall : rule = .identArg
      · subst isCall
        obtain ⟨text, shape⟩ := neutral.grammatical.identArg
        have noTime : ∀ rest, children = .token ⟨.ident, text⟩ :: rest →
            (Tree.node .identArg children).isTemporal = .ok false := by
          rintro rest rfl
          have notHandled := neutral.not_mem_handledFunctions
          have notTemporal : text ∉ temporalFunctions := fun member =>
            notHandled (List.mem_append_right _ member)
          rw [Tree.isTemporal, nameText_token, List.contains_eq_mem, decide_eq_false notTemporal]
        rcases shape with rfl | ⟨items, rfl⟩
        · exact ⟨noTime _ rfl, rfl⟩
        · refine ⟨noTime _ rfl, ?_⟩
          rw [containsString_node (by decide), anyContainsString, anyContainsString,
            (below (.node .exprList items) (by simp)).noString]
          rfl
      · by_cases isLiteral : rule = .literal
        · subst isLiteral
          obtain ⟨kind, -, labels⟩ := (grammatical_node.mp neutral.grammatical).1
          obtain ⟨leaf, rfl, label⟩ := map_label_one.mp labels
          obtain ⟨text, rfl⟩ := label_eq_token.mp label
          exact ⟨rfl, (below _ (.head _)).noString⟩
        · exact .node (by simp [isName, isCall, isLiteral]) below

/-- A neutral tree is no list. -/
theorem isList (neutral : tree.Neutral catalog) : tree.isList = false := by
  rw [Tree.isList]
  cases found : tree.unwrap? .listLit with
  | none => rfl
  | some items =>
    have root := ((hereditary catalog).unwrap neutral found).root
    simp [isNeutral, Rule.operations] at root

/-- The object of a neutral selection starts from a name, whose first field holds no JSON. -/
theorem selection {object : Tree} {field : Token}
    (neutral : (Tree.node .memberDot [object, .token field]).Neutral catalog) :
    ∃ table, object.root? = .ok (some table) ∧
      ∃ first, object.firstField field.text = .ok first ∧ catalog.isJson table first = false := by
  have root : (Tree.node .memberDot [object, .token field]).reference?.any
      fun (table, field) => !catalog.isJson table field := neutral.root
  have objectGrammatical := (hereditary catalog _ _ neutral object (by simp)).grammatical
  obtain ⟨⟨table, first⟩, found, noJson⟩ := (Option.any_eq_true _ _).mp root
  obtain ⟨⟨start, fields⟩, chain, head⟩ := Option.bind_eq_some_iff.mp found
  obtain ⟨⟨objectStart, objectFields⟩, objectChain, same⟩ := Option.map_eq_some_iff.mp chain
  obtain ⟨rfl, rfl⟩ := Prod.mk.inj same
  have starts : objectStart = table ∧ objectFields.headD field.text = first := by
    cases objectFields <;> simpa using head
  obtain ⟨rfl, rfl⟩ := starts
  exact ⟨objectStart, objectGrammatical.root?_of_chain? objectChain, _,
    firstField_of_chain? objectChain _, by simpa using noJson⟩

/-- A neutral tree selects no text out of a JSON value. -/
theorem isJsonText (neutral : tree.Neutral catalog) : catalog.isJsonText tree = .ok false := by
  have coreNeutral : tree.core.Neutral catalog := (hereditary catalog).core neutral
  rw [Catalog.isJsonText]
  split
  next children same =>
    rw [same] at coreNeutral
    obtain ⟨object, field, rfl, -⟩ := coreNeutral.grammatical.memberDot
    obtain ⟨table, starts, first, isFirst, noJson⟩ := coreNeutral.selection
    rw [Catalog.isJsonPath, starts]
    simp only [nameText_token] at isFirst ⊢
    rw [isFirst, Except.map, noJson]
  · rfl

end Neutral

end Tree

/-! ## Conversion of neutral trees -/

namespace Convert

section

variable {catalog : Catalog} {one two : Dialect} {first second : Tree → Fragment}
  {children : List Tree}
variable (agree : ∀ tree : Tree, tree.Neutral catalog → first tree = second tree)

include agree

omit agree in
/-- Two neutral operands are written with a sign between them, or as a remainder. -/
theorem pairing_neutral {rule operator : Rule} {left right : Tree} {pairing : Pairing}
    (noMembership : operator ≠ .relationIn) (leftNeutral : left.Neutral catalog)
    (rightNeutral : right.Neutral catalog)
    (found : Arrangement.pairing catalog rule operator left right = .ok pairing) :
    pairing = .remainder ∨ ∃ operator, pairing = .sign operator := by
  have noTime : eitherTemporal left right = .ok false := by
    rw [eitherTemporal, leftNeutral.quiet.noTime, rightNeutral.quiet.noTime]
  have plain : Arrangement.ofSum left right = .ok (.sign .add) := by
    simp [Arrangement.ofSum, noTime, leftNeutral.quiet.noString, rightNeutral.quiet.noString,
      leftNeutral.isList, rightNeutral.isList, bind, Except.bind]
  have uncast (comparator : Comparator) :
      Arrangement.ofSign catalog comparator left right = .ok (.sign (.compare comparator)) := by
    simp [Arrangement.ofSign, leftNeutral.isJsonText, rightNeutral.isJsonText, bind,
      Except.bind, Except.map]
  unfold Arrangement.pairing at found
  split at found
  · exact absurd rfl noMembership
  · exact .inr ⟨_, Except.ok.inj (found.symm.trans plain)⟩
  · rw [noTime] at found
    exact .inr ⟨.sub, (Except.ok.inj found).symm⟩
  · exact .inr ⟨_, (Except.ok.inj found).symm⟩
  · exact .inr ⟨_, (Except.ok.inj found).symm⟩
  · exact .inl (Except.ok.inj found).symm
  · split at found
    · exact .inr ⟨_, Except.ok.inj (found.symm.trans (uncast _))⟩
    · cases found

theorem arrangement_neutral {rule : Rule} {arrangement : Arrangement} (isArranged : rule.isArranged)
    (neutral : (Tree.node rule children).Neutral catalog)
    (found : Arrangement.of catalog rule children = .ok arrangement) :
    arrangement.fragment one first = arrangement.fragment two second := by
  have same : arrangement.fragment one first = arrangement.fragment one second :=
    Arrangement.fragment_congr fun operand member => agree operand
      ((Tree.Neutral.hereditary catalog).of_mem_parts neutral
        (.tail _ (Arrangement.mem_partsOf found member)))
  rw [same]
  cases neutral.grammatical.arranged isArranged with
  | only =>
    rw [Arrangement.of_single] at found
    cases found
    rfl
  | choice | or | and | not | minus =>
    cases found
    rfl
  | @operator _ operator left right isOperator =>
    have wrapper := Tree.Neutral.hereditary catalog _ _ neutral (.node operator [left]) (.head _)
    have leftNeutral := Tree.Neutral.hereditary catalog _ _ wrapper left (.head _)
    have rightNeutral := Tree.Neutral.hereditary catalog _ _ neutral right (by simp)
    have noMembership : operator ≠ .relationIn := by
      rintro rfl
      simpa [Tree.isNeutral, Rule.operations] using wrapper.root
    rw [Tree.Arranged.of_operator isOperator] at found
    rcases Arrangement.ofOperator_cases found with ⟨operand, test, -, rfl⟩ | ⟨pairing, paired, rfl⟩
    · rfl
    · rcases pairing_neutral noMembership leftNeutral rightNeutral paired with
        rfl | ⟨sign, rfl⟩ <;> rfl

theorem parenthesised_neutral (each : ∀ child ∈ children, child.Neutral catalog) :
    parenthesised first children = parenthesised second children := by
  cases children with
  | nil => rfl
  | cons inner rest => rw [parenthesised, parenthesised, agree inner (each inner (.head _))]

/-- A neutral selection is written with a dot. -/
theorem selection_neutral (neutral : (Tree.node .memberDot children).Neutral catalog) :
    selection ⟨one, catalog⟩ first children = selection ⟨two, catalog⟩ second children := by
  obtain ⟨object, field, rfl, -⟩ := neutral.grammatical.memberDot
  have objectNeutral := Tree.Neutral.hereditary catalog _ _ neutral object (by simp)
  obtain ⟨table, starts, initial, isInitial, noJson⟩ := neutral.selection
  simp only [selection, starts, Tree.nameText_token, Fragment.attempt_ok] at isInitial ⊢
  simp only [isInitial, Fragment.attempt_ok, noJson, Bool.false_eq_true, if_false,
    agree object objectNeutral]

theorem expressions_neutral {items : List Tree} (each : ∀ item ∈ items, item.Neutral catalog) :
    expressions first items = expressions second items := by
  rw [expressions, expressions, List.map_congr_left fun item member =>
    agree item (each item member)]

theorem callMethod_neutral {object : Tree} {method : String} {arguments : List Tree}
    (isNeutral : method ∈ Tree.neutralMethods) (objectNeutral : object.Neutral catalog)
    (each : ∀ argument ∈ arguments, argument.Neutral catalog) :
    callMethod ⟨one, catalog⟩ first object method arguments =
      callMethod ⟨two, catalog⟩ second object method arguments := by
  have sameObject := agree object objectNeutral
  have sameArgument : ∀ argument ∈ arguments, first argument = second argument :=
    fun argument member =>
    agree argument (each argument member)
  have position : ∀ index ∈ arguments, positionFromOne first index =
      positionFromOne second index := by
    intro index member
    rw [positionFromOne, positionFromOne, sameArgument index member]
  simp only [Tree.neutralMethods, List.mem_cons, List.not_mem_nil, or_false] at isNeutral
  rcases isNeutral with rfl | rfl | rfl | rfl | rfl | rfl | rfl | rfl | rfl
  -- The methods without arguments.
  iterate 4 exact congrArg (applied _) sameObject
  · show charAt first object arguments = charAt second object arguments
    unfold charAt
    split
    · rw [sameObject, position _ (by simp)]
    · rfl
  · show indexOfCall first object arguments = indexOfCall second object arguments
    unfold indexOfCall
    split
    · rw [sameObject, sameArgument _ (by simp)]
    next part offset =>
      rw [sameObject, sameArgument part (by simp), sameArgument offset (by simp)]
    · rfl
  · show lastIndexOfCall first object arguments = lastIndexOfCall second object arguments
    unfold lastIndexOfCall
    split
    · rw [sameObject, sameArgument _ (by simp)]
    · rfl
  · show substring first object arguments = substring second object arguments
    unfold substring
    split
    · rw [sameObject, position _ (by simp)]
    next start finish =>
      simp only [substringRange, sameObject, sameArgument start (by simp),
        sameArgument finish (by simp)]
    · rfl
  · show replacement first object arguments = replacement second object arguments
    unfold replacement replaced
    split
    next part substitute =>
      rw [sameObject, sameArgument part (by simp), sameArgument substitute (by simp)]
    next part substitute limit =>
      simp only [sameObject, sameArgument part (by simp), sameArgument substitute (by simp)]
    · rfl

theorem methodCall_neutral (neutral : (Tree.node .memberDotArg children).Neutral catalog) :
    methodCall ⟨one, catalog⟩ first children = methodCall ⟨two, catalog⟩ second children := by
  have below := Tree.Neutral.hereditary catalog _ _ neutral
  obtain ⟨object, text, -, shape⟩ := neutral.grammatical.memberDotArg
  rcases shape with rfl | ⟨items, rfl⟩
  · have isNeutral : Tree.neutralMethods.contains text := neutral.root
    exact callMethod_neutral agree (List.contains_iff_mem.mp isNeutral)
      (below object (by simp)) (by simp)
  · have isNeutral : Tree.neutralMethods.contains text := neutral.root
    have list : (Tree.node .exprList items).Neutral catalog := below _ (by simp)
    exact callMethod_neutral agree (List.contains_iff_mem.mp isNeutral) (below object (by simp))
      (Tree.Neutral.hereditary catalog _ _ list)

omit agree in
/-- A function without a handling of its own is written by its name. -/
theorem callFunction_of_not_handled {context : Context} {function : String}
    (notHandled : function ∉ Tree.handledFunctions) (arguments : List Tree) :
    callFunction context first function arguments = plainCall first function arguments := by
  simp only [Tree.handledFunctions, Tree.temporalFunctions, List.cons_append, List.nil_append,
    List.mem_cons, List.not_mem_nil, or_false, not_or] at notHandled
  unfold callFunction
  split
  all_goals first | rfl | simp at notHandled

/-- The call of a function without special handling on neutral trees. -/
theorem functionCall_neutral (neutral : (Tree.node .identArg children).Neutral catalog) :
    functionCall ⟨one, catalog⟩ first children = functionCall ⟨two, catalog⟩ second children := by
  have below := Tree.Neutral.hereditary catalog _ _ neutral
  obtain ⟨text, rfl | ⟨items, rfl⟩⟩ := neutral.grammatical.identArg
  · have notHandled := neutral.not_mem_handledFunctions
    simp only [functionCall, argumentsOf, Fragment.attempt_ok, Tree.nameText_token,
      callFunction_of_not_handled notHandled]
    rw [plainCall, plainCall, expressions_neutral agree (by simp)]
  · have notHandled := neutral.not_mem_handledFunctions
    have list : (Tree.node .exprList items).Neutral catalog := below _ (by simp)
    simp only [functionCall, argumentsOf, Fragment.attempt_ok, Tree.nameText_token,
      callFunction_of_not_handled notHandled]
    rw [plainCall, plainCall, expressions_neutral agree (Tree.Neutral.hereditary catalog _ _ list)]

end

/-- One step of the conversion of a neutral tree does not depend on the dialect, if the steps below
do not. -/
theorem step_neutral {one two : Dialect} {first second : Tree → Fragment}
    (agree : ∀ tree : Tree, tree.Neutral catalog → first tree = second tree)
    (neutral : tree.Neutral catalog) :
    step ⟨one, catalog⟩ first tree = step ⟨two, catalog⟩ second tree := by
  have nested : ∀ tree : Tree, tree.Neutral catalog →
      Fragment.nested (first tree) = .nested (second tree) :=
    fun tree neutral => congrArg _ (agree tree neutral)
  cases tree with
  | token leaf => rfl
  | node rule children =>
    have below := Tree.Neutral.hereditary catalog rule children neutral
    by_cases isArranged : rule.isArranged
    · rw [step_arranged isArranged, step_arranged isArranged]
      cases found : Arrangement.of catalog rule children with
      | error fault => rfl
      | ok arrangement => exact arrangement_neutral nested isArranged neutral found
    cases rule with
    | parenExpr => exact parenthesised_neutral nested below
    | exprList => exact expressions_neutral nested below
    | memberDot => exact selection_neutral nested neutral
    | memberDotArg => exact methodCall_neutral nested neutral
    | identArg => exact functionCall_neutral nested neutral
    | unaryNot | unaryNeg | ident | literal => rfl
    -- The other rules are not neutral.
    | memberIndex | memberObject | dotIdentArg | dotIdent | listLit | mapLit | fieldInits
    | mapInits | other =>
      exact absurd neutral.root (by simp [Tree.isNeutral, Rule.operations])
    | _ => exact absurd rfl isArranged

/-- Any number of steps. -/
theorem steps_neutral (one two : Dialect) (fuel : Nat) (neutral : tree.Neutral catalog) :
    steps ⟨one, catalog⟩ fuel tree = steps ⟨two, catalog⟩ fuel tree := by
  induction fuel generalizing tree with
  | zero => rfl
  | succ fuel ih => exact step_neutral (fun _ below => ih below) neutral

end Convert

/-- **The fragment of a neutral tree does not depend on the dialect.** -/
theorem Context.fragment_neutral (one two : Dialect)
    (neutral : tree.Neutral catalog) :
    (⟨one, catalog⟩ : Context).fragment tree = (⟨two, catalog⟩ : Context).fragment tree :=
  Convert.steps_neutral one two tree.height neutral

/-! ## Runs of neutral fragments -/

/-- The settings with literals written out in a dialect. -/
def Settings.inDialect (settings : Settings) (dialect : Dialect) : Settings :=
  { settings with mode := .inline, dialect }

/-- A literal is a number. -/
def Literal.IsNumber : Literal → Prop
  | .int _ | .float .. => True
  | .string _ | .bytes _ => False

/-- A fragment whose literals are numbers runs alike in all dialects. -/
theorem Fragment.run_inDialect (settings : Settings) (one two : Dialect) {fragment : Fragment}
    (numbers : fragment.EachLiteral Literal.IsNumber) (session : Session) :
    fragment.run (settings.inDialect one) session =
      fragment.run (settings.inDialect two) session := by
  induction fragment generalizing session with
  | append left right leftIh rightIh =>
    obtain ⟨leftNumbers, rightNumbers⟩ := (eachLiteral_append left right).mp numbers
    rw [run, run, leftIh leftNumbers session, funext (rightIh rightNumbers)]
  | nested body ih =>
    rw [run, run, ih numbers]
    rfl
  | comprehension body ih => rw [run, run, ih numbers]
  | binding name body ih => rw [run, run, ih numbers]
  | literal value =>
    have isNumber : value.IsNumber := numbers value (List.mem_singleton_self value)
    cases value with
    | int | float => rfl
    | string | bytes => exact isNumber.elim
  | text | unlessBound | known | fail => rfl

/-- The literals of a neutral tree are numbers. -/
theorem Tree.Neutral.numbers (neutral : tree.Neutral catalog) (dialect : Dialect) :
    ((⟨dialect, catalog⟩ : Context).fragment tree).EachLiteral Literal.IsNumber := by
  intro value member
  obtain ⟨token, among, made⟩ := Context.literals_of_tokens ⟨dialect, catalog⟩ tree value member
  have isNeutral : neutralKinds.contains token.kind := neutral.each _ (token_mem_parts among)
  have isFrom := isFrom_of_literalOf made
  cases value with
  | int | float => trivial
  | string text => rcases isFrom.1 with kind | kind <;> simp [kind, neutralKinds] at isNeutral
  | bytes bytes =>
    have kind : token.kind = .bytes := isFrom
    simp [kind, neutralKinds] at isNeutral

/-! ## Conversions -/

namespace Settings

/-- **All dialects write neutral expressions alike.** An expression without strings, lists, times,
JSON fields, casts and functions or methods that dialects write in ways of their own is converted to
the same condition in any two dialects, or fails with the same fault. -/
theorem convertTree_inDialect (settings : Settings) (one two : Dialect) {tree : Tree}
    (expression : tree.IsExpression)
    (neutral : ∀ part ∈ tree.parts, part.isNeutral settings.catalog) :
    (settings.inDialect one).convertTree tree = (settings.inDialect two).convertTree tree := by
  have treeNeutral : tree.Neutral settings.catalog := ⟨expression.1, neutral⟩
  have sameFragment := Context.fragment_neutral one two treeNeutral
  have sameRun : (settings.inDialect one).visit .fresh tree =
      (settings.inDialect two).visit .fresh tree := by
    show ((⟨one, settings.catalog⟩ : Context).fragment tree).run _ _ = _
    rw [sameFragment]
    exact Fragment.run_inDialect settings one two (treeNeutral.numbers two) .fresh
  have sameFault : (settings.inDialect one).fault? = (settings.inDialect two).fault? := rfl
  rw [convertTree, convertTree, sameRun, sameFault]

/-- A choice with chains, calls, methods, tests and numbers, in a dialect and in another one. -/
theorem convertTree_inDialect_choice :
    let text :=
      "-a.b.c % 2.5 >= f(x, 3u).indexOf(y, 2) || !(u.d == null) && t.e != true ? g() : r.substring(i, j + 1)"
    let sql :=
      "CASE WHEN MOD(-a.b.c, 2.5) >= CASE WHEN POSITION(y IN SUBSTRING(F(x, 3), 3)) > 0 THEN " ++
      "POSITION(y IN SUBSTRING(F(x, 3), 3)) + 2 - 1 ELSE -1 END OR NOT (u.d IS NULL) AND t.e IS NOT TRUE " ++
      "THEN G() ELSE SUBSTRING(r, i + 1, j + 1 - (i)) END"
    let settings : Settings :=
      { catalog := [("a", ⟨[{ name := "b" }, { name := "c", isJson := true }]⟩)] }
    ∃ tree condition, parse? text = some tree ∧ tree.IsExpression ∧
      (∀ part ∈ tree.parts, part.isNeutral settings.catalog) ∧
      (settings.inDialect .mysql).convertTree tree = .ok condition ∧ condition.sql = sql ∧
      (settings.inDialect .bigquery).convertTree tree = .ok condition := by
  intro text sql settings
  have converted : ((settings.inDialect .mysql).convert text).toOption = some sql :=
    by decide +kernel
  have inLanguage : ∀ tree ∈ parse? text, ∀ part ∈ tree.parts, part.isNeutral settings.catalog :=
    by decide +kernel
  obtain ⟨tree, condition, parsed, treeConverted, sameSql⟩ := convert_toOption converted
  have expression := parse?_isExpression parsed
  have neutral := inLanguage tree parsed
  exact ⟨tree, condition, parsed, expression, neutral, treeConverted, sameSql,
    (convertTree_inDialect settings .bigquery .mysql expression neutral).trans treeConverted⟩

end Settings

end CelWhere
