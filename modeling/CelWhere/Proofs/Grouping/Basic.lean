import CelWhere.Proofs.Alignment
import CelWhere.Proofs.Grouping.Expression
import CelWhere.Proofs.Lexical.Basic

/-! # Conditions keep the structure of expressions

Expressions of names, integers without sign, parentheses and operators are converted operator by
operator, without parentheses of the conversion's own. The condition nevertheless reads as the same
tree.

* `Plain` — trees that no special form of an operator applies to, and `Builds.plain`;
* `Writes` — what a fragment writes, if it writes anything;
* `Builds.writes` — such a tree is converted to the text of its operation. -/

namespace CelWhere

namespace Grouping

variable {rule : Rule} {tree : Tree} {value : Nat} {operation : Operation} {operator : Operator}

/-! ## Trees without special forms -/

/-- A tree has to do with neither times nor strings. -/
structure Quiet (tree : Tree) : Prop where
  /-- No call and no name stands for a time. -/
  noTime : tree.isTemporal = .ok false
  /-- No string occurs. -/
  noString : tree.containsString = false

/-- Rules whose nodes are asked about their children only. -/
theorem Quiet.node {children : List Tree} (ordinary : rule ∉ [Rule.ident, .identArg, .literal])
    (each : ∀ child ∈ children, Quiet child) : Quiet (.node rule children) := by
  simp only [List.mem_cons, List.not_mem_nil, or_false, not_or] at ordinary
  obtain ⟨noName, noCall, noLiteral⟩ := ordinary
  constructor
  · rw [Tree.isTemporal_node noCall noName]
    induction children with
    | nil => rfl
    | cons head rest ih =>
      rw [Tree.anyIsTemporal, (each head (.head _)).noTime]
      exact ih fun child member => each child (.tail _ member)
  · rw [Tree.containsString_node noLiteral]
    induction children with
    | nil => rfl
    | cons head rest ih =>
      have restQuiet := ih fun child member => each child (.tail _ member)
      cases head with
      | token leaf => rw [Tree.anyContainsString, restQuiet]
      | node below grandchildren =>
        rw [Tree.anyContainsString, restQuiet, (each _ (.head _)).noString, Bool.or_false]

/-- A tree that no special form of an operator applies to. -/
structure Plain (tree : Tree) : Prop extends Quiet tree where
  /-- It is no list. -/
  noList : tree.isList = false
  /-- It selects no field. -/
  noField : ∀ children, tree.core ≠ .node .memberDot children
  /-- If it is a literal, it is an integer. -/
  integer : ∀ token ∈ tree.literal?, token.kind = .int ∨ token.kind = .uint

namespace Plain

/-- The rules that are asked about in special forms. -/
def special : List Rule := [.ident, .identArg, .literal, .listLit, .memberDot]

/-- A node of another rule. The questions that look through nodes with a single child ask the
child. -/
theorem node {children : List Tree} (ordinary : rule ∉ special)
    (each : ∀ child ∈ children, Quiet child) (only : ∀ child, children = [child] → Plain child) :
    Plain (.node rule children) := by
  simp only [special, List.mem_cons, List.not_mem_nil, or_false, not_or] at ordinary
  obtain ⟨noName, noCall, noLiteral, noList, noField⟩ := ordinary
  have quiet : Quiet (.node rule children) := .node (by simp [noName, noCall, noLiteral]) each
  rcases children with _ | ⟨child, _ | ⟨second, rest⟩⟩
  · exact ⟨quiet, by simp [Tree.isList, Tree.unwrap?, noList], by simp [Tree.core, noField],
      by simp [Tree.literal?, noLiteral]⟩
  · have below := only child rfl
    refine ⟨quiet, ?_, ?_, ?_⟩
    · simpa [Tree.isList, Tree.unwrap?, noList] using below.noList
    · by_cases level : rule.isLevel
      · simpa [Tree.core, level] using below.noField
      · simp [Tree.core, level, noField]
    · have same : (Tree.node rule [child]).literal? = child.literal? :=
        by simp [Tree.literal?, noLiteral]
      rw [same]
      exact below.integer
  · exact ⟨quiet, by simp [Tree.isList, Tree.unwrap?, noList], by simp [Tree.core, noField],
      by simp [Tree.literal?, noLiteral]⟩

/-- A node with one child. -/
theorem single {child : Tree} (ordinary : rule ∉ special) (plain : Plain child) :
    Plain (.node rule [child]) := by
  refine node ordinary ?_ ?_
  · intro found member
    obtain rfl := List.mem_singleton.mp member
    exact plain.toQuiet
  · intro found same
    obtain rfl := List.singleton_inj.mp same
    exact plain

/-- A node with two children. -/
theorem pair {first second : Tree} (ordinary : rule ∉ special) (one : Quiet first)
    (two : Quiet second) :
    Plain (.node rule [first, second]) :=
  node ordinary (by simp [one, two]) (by simp)

/-- An operator whose rule stands around its left operand. -/
theorem operands {operator : Rule} {left right : Tree} (ordinary : rule ∉ special)
    (operatorOrdinary : operator ∉ special) (one : Plain left) (two : Plain right) :
    Plain (.node rule [.node operator [left], right]) :=
  pair ordinary (single operatorOrdinary one).toQuiet two.toQuiet

/-- Levels of precedence are not asked about in special forms. -/
theorem ordinary_of_isLevel (level : rule.isLevel) : rule ∉ special := by
  cases rule with
  | ident | identArg | literal | listLit | memberDot => simp [Rule.isLevel] at level
  | _ => simp [special]

/-- A plain tree is no text out of a JSON value. -/
theorem isJsonText (plain : Plain tree) (catalog : Catalog) :
    catalog.isJsonText tree = .ok false := by
  have noField := plain.noField
  rw [Catalog.isJsonText]
  split
  next children found => exact absurd found (noField children)
  next => rfl

/-- A plain tree is neither null nor a truth value. -/
theorem filter_givenLiteral? (plain : Plain tree) {kind : TokenKind}
    (other : kind ∈ [TokenKind.null, .bool]) :
    tree.givenLiteral?.filter (·.kind = kind) = none := by
  rw [Option.filter_eq_none_iff]
  intro token given same
  have found : tree.literal? = some token := (Option.filter_eq_some_iff.mp given).1
  obtain rfl : token.kind = kind := of_decide_eq_true same
  rcases plain.integer token found with isInt | isUint
  · simp [isInt] at other
  · simp [isUint] at other

/-- Plain trees are not tested against null or a truth value. -/
theorem literalComparison?_eq_none {left right : Tree} (leftPlain : Plain left)
    (rightPlain : Plain right) (operator : Rule) :
    Convert.literalComparison? operator left right = none := by
  have noTest : ∀ negated, Convert.literalTest? negated left right = none := by
    intro negated
    unfold Convert.literalTest?
    simp only [leftPlain.filter_givenLiteral?, rightPlain.filter_givenLiteral?, List.mem_cons,
      true_or, or_true]
  unfold Convert.literalComparison?
  split
  · exact noTest false
  · exact noTest true
  · rfl

end Plain

/-- Numbers are literals of integers. -/
theorem kind_of_natural? {token : Token} (found : token.natural? = some value) :
    token.kind = .int ∨ token.kind = .uint := by
  unfold Token.natural? at found
  split at found
  next isInt => exact .inl isInt
  next isUint => exact .inr isUint
  next => simp at found

/-- **Trees of operations are plain**, if their names stand for no times. -/
theorem Builds.plain (built : Builds rule tree operation)
    (timeless : ∀ name ∈ operation.names, name ∉ Tree.temporalNames) : Plain tree := by
  have comparisonsOrdinary : ∀ rule ∈ Rule.comparisons, rule ∉ Plain.special := by decide
  have sumsOrdinary : ∀ rule ∈ [Rule.additionAdd, .additionSub], rule ∉ Plain.special := by decide
  have productsOrdinary : ∀ rule ∈ Rule.products, rule ∉ Plain.special := by decide
  induction built with
  | name spelled =>
    have noTime := timeless _ (.head _)
    exact ⟨⟨by simpa [Tree.isTemporal] using noTime, rfl⟩, rfl, by simp [Tree.core, Rule.isLevel],
      by simp [Tree.literal?]⟩
  | @number leaf value found =>
    have kind := kind_of_natural? found
    have noString : leaf.isString = false := by
      rcases kind with isInt | isUint
      · simp [Token.isString, isInt]
      · simp [Token.isString, isUint]
    exact ⟨⟨by simp [Tree.isTemporal, Tree.anyIsTemporal], noString⟩, rfl,
      by simp [Tree.core, Rule.isLevel], by simpa [Tree.literal?] using kind⟩
  | paren _ ih => exact .single (by decide) (ih timeless)
  | not _ ih =>
    exact .pair (by decide) (.node (by decide) (by simp)) (ih timeless).toQuiet
  | minus _ ih =>
    exact .pair (by decide) (.node (by decide) (by simp)) (ih timeless).toQuiet
  | or _ _ firstIh secondIh | and _ _ firstIh secondIh =>
    obtain ⟨firstTimeless, secondTimeless⟩ := List.forall_mem_append.mp timeless
    exact .pair (by decide) (firstIh firstTimeless).toQuiet (secondIh secondTimeless).toQuiet
  | comparison isComparison _ _ _ firstIh secondIh =>
    obtain ⟨firstTimeless, secondTimeless⟩ := List.forall_mem_append.mp timeless
    exact .operands (by decide) (comparisonsOrdinary _ isComparison) (firstIh firstTimeless)
      (secondIh secondTimeless)
  | sum isSum _ _ _ firstIh secondIh =>
    obtain ⟨firstTimeless, secondTimeless⟩ := List.forall_mem_append.mp timeless
    exact .operands (by decide) (sumsOrdinary _ isSum) (firstIh firstTimeless)
      (secondIh secondTimeless)
  | product isProduct _ _ _ firstIh secondIh =>
    obtain ⟨firstTimeless, secondTimeless⟩ := List.forall_mem_append.mp timeless
    exact .operands (by decide) (productsOrdinary _ isProduct) (firstIh firstTimeless)
      (secondIh secondTimeless)
  | remainder _ _ firstIh secondIh =>
    obtain ⟨firstTimeless, secondTimeless⟩ := List.forall_mem_append.mp timeless
    exact .operands (by decide) (by decide) (firstIh firstTimeless) (secondIh secondTimeless)
  | level isLevel _ _ ih =>
    exact .single (Plain.ordinary_of_isLevel isLevel) (ih timeless)

/-! ## The text of an expression -/

/-- A fragment has no text but a certain one. -/
def Writes (dialect : Dialect) (fragment : Fragment) (written : List Char) : Prop :=
  ∀ text, fragment.inlined? dialect = some text → text = written

namespace Writes

variable {dialect : Dialect} {first second : Fragment} {one two : List Char}

theorem text (sql : String) : Writes dialect (.text sql) sql.toList :=
  fun _ written => (Option.some.inj written).symm

theorem nested (writes : Writes dialect first one) : Writes dialect (.nested first) one :=
  writes

/-- One fragment after the other. -/
theorem append (left : Writes dialect first one) (right : Writes dialect second two) :
    Writes dialect (first ++ second) (one ++ two) := by
  intro text written
  obtain ⟨leftText, rightText, isLeft, isRight, rfl⟩ := Fragment.inlined?_append.mp written
  rw [left leftText isLeft, right rightText isRight]

/-- Operands on both sides of a word or sign. -/
theorem binary {left right : Operation} {word : String}
    (leftWrites : Writes dialect first left.spelling)
    (rightWrites : Writes dialect second right.spelling)
    (spaced : word = " " ++ operator.sign ++ " ") :
    Writes dialect (.nested first ++ word ++ .nested second)
      (Operation.binary operator left right).spelling := by
  have whole := (leftWrites.nested.append (.text word)).append rightWrites.nested
  rw [spaced] at whole ⊢
  simpa [Operation.spelling] using whole

end Writes

/-- The operators of comparisons are the comparisons. -/
theorem comparator?_eq (isComparison : rule ∈ Rule.comparisons)
    (found : rule.operator? = some operator) :
    rule ≠ .relationIn ∧ ∃ comparator, Convert.comparator? rule = some comparator ∧
      operator = .compare comparator := by
  simp only [Rule.comparisons, List.mem_cons, List.not_mem_nil, or_false] at isComparison
  rcases isComparison with rfl | rfl | rfl | rfl | rfl | rfl | rfl <;>
    simp only [Rule.operator?, Option.some.injEq, reduceCtorEq] at found <;> subst found <;>
      exact ⟨by decide, _, rfl, rfl⟩

section

variable {context : Context} {child : Tree → Fragment} {left right : Tree}
variable (leftPlain : Plain left) (rightPlain : Plain right)

include leftPlain rightPlain

/-- Comparisons of plain trees are written by their sign. -/
theorem comparison_plain (isComparison : rule ∈ Rule.comparisons)
    (found : rule.operator? = some operator) :
    Convert.comparison context child rule left right =
      child left ++ operator.text ++ child right := by
  obtain ⟨noMembership, comparator, known, rfl⟩ := comparator?_eq isComparison found
  rw [Convert.comparison, if_neg noMembership, leftPlain.literalComparison?_eq_none rightPlain]
  simp [known, Convert.signComparison, leftPlain.isJsonText, rightPlain.isJsonText]

/-- Whether one of two plain trees has to do with times. -/
theorem eitherTemporal_plain : Convert.eitherTemporal left right = .ok false := by
  rw [Convert.eitherTemporal, leftPlain.noTime]
  exact rightPlain.noTime

theorem sum_plain : Convert.sum context child left right = child left ++ " + " ++ child right := by
  simp [Convert.sum, eitherTemporal_plain leftPlain rightPlain, leftPlain.noString,
    rightPlain.noString, leftPlain.noList, rightPlain.noList]

theorem difference_plain :
    Convert.difference context child left right = child left ++ " - " ++ child right := by
  simp [Convert.difference, eitherTemporal_plain leftPlain rightPlain]

end

/-- The text of an unsigned integer is its digits without the mark. -/
theorem toList_dropUnsignedMark {text : String} {digits : List Char} {mark : Char}
    (reversed : text.toList.reverse = mark :: digits) (isMark : mark = 'u' ∨ mark = 'U')
    (found : Integer.natural? digits.reverse = some value) :
    (dropUnsignedMark text).toList = digits.reverse := by
  have each := Integer.isHexDigit_of_natural? found
  have unmarked : digits.dropWhile (fun c => c = 'u' || c = 'U') = digits := by
    cases digits with
    | nil => rfl
    | cons head rest =>
      have digit := each head (by simp)
      apply List.dropWhile_cons_of_neg
      intro marked
      simp only [Bool.or_eq_true, decide_eq_true_eq] at marked
      rcases marked with rfl | rfl <;> exact absurd digit (by decide)
  rw [dropUnsignedMark, String.toList_ofList, reversed,
    List.dropWhile_cons_of_pos (by simpa using isMark), unmarked]

/-- Literals of integers without sign are written as their values. -/
theorem literalOf_writes {token : Token} (found : token.natural? = some value) (dialect : Dialect) :
    Writes dialect (literalOf token) (Operation.number value).spelling := by
  have ofText : ∀ source : String, Integer.natural? source.toList = some value →
      Writes dialect (.attempt (readInteger .marked source) fun result => .literal (.int result))
        (Operation.number value).spelling := by
    intro source natural text written
    unfold readInteger at written
    cases read : Integer.read .marked source.toList with
    | error failure => simp [read, Fragment.inlined?] at written
    | ok result =>
      obtain rfl := Integer.read_marked natural read
      simp only [read, Fragment.attempt_ok, Fragment.inlined?, Literal.inlineText] at written
      split at written
      · simp [Except.toOption] at written
      · obtain rfl : (Integer.toText value).toList = text :=
          by simpa [Except.toOption] using written
        exact Integer.toList_toText_ofNat value
  unfold Token.natural? at found
  unfold literalOf
  split at found
  next isInt =>
    rw [isInt]
    exact ofText token.text found
  next isUint =>
    rw [isUint]
    split at found
    next digits reversed =>
      refine ofText (dropUnsignedMark token.text) ?_
      rw [toList_dropUnsignedMark reversed (.inl rfl) found, found]
    next digits reversed =>
      refine ofText (dropUnsignedMark token.text) ?_
      rw [toList_dropUnsignedMark reversed (.inr rfl) found, found]
    next => simp at found
  next => simp at found

/-- **Trees of operations are converted to the text of the operation.** -/
theorem Builds.writes (built : Builds rule tree operation)
    (usable : ∀ name ∈ operation.names, columnNameFault? name = none ∧ name ∉ Tree.temporalNames)
    (context : Context) :
    Writes context.dialect (context.fragment tree) operation.spelling := by
  induction built with
  | @name text spelled =>
    rw [context.fragment_eq]
    show Writes _ (reference text) _
    rw [reference, (usable text (.head _)).1]
    exact .text text
  | number found =>
    rw [context.fragment_eq]
    exact literalOf_writes found _
  | @paren inner body _ ih =>
    rw [context.fragment_eq]
    show Writes _ ("(" ++ .nested (context.fragment inner) ++ ")") _
    have writes := ((Writes.text "(").append (ih usable).nested).append (.text ")")
    simpa [Operation.spelling] using writes
  | @not operand body _ ih =>
    rw [context.fragment_eq]
    show Writes _ ("NOT " ++ .nested (context.fragment operand)) _
    have writes := (Writes.text "NOT ").append (ih usable).nested
    simpa [Operation.spelling] using writes
  | @minus operand body _ ih =>
    rw [context.fragment_eq]
    show Writes _ ("-" ++ .nested (context.fragment operand)) _
    have writes := (Writes.text "-").append (ih usable).nested
    simpa [Operation.spelling] using writes
  | or _ _ firstIh secondIh =>
    obtain ⟨firstUsable, secondUsable⟩ := List.forall_mem_append.mp usable
    rw [context.fragment_eq]
    exact .binary (firstIh firstUsable) (secondIh secondUsable) rfl
  | and _ _ firstIh secondIh =>
    obtain ⟨firstUsable, secondUsable⟩ := List.forall_mem_append.mp usable
    rw [context.fragment_eq]
    exact .binary (firstIh firstUsable) (secondIh secondUsable) rfl
  | @comparison rule operator left right one two isComparison found first second firstIh secondIh =>
    obtain ⟨firstUsable, secondUsable⟩ := List.forall_mem_append.mp usable
    have leftPlain := first.plain fun name member => (firstUsable name member).2
    have rightPlain := second.plain fun name member => (secondUsable name member).2
    rw [context.fragment_eq]
    show Writes _ (Convert.comparison context context.child rule left right) _
    rw [comparison_plain leftPlain rightPlain isComparison found]
    exact .binary (firstIh firstUsable) (secondIh secondUsable) rfl
  | @sum rule operator left right one two isSum found first second firstIh secondIh =>
    obtain ⟨firstUsable, secondUsable⟩ := List.forall_mem_append.mp usable
    have writes := firstIh firstUsable
    have leftPlain := first.plain fun name member => (firstUsable name member).2
    have rightPlain := second.plain fun name member => (secondUsable name member).2
    rw [context.fragment_eq]
    simp only [List.mem_cons, List.not_mem_nil, or_false] at isSum
    rcases isSum with rfl | rfl
    · obtain rfl := Option.some.inj found
      show Writes _ (Convert.sum context context.child left right) _
      rw [sum_plain leftPlain rightPlain]
      exact .binary writes (secondIh secondUsable) rfl
    · obtain rfl := Option.some.inj found
      show Writes _ (Convert.difference context context.child left right) _
      rw [difference_plain leftPlain rightPlain]
      exact .binary writes (secondIh secondUsable) rfl
  | product isProduct found _ _ firstIh secondIh =>
    obtain ⟨firstUsable, secondUsable⟩ := List.forall_mem_append.mp usable
    rw [context.fragment_eq]
    simp only [Rule.products, List.mem_cons, List.not_mem_nil, or_false] at isProduct
    rcases isProduct with rfl | rfl | rfl
    · obtain rfl := Option.some.inj found
      exact .binary (firstIh firstUsable) (secondIh secondUsable) rfl
    · obtain rfl := Option.some.inj found
      exact .binary (firstIh firstUsable) (secondIh secondUsable) rfl
    · simp [Rule.operator?] at found
  | @remainder left right one two _ _ firstIh secondIh =>
    obtain ⟨firstUsable, secondUsable⟩ := List.forall_mem_append.mp usable
    have start := (Writes.text "MOD(").append (firstIh firstUsable).nested
    have operands := (start.append (.text ", ")).append (secondIh secondUsable).nested
    have writes := operands.append (.text ")")
    rw [context.fragment_eq]
    show Writes _ ("MOD(" ++ .nested (context.fragment left) ++ ", " ++
      .nested (context.fragment right) ++ ")") _
    simpa [Operation.spelling] using writes
  | @level rule below only operation isLevel _ _ ih =>
    have writes := (ih usable).nested
    rw [context.fragment_eq]
    cases rule with
    | expr | conditionalOr | conditionalAnd | relation | addition | multiplication | unary
    | member | primary =>
      exact writes
    | _ => simp [Rule.isLevel] at isLevel

/-- A valid name is a lexeme. -/
theorem lexes_name {text : String} (spelled : ∀ c ∈ text.toList, Lexer.isNameChar c)
    (valid : columnNameFault? text = none) : Lexes text.toList [.name text] := by
  obtain ⟨given, -, named, free⟩ := NameRules.fault?_eq_none.mp valid
  have start : text.toList.head?.all Lexer.isNameStart := by
    cases found : text.toList with
    | nil => rfl
    | cons head rest =>
      rw [found, isNameText, Bool.and_eq_true] at named
      exact named.1
  have reserved : ∀ word ∈ ["or", "and", "not"], word ∈ sharedReserved := by decide
  exact .name given start spelled fun isWord => free (reserved _ isWord)

/-- The names of trees of the grammar are spelled like names. -/
theorem Builds.names_spelled (built : Builds rule tree operation) :
    ∀ name ∈ operation.names, ∀ c ∈ name.toList, Lexer.isNameChar c := by
  induction built with
  | name spelled => simpa [Operation.names] using spelled
  | number => simp [Operation.names]
  | paren _ ih | not _ ih | minus _ ih
  | level _ _ _ ih => exact ih
  | or _ _ firstIh secondIh | and _ _ firstIh secondIh
  | remainder _ _ firstIh secondIh =>
    exact List.forall_mem_append.mpr ⟨firstIh, secondIh⟩
  | comparison _ _ _ _ firstIh secondIh | sum _ _ _ _ firstIh secondIh
  | product _ _ _ _ firstIh secondIh =>
    exact List.forall_mem_append.mpr ⟨firstIh, secondIh⟩

end Grouping

open Grouping

/-- **Conditions read like their expressions.** Take an expression of names, integers without sign,
parentheses and operators, in which the names are valid and stand for no times, and no negation is a
direct operand of a comparison or of arithmetic. Where it is converted with its literals written
out, the condition is read as the operation of the expression. The reading is one by the precedence
of the operators and knows no comments: two minus signs side by side are two signs to it. -/
theorem Settings.convertTree_read (settings : Settings) (tree : Tree) {operation : Operation}
    {condition : Condition} (expression : tree.IsExpression)
    (found : tree.operation? = some operation)
    (usable : ∀ name ∈ operation.names, columnNameFault? name = none ∧ name ∉ Tree.temporalNames)
    (apart : operation.notsApart)
    (converted : ({ settings with mode := .inline } : Settings).convertTree tree = .ok condition) :
    read? condition.sql = some operation := by
  have built := expression.builds found
  have inlined := inlined?_of_convertTree rfl converted
  have spelled : condition.sql.toList = operation.spelling :=
    built.writes usable settings.context _ inlined
  rw [show condition.sql = String.ofList operation.spelling by rw [← spelled, String.ofList_toList]]
  exact read?_spelling (built.grouped apart) fun name member =>
    lexes_name (built.names_spelled name member) (usable name member).1

/-- Negations, a remainder, signs and operators of one level behind each other. -/
theorem Settings.convertTree_read_nested :
    let operation : Operation :=
      .binary .or
        (.not (.paren (.binary (.compare .eq) (.remainder (.name "a") (.number 31)) (.number 2))))
        (.binary .and
          (.binary (.compare .lt) (.binary .sub (.binary .sub (.name "b") (.name "c")) (.number 3))
            (.binary .mul (.minus (.minus (.name "d")))
              (.paren (.binary .add (.name "e") (.number 4)))))
          (.not (.not (.name "f"))))
    ∃ tree condition,
      parse? "!(a % 0x1F == 2u) || b - c - 3 < - -d * (e + 4) && !!f" = some tree ∧
      tree.IsExpression ∧ tree.operation? = some operation ∧
      (∀ name ∈ operation.names, columnNameFault? name = none ∧ name ∉ Tree.temporalNames) ∧
      operation.notsApart ∧
      ({ dialect := .mysql } : Settings).convertTree tree = .ok condition ∧
      condition.sql = "NOT (MOD(a, 31) = 2) OR b - c - 3 < --d * (e + 4) AND NOT NOT f" ∧
      read? condition.sql = some operation := by
  intro operation
  have converted : (({ dialect := .mysql } : Settings).convert
      "!(a % 0x1F == 2u) || b - c - 3 < - -d * (e + 4) && !!f").toOption =
        some "NOT (MOD(a, 31) = 2) OR b - c - 3 < --d * (e + 4) AND NOT NOT f" := by
    decide +kernel
  have stands : ∀ tree ∈ parse? "!(a % 0x1F == 2u) || b - c - 3 < - -d * (e + 4) && !!f",
      tree.operation? = some operation := by
    decide +kernel
  have usable : ∀ name ∈ operation.names, columnNameFault? name = none ∧
      name ∉ Tree.temporalNames := by
    decide +kernel
  have apart : operation.notsApart := by decide
  obtain ⟨tree, condition, parsed, treeConverted, sql⟩ := convert_toOption converted
  have expression := parse?_isExpression parsed
  have found := stands tree parsed
  exact ⟨tree, condition, parsed, expression, found, usable, apart, treeConverted, sql,
    convertTree_read { dialect := .mysql } tree expression found usable apart treeConverted⟩

end CelWhere
