import CelWhere.Proofs.Grouping.Basic
import CelWhere.Proofs.Negation.Comparison

/-! # Negated operands of expressions

In expressions, negation binds tighter than comparisons. A comparison or membership test with a
negated operand is converted to the text of `Comparison.spelling`, in which the negation of the
first operand comes to stand in front of everything, unless the dialect writes a call around it.

* `Stands`, `Side.Of` — trees that are written as an operand, and negations of them;
* `Asks` — what a comparison of two trees asks of which of them;
* `Asks.writes` — the text that a comparison with a negated operand is converted to. -/

namespace CelWhere

variable {context : Context} {tree left right : Tree}

open Grouping (Writes)

namespace Negation

variable {dialect : Dialect} {constant : Constant}

/-! ## Looking through levels of precedence -/

/-- The text of a tree is that of the tree below its levels of precedence. -/
theorem inlined?_core (context : Context) (dialect : Dialect) (tree : Tree) :
    (context.fragment tree).inlined? dialect = (context.fragment tree.core).inlined? dialect := by
  refine Tree.eq_core (fun tree => (context.fragment tree).inlined? dialect) ?_ tree
  intro rule child level
  rw [context.fragment_eq]
  cases rule with
  | expr | conditionalOr | conditionalAnd | relation | addition | multiplication | unary | member
  | primary => rfl
  | _ => simp [Rule.isLevel] at level

/-- The literal that a tree consists of is found below its levels of precedence. -/
theorem literal?_core (tree : Tree) : tree.literal? = tree.core.literal? := by
  refine Tree.eq_core Tree.literal? ?_ tree
  intro rule child level
  cases rule with
  | expr | conditionalOr | conditionalAnd | relation | addition | multiplication | unary | member
  | primary => rfl
  | _ => simp [Rule.isLevel] at level

/-- A tree is the negation of another one. -/
def Negates (tree operand : Tree) : Prop :=
  ∃ below, tree.core = .node .unary [.node .unaryNot below, operand]

namespace Negates

variable {tree operand : Tree} (negates : Negates tree operand)

include negates

/-- A negation is no literal. -/
theorem literal?_eq_none : tree.literal? = none := by
  obtain ⟨below, same⟩ := negates
  rw [literal?_core, same]
  rfl

/-- A negation is no text out of a JSON value. -/
theorem isJsonText (catalog : Catalog) : catalog.isJsonText tree = .ok false := by
  obtain ⟨below, same⟩ := negates
  rw [Catalog.isJsonText, same]

/-- A negation is written with its word in front. -/
theorem writes {text : List Char} (operandWrites : Writes dialect (context.fragment operand) text) :
    Writes dialect (context.fragment tree) (Side.negated text).spelling := by
  obtain ⟨below, same⟩ := negates
  unfold Writes
  rw [inlined?_core, same, context.fragment_eq]
  show Writes dialect ("NOT " ++ .nested (context.fragment operand)) _
  have whole := (Writes.text "NOT ").append operandWrites.nested
  simpa [Side.spelling, Side.words, notWord, List.intercalate] using whole

end Negates

/-! ## Operands -/

/-- A tree is written as an operand. -/
inductive Stands (context : Context) : Tree → List Char → Prop
  /-- A name. -/
  | name {tree : Tree} {text : String} (isName : tree.core = .node .ident [.token ⟨.ident, text⟩])
      (valid : columnNameFault? text = none) : Stands context tree text.toList
  /-- An expression in parentheses, with a text that leaves nothing open. -/
  | paren {tree inner : Tree} {text : List Char} (isParen : tree.core = .node .parenExpr [inner])
      (written : (context.fragment inner).inlined? context.dialect = some text)
      (balanced : (Place.outside.deeper 1).cross? text = some (Place.outside.deeper 1)) :
      Stands context tree ('(' :: (text ++ [')']))
  /-- Any other tree that is written as an operand. -/
  | word {tree : Tree} {text : List Char}
      (written : (context.fragment tree).inlined? context.dialect = some text)
      (operand : IsOperand text) : Stands context tree text

namespace Stands

variable {context : Context} {tree : Tree} {text : List Char}

/-- Its text is read as an operand. -/
theorem isOperand (stands : Stands context tree text) : IsOperand text := by
  cases stands with
  | name isName valid => exact isOperand_name valid
  | paren isParen written balanced => exact isOperand_paren balanced
  | word written operand => exact operand

/-- Its text is the one that it is converted to. -/
theorem writes (stands : Stands context tree text) :
    Writes context.dialect (context.fragment tree) text := by
  cases stands with
  | @name name isName valid =>
    unfold Writes
    rw [inlined?_core, isName, context.fragment_eq]
    show Writes _ (reference name) _
    rw [reference, valid]
    exact .text name
  | @paren inner text isParen written balanced =>
    have innerWrites : Writes context.dialect (context.fragment inner) text := by
      intro found same
      exact Option.some.inj (same.symm.trans written)
    unfold Writes
    rw [inlined?_core, isParen, context.fragment_eq]
    show Writes _ ("(" ++ .nested (context.fragment inner) ++ ")") _
    simpa using ((Writes.text "(").append innerWrites.nested).append (.text ")")
  | word written operand =>
    intro found same
    exact Option.some.inj (same.symm.trans written)

end Stands

/-- A tree is a side of a comparison. -/
def Side.Of (context : Context) (tree : Tree) : Side → Prop
  | .plain text => Stands context tree text
  | .negated text => ∃ operand, Negates tree operand ∧ Stands context operand text

namespace Side.Of

variable {context : Context} {tree : Tree} {side : Side}

/-- The operand of a side is read as one. -/
theorem isOperand (isSide : side.Of context tree) : IsOperand side.text := by
  cases side with
  | plain text => exact Stands.isOperand isSide
  | negated text =>
    obtain ⟨operand, -, stands⟩ := isSide
    exact stands.isOperand

/-- A negated side is a negation. -/
theorem negates (isSide : side.Of context tree) (negated : side.isNegated) :
    ∃ operand, Negates tree operand := by
  cases side with
  | plain text => simp [isNegated] at negated
  | negated text =>
    obtain ⟨operand, negates, -⟩ := isSide
    exact ⟨operand, negates⟩

/-- A side is converted to its text. -/
theorem writes (isSide : side.Of context tree) :
    Writes context.dialect (context.fragment tree) side.spelling := by
  cases side with
  | plain text => simpa [spelling, words] using Stands.writes isSide
  | negated text =>
    obtain ⟨operand, negates, stands⟩ := isSide
    exact negates.writes stands.writes

end Side.Of

/-! ## Literals -/

/-- The constant that a token stands for. -/
def Constant.ofToken? (token : Token) : Option Constant :=
  if token.kind = .null then some .null
  else if token.kind = .bool then some (if isTrueText token.text then .true else .false)
  else none

/-- The constant that a tree consists of. -/
def Constant.ofTree? (tree : Tree) : Option Constant :=
  tree.givenLiteral?.bind Constant.ofToken?

/-- The text of a test behind its subject. -/
def testText (negated : Bool) (constant : Constant) : String :=
  (if negated then " IS NOT " else " IS ") ++ constant.text

/-- A tree that is no constant is neither null nor a truth value. -/
theorem filter_givenLiteral?_of_none (noConstant : Constant.ofTree? tree = none) (kind : TokenKind)
    (tested : kind ∈ [TokenKind.null, .bool]) :
    tree.givenLiteral?.filter (·.kind = kind) = none := by
  rw [Option.filter_eq_none_iff]
  intro token given same
  obtain rfl : token.kind = kind := of_decide_eq_true same
  rw [Constant.ofTree?, given, Option.bind_some, Constant.ofToken?] at noConstant
  simp only [List.mem_cons, List.not_mem_nil, or_false] at tested
  rcases tested with isNull | isBool
  · simp [isNull] at noConstant
  · simp [isBool] at noConstant

/-- Trees that are no constants are not tested for equality with one. -/
theorem literalTest?_of_none (noLeft : Constant.ofTree? left = none)
    (noRight : Constant.ofTree? right = none) (negated : Bool) :
    Convert.literalTest? negated left right = none := by
  unfold Convert.literalTest?
  simp only [filter_givenLiteral?_of_none noLeft .null, filter_givenLiteral?_of_none noRight .null,
    filter_givenLiteral?_of_none noLeft .bool, filter_givenLiteral?_of_none noRight .bool,
    List.mem_cons, true_or, or_true]

/-- The equality of a tree with a constant is a test, on whichever side the constant is. -/
theorem literalTest?_of_constant {literal : Tree} (noConstant : Constant.ofTree? tree = none)
    (isConstant : Constant.ofTree? literal = some constant) (negated : Bool) :
    Convert.literalTest? negated tree literal = some (tree, testText negated constant) ∧
      Convert.literalTest? negated literal tree = some (tree, testText negated constant) := by
  obtain ⟨token, given, found⟩ := Option.bind_eq_some_iff.mp isConstant
  have noNull := filter_givenLiteral?_of_none noConstant .null (by simp)
  have noBool := filter_givenLiteral?_of_none noConstant .bool (by simp)
  unfold Constant.ofToken? at found
  split at found
  next isNull =>
    obtain rfl := Option.some.inj found
    have literalNull : literal.givenLiteral?.filter (·.kind = .null) = some token :=
      by simp [given, isNull]
    have sameTest : Convert.nullTest negated = testText negated .null := by cases negated <;> decide
    simp only [Convert.literalTest?, literalNull, noNull, sameTest, and_self]
  · split at found
    next noNullToken isBool =>
      obtain rfl := Option.some.inj found
      have noLiteralNull : literal.givenLiteral?.filter (·.kind = .null) = none :=
        by simp [given, noNullToken]
      have literalBool : literal.givenLiteral?.filter (·.kind = .bool) = some token :=
        by simp [given, isBool]
      have sameTest : Convert.truthTest negated token =
          testText negated (if isTrueText token.text then .true else .false) := by
        by_cases isTrue : isTrueText token.text
        · simp [Convert.truthTest, testText, isTrue, Constant.text]
        · simp [Convert.truthTest, testText, isTrue, Constant.text]
      simp only [Convert.literalTest?, noLiteralNull, literalBool, noNull, noBool,
        sameTest, and_self]
    · simp at found

/-! ## Comparisons of trees -/

/-- The rule of a comparison. -/
def ruleOf : Comparator → Rule
  | .eq => .relationEq
  | .ne => .relationNe
  | .lt => .relationLt
  | .le => .relationLe
  | .gt => .relationGt
  | .ge => .relationGe

/-- The comparison of a rule. -/
theorem comparator?_ruleOf (comparator : Comparator) :
    ruleOf comparator ≠ .relationIn ∧ Convert.comparator? (ruleOf comparator) =
      some comparator := by
  cases comparator <;> decide

/-- Comparisons by a sign are no tests, if equality is not asked with a constant. -/
theorem literalComparison?_ruleOf {comparator : Comparator}
    (noConstant : comparator.isEquality → ∀ tree ∈ [left, right], Constant.ofTree? tree = none) :
    Convert.literalComparison? (ruleOf comparator) left right = none := by
  cases comparator with
  | eq | ne =>
    have neither := noConstant rfl
    exact literalTest?_of_none (neither left (by simp)) (neither right (by simp)) _
  | lt | le | gt | ge => rfl

/-- A negation is no constant. -/
theorem Side.Of.ofTree?_eq_none {side : Side} (isSide : side.Of context tree)
    (negated : side.isNegated) : Constant.ofTree? tree = none := by
  obtain ⟨operand, negates⟩ := isSide.negates negated
  simp [Constant.ofTree?, Tree.givenLiteral?, negates.literal?_eq_none]

/-- What a comparison of two trees asks of which of them. -/
inductive Asks (left right : Tree) (leftSide rightSide : Side) : Rule → Side → Comparison → Prop
  /-- How the left one compares with the right one. -/
  | compare {comparator : Comparator}
      (noConstant : comparator.isEquality → ∀ tree ∈ [left, right], Constant.ofTree? tree = none) :
      Asks left right leftSide rightSide (ruleOf comparator) leftSide
        (.compare comparator rightSide)
  /-- Whether the left one is the constant on the right, or is not. -/
  | test {negated : Bool} {constant : Constant} (noConstant : Constant.ofTree? left = none)
      (isConstant : Constant.ofTree? right = some constant) :
      Asks left right leftSide rightSide (if negated then .relationNe else .relationEq) leftSide
        (.test negated constant)
  /-- Whether the right one is the constant on the left, or is not. -/
  | testBehind {negated : Bool} {constant : Constant} (noConstant : Constant.ofTree? right = none)
      (isConstant : Constant.ofTree? left = some constant) :
      Asks left right leftSide rightSide (if negated then .relationNe else .relationEq) rightSide
        (.test negated constant)
  /-- Whether the left one is an element of the right one. -/
  | member : Asks left right leftSide rightSide .relationIn leftSide (.member rightSide)

/-- The conversion of a comparison whose left or right operand is a negation is by the sign. -/
theorem signComparison_writes {child : Tree → Fragment} {comparator : Comparator} {operand : Tree}
    {text : List Char} (negation : Negates left operand ∨ Negates right operand)
    (writes : Writes dialect (child left ++ (Operator.compare comparator).text ++
      child right) text) :
    Writes dialect (Convert.signComparison context child comparator left right) text := by
  intro found written
  apply writes found
  unfold Convert.signComparison at written
  -- A cast needs text out of a JSON value on one side and a number on the other; a negation is
  -- neither.
  rcases negation with leftNegates | rightNegates
  · have noNumber : left.isNumeric = false := by simp [Tree.isNumeric, leftNegates.literal?_eq_none]
    rw [leftNegates.isJsonText] at written
    cases json : context.catalog.isJsonText right with
    | error fault => simp [json, Fragment.inlined?] at written
    | ok rightJson => simpa [json, noNumber] using written
  · have noNumber : right.isNumeric = false :=
      by simp [Tree.isNumeric, rightNegates.literal?_eq_none]
    rw [rightNegates.isJsonText] at written
    cases json : context.catalog.isJsonText left with
    | error fault => simp [json, Fragment.inlined?] at written
    | ok leftJson => simpa [json, noNumber] using written

/-- The conversion of a test against a constant. -/
theorem comparison_test_writes {side : Side} {negated : Bool}
    (found : Convert.literalComparison? (if negated then .relationNe else .relationEq) left right =
      some (tree, testText negated constant)) (isSide : side.Of context tree) :
    Writes context.dialect
      (Convert.comparison context context.child
        (if negated then .relationNe else .relationEq) left right)
      ((Comparison.test negated constant).spelling context.dialect side) := by
  have noMembership : (if negated then Rule.relationNe else .relationEq) ≠ .relationIn :=
    by cases negated <;> decide
  have spelled : side.spelling ++ (testText negated constant).toList =
      (Comparison.test negated constant).spelling context.dialect side := by
    rw [Comparison.spelling_eq_append rfl]
    cases negated <;> simp [Comparison.tail, testText, isWord, notWord]
  rw [Convert.comparison, if_neg noMembership, found, ← spelled]
  exact isSide.writes.nested.append (.text (testText negated constant))

/-- The conversion of a membership test. -/
theorem membership_writes {value array : Fragment} {subject side : Side}
    (valueWrites : Writes dialect value subject.spelling)
    (arrayWrites : Writes dialect array side.spelling) :
    Writes dialect (dialect.membership value array)
      ((Comparison.member side).spelling dialect subject) := by
  cases dialect with
  | postgresql | duckdb =>
    have whole := ((valueWrites.append (.text " = ANY(")).append arrayWrites).append (.text ")")
    rw [Comparison.spelling_eq_append rfl]
    simpa [Dialect.membership, Comparison.tail, memberWord, arrayWord, arrayAround] using whole
  | mysql =>
    have whole := ((((Writes.text "JSON_CONTAINS(").append arrayWrites).append
      (.text ", JSON_EXTRACT(JSON_ARRAY(")).append valueWrites).append (.text "), '$[0]'))")
    exact whole
  | sqlite =>
    have whole :=
      ((valueWrites.append (.text " IN (SELECT value FROM json_each(")).append arrayWrites).append
      (.text "))")
    rw [Comparison.spelling_eq_append rfl]
    simpa [Dialect.membership, Comparison.tail, memberWord, inWord, arrayWord,
      arrayAround] using whole
  | bigquery =>
    have whole := ((valueWrites.append (.text " IN UNNEST(")).append arrayWrites).append (.text ")")
    rw [Comparison.spelling_eq_append rfl]
    simpa [Dialect.membership, Comparison.tail, memberWord, inWord, arrayWord,
      arrayAround] using whole

namespace Asks

variable {context : Context} {left right : Tree} {leftSide rightSide subject : Side}
  {operator : Rule}
variable {asked : Comparison}

/-- **Every comparison with a negated operand asks something.** -/
theorem exists_of_negated (isComparison : operator ∈ Rule.comparisons)
    (isLeft : leftSide.Of context left) (isRight : rightSide.Of context right)
    (negation : leftSide.isNegated ∨ rightSide.isNegated) :
    ∃ subject asked, Asks left right leftSide rightSide operator subject asked := by
  have ofOrder : ∀ comparator : Comparator, comparator.isEquality = false →
      ∃ subject asked, Asks left right leftSide rightSide (ruleOf comparator) subject asked := by
    intro comparator order
    exact ⟨leftSide, .compare comparator rightSide, .compare (by simp [order])⟩
  have ofEquality : ∀ negated : Bool, ∃ subject asked,
      Asks left right leftSide rightSide (if negated then .relationNe
        else .relationEq) subject asked := by
    intro negated
    -- The side that is negated is no constant, so at most the other one is.
    cases rightConstant : Constant.ofTree? right with
    | some constant =>
      have noLeft : Constant.ofTree? left = none := by
        rcases negation with leftNegated | rightNegated
        · exact isLeft.ofTree?_eq_none leftNegated
        · simp [isRight.ofTree?_eq_none rightNegated] at rightConstant
      exact ⟨leftSide, .test negated constant, .test noLeft rightConstant⟩
    | none =>
      cases leftConstant : Constant.ofTree? left with
      | some constant =>
        exact ⟨rightSide, .test negated constant, .testBehind rightConstant leftConstant⟩
      | none =>
        have neither : ∀ tree ∈ [left, right], Constant.ofTree? tree = none :=
          by simp [leftConstant, rightConstant]
        have bySign (comparator : Comparator) :
            Asks left right leftSide rightSide (ruleOf comparator) leftSide
              (.compare comparator rightSide) :=
          .compare fun _ => neither
        cases negated with
        | false => exact ⟨leftSide, .compare .eq rightSide, bySign .eq⟩
        | true => exact ⟨leftSide, .compare .ne rightSide, bySign .ne⟩
  simp only [Rule.comparisons, List.mem_cons, List.not_mem_nil, or_false] at isComparison
  rcases isComparison with rfl | rfl | rfl | rfl | rfl | rfl | rfl
  · exact ofOrder .lt rfl
  · exact ofOrder .le rfl
  · exact ofOrder .gt rfl
  · exact ofOrder .ge rfl
  · exact ofEquality false
  · exact ofEquality true
  · exact ⟨leftSide, .member rightSide, .member⟩

/-- **A comparison with a negated operand is converted to the text of what it asks.** -/
theorem writes (asks : Asks left right leftSide rightSide operator subject asked)
    (isLeft : leftSide.Of context left) (isRight : rightSide.Of context right)
    (negation : leftSide.isNegated ∨ rightSide.isNegated) :
    Writes context.dialect
      (Convert.comparison context context.child operator left right)
      (asked.spelling context.dialect subject) := by
  cases asks with
  | @compare comparator noConstant =>
    obtain ⟨noMembership, found⟩ := comparator?_ruleOf comparator
    rw [Convert.comparison, if_neg noMembership, literalComparison?_ruleOf noConstant]
    simp only [found]
    obtain ⟨operand, negates⟩ : ∃ operand, Negates left operand ∨ Negates right operand := by
      rcases negation with leftNegated | rightNegated
      · obtain ⟨operand, negates⟩ := isLeft.negates leftNegated
        exact ⟨operand, .inl negates⟩
      · obtain ⟨operand, negates⟩ := isRight.negates rightNegated
        exact ⟨operand, .inr negates⟩
    have whole := (isLeft.writes.nested.append (.text (Operator.compare comparator).text)).append
      isRight.writes.nested
    have spelled : leftSide.spelling ++ (Operator.compare comparator).text.toList
        ++ rightSide.spelling =
        (Comparison.compare comparator rightSide).spelling context.dialect leftSide := by
      rw [Comparison.spelling_eq_append rfl]
      cases rightSide <;>
        simp [Comparison.tail, Side.spelling, Side.words, Operator.text, Operator.sign]
    rw [spelled] at whole
    exact signComparison_writes negates whole
  | @test negated constant noConstant isConstant =>
    refine comparison_test_writes ?_ isLeft
    cases negated with
    | false | true => exact (literalTest?_of_constant noConstant isConstant _).1
  | @testBehind negated constant noConstant isConstant =>
    refine comparison_test_writes ?_ isRight
    cases negated with
    | false | true => exact (literalTest?_of_constant noConstant isConstant _).2
  | member =>
    rw [Convert.comparison, if_pos rfl]
    exact membership_writes isLeft.writes.nested isRight.writes.nested

/-- The operands of what is asked are read as such. -/
theorem isOperand (asks : Asks left right leftSide rightSide operator subject asked)
    (isLeft : leftSide.Of context left) (isRight : rightSide.Of context right) :
    IsOperand subject.text ∧ asked.Whole := by
  cases asks with
  | compare noConstant => exact ⟨isLeft.isOperand, isRight.isOperand⟩
  | test noConstant isConstant => exact ⟨isLeft.isOperand, trivial⟩
  | testBehind noConstant isConstant => exact ⟨isRight.isOperand, trivial⟩
  | member => exact ⟨isLeft.isOperand, isRight.isOperand⟩

end Asks

end Negation

open Negation

namespace Settings

/-- **Negated operands in conditions.** Take a comparison or membership test an operand of which is
negated, where names, parenthesised expressions and other words stand as operands. Where it is
converted with its literals written out, the condition is the text of what is asked of the subject.
A subject that is enclosed in a call is read as it is meant. Otherwise the negation of the subject
is read as the negation of the whole, so that the condition is read as the comparison that is meant
if and only if the subject is not negated; and for a negated subject the two have the same value,
whatever the values of operands, if and only if equality or inequality with another operand is
asked. -/
theorem convertTree_negated (settings : Settings) {tree left right : Tree} {operator : Rule}
    {leftSide rightSide : Side} {condition : Condition}
    (relation : tree.core = .node .relation [.node operator [left], right])
    (isComparison : operator ∈ Rule.comparisons) (isLeft : leftSide.Of settings.context left)
    (isRight : rightSide.Of settings.context right)
    (negation : leftSide.isNegated ∨ rightSide.isNegated)
    (converted : ({ settings with mode := .inline } : Settings).convertTree tree = .ok condition) :
    ∃ subject asked, Asks left right leftSide rightSide operator subject asked ∧
      condition.sql.toList = asked.spelling settings.dialect subject ∧
      (asked.encloses settings.dialect → read? subject.spelling = some subject.predicate) ∧
      (asked.encloses settings.dialect = false →
        let reading := asked.reading settings.dialect subject
        let meant := asked.predicate settings.dialect subject.predicate
        read? condition.sql.toList = some reading ∧ (reading = meant ↔ subject.isNegated = false) ∧
        ∀ text, subject = .negated text → Constant.ofText? text = none → asked.IsFree →
          (reading.Equivalent meant ↔ asked.isEquality)) := by
  obtain ⟨subject, asked, asks⟩ := Asks.exists_of_negated isComparison isLeft isRight negation
  obtain ⟨operand, whole⟩ := asks.isOperand isLeft isRight
  have inlined : (settings.context.fragment tree).inlined? settings.dialect =
      some condition.sql.toList :=
    (inlined?_of_convertTree rfl converted :)
  have spelled : condition.sql.toList = asked.spelling settings.dialect subject := by
    rw [inlined?_core, relation, settings.context.fragment_eq] at inlined
    exact asks.writes isLeft isRight negation _ inlined
  refine ⟨subject, asked, asks, spelled, fun _ => Side.read?_side operand, ?_⟩
  intro opened reading meant
  refine ⟨?_, Comparison.reading_eq_iff, ?_⟩
  · rw [spelled]
    exact Comparison.read?_spelling opened operand whole
  · rintro text rfl free otherFree
    exact Comparison.equivalent_reading_iff free otherFree

/-- The negation of a parenthesised expression, looked for in an array. -/
theorem convertTree_negated_member :
    let name (text : String) : Tree := .node .ident [.token ⟨.ident, text⟩]
    let negation : Tree :=
      .node .unary [.node .unaryNot [],
        .node .parenExpr [.node .conditionalOr [name "a", name "b"]]]
    let tree : Tree := .node .relation [.node .relationIn [negation], name "l"]
    let settings : Settings := { dialect := .sqlite }
    let subject := Side.negated ('(' :: ("a OR b".toList ++ [')']))
    let array := Side.plain "l".toList
    ∃ condition, settings.convertTree tree = .ok condition ∧
      condition.sql = "NOT (a OR b) IN (SELECT value FROM json_each(l))" ∧
      subject.Of settings.context negation ∧ array.Of settings.context (name "l") ∧
      ∃ found asked, Asks negation (name "l") subject array .relationIn found asked ∧
        condition.sql.toList = asked.spelling .sqlite found ∧
        read? condition.sql.toList = some (asked.reading .sqlite found) ∧
        (asked.reading .sqlite found = asked.predicate .sqlite found.predicate ↔
          found.isNegated = false) := by
  intro name negation tree settings subject array
  have written : (settings.convertTree tree).toOption.map (·.sql) =
      some "NOT (a OR b) IN (SELECT value FROM json_each(l))" := by
    decide +kernel
  have isNegation : subject.Of settings.context negation := by
    refine ⟨.node .parenExpr [.node .conditionalOr [name "a", name "b"]], ⟨[], rfl⟩,
      .paren rfl ?_ ?_⟩
    · decide +kernel
    · decide
  have isArray : array.Of settings.context (name "l") := Stands.name rfl (by decide +kernel)
  cases converted : settings.convertTree tree with
  | error fault => simp [converted, Except.toOption] at written
  | ok condition =>
    have sql : condition.sql = "NOT (a OR b) IN (SELECT value FROM json_each(l))" := by
      simpa [converted, Except.toOption] using written
    obtain ⟨found, asked, asks, spelled, -, opened⟩ :=
      convertTree_negated settings rfl (by decide) isNegation isArray (.inl rfl) converted
    obtain ⟨read, kept, -⟩ := opened (by cases asked <;> rfl)
    exact ⟨condition, rfl, sql, isNegation, isArray, found, asked, asks, spelled, read, kept⟩

/-- Negated names that are tested for null, ordered, or looked for in an array: the conditions are
read as negations of comparisons of the names, and have other values than the comparisons of the
negated names. -/
theorem not_meant_negated :
    ({} : Settings).convert "!a == null" = .ok "NOT a IS NULL" ∧
    read? "NOT a IS NULL".toList = some (.not (.test false .null (.operand ['a']))) ∧
    ¬ Predicate.Equivalent (.not (.test false .null (.operand ['a'])))
    (.test false .null (.not (.operand ['a']))) ∧
    ({} : Settings).convert "!a < b" = .ok "NOT a < b" ∧
    read? "NOT a < b".toList = some (.not (.compare .lt (.operand ['a']) (.operand ['b']))) ∧
    ¬ Predicate.Equivalent (.not (.compare .lt (.operand ['a']) (.operand ['b'])))
      (.compare .lt (.not (.operand ['a'])) (.operand ['b'])) ∧
    ({} : Settings).convert "!a in l" = .ok "NOT a = ANY(l)" ∧
    read? "NOT a = ANY(l)".toList = some (.not (.member "ANY(l)".toList (.operand ['a']))) ∧
    ¬ Predicate.Equivalent (.not (.member "ANY(l)".toList (.operand ['a'])))
      (.member "ANY(l)".toList (.not (.operand ['a']))) := by
  have ordered : ¬ Predicate.Equivalent (.not (.compare .lt (.operand ['a']) (.operand ['b'])))
      (.compare .lt (.not (.operand ['a'])) (.operand ['b'])) := by
    rw [Predicate.equivalent_not_compare_iff (by decide) (Predicate.uniform_operand (by decide))]
    decide
  refine ⟨?_, ?_, Predicate.not_equivalent_not_test (by decide), ?_, ?_, ordered, ?_, ?_,
    Predicate.not_equivalent_not_member⟩
  all_goals decide +kernel

end Settings

end CelWhere
