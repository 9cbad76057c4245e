import CelWhere.Conversion
import CelWhere.Convert.Locality.Basic
import CelWhere.Proofs.Blame.Number
import CelWhere.Proofs.Blank
import CelWhere.Proofs.Reader

/-! # What is taken for a literal

The literal of a tree is looked for through nodes with a single child. These are the levels of
precedence and the parentheses around an expression, but also lists of one element, constructions
without fields and the operators around their left operands. So a literal is found where it is not
all that is written.

* `Tree.strip`, `Tree.Shows` — a tree without the nodes of some rules around it, and the literal
  that is left;
* `Tree.Grammatical.literal?_eq_some_iff` — the literal that is found is the one that is left;
* `Convert.Tested`, `Fragment.own` — which operand of an equality is tested, and what its conversion
  writes itself;
* `Demand` — the calls that demand a string literal. -/

namespace CelWhere

variable {rule operator : Rule} {α : Type} {operand : Tree} {cause : Fault} (dialect : Dialect)
  {tree left right : Tree} {token : Token}

/-! ## Nodes around an expression -/

namespace Rule

/-- The rules that group: the levels of precedence and the parentheses. -/
def isGrouping (rule : Rule) : Bool :=
  rule.isLevel || rule = .parenExpr

/-- The other rules that a literal can be the only child of, through further such nodes. -/
def wrappers : List Rule :=
  .listLit :: .exprList :: .memberObject :: .additionAdd :: .additionSub ::
    (comparisons ++ products)

/-- The rules that a literal is seen through. -/
def isTransparent (rule : Rule) : Bool :=
  rule.isGrouping || wrappers.contains rule

/-- The rules of operands: levels, selections and what they start from. -/
def isOperand (rule : Rule) : Bool :=
  rule.isLevel || members.contains rule || primaries.contains rule

/-- No literal is seen through another one. -/
theorem ne_literal_of_isTransparent (transparent : rule.isTransparent) : rule ≠ .literal := by
  rintro rfl
  exact absurd transparent (by decide)

theorem isTransparent_of_isGrouping (grouping : rule.isGrouping) : rule.isTransparent := by
  simp [isTransparent, grouping]

/-- Among the rules that a literal is seen through, only two make operands and do not group. -/
theorem eq_of_isOperand (transparent : rule.isTransparent) (operand : rule.isOperand)
    (noGrouping : ¬rule.isGrouping) :
    rule = .listLit ∨ rule = .memberObject := by
  have wrapper : rule ∈ wrappers := by simpa [isTransparent, noGrouping] using transparent
  simp only [wrappers, comparisons, products, List.cons_append, List.nil_append, List.mem_cons,
    List.not_mem_nil, or_false] at wrapper
  rcases wrapper with rfl | rfl | rfl | rfl | rfl | rfl | rfl | rfl | rfl | rfl | rfl | rfl
    | rfl | rfl | rfl
  · exact .inl rfl
  · exact absurd operand (by decide)
  · exact .inr rfl
  all_goals exact absurd operand (by decide)

end Rule

namespace Tree

variable {child : Tree} {children : List Tree}

/-- The tree of a literal. -/
def ofLiteral (token : Token) : Tree :=
  .node .literal [.token token]

/-- A tree without the nodes with a single child around it whose rules are to be left out. -/
def strip (through : Rule → Bool) : Tree → Tree
  | .node rule [child] => if through rule then child.strip through else .node rule [child]
  | tree => tree

/-- A literal is all that is left of a tree without the nodes that literals are seen through. -/
def Shows (tree : Tree) (token : Token) : Prop :=
  tree.strip Rule.isTransparent = ofLiteral token

/-- At most one literal is left. -/
theorem Shows.unique {other : Token} (shows : tree.Shows token) (also : tree.Shows other) :
    token = other := by
  have same : ofLiteral token = ofLiteral other := shows.symm.trans also
  simpa [ofLiteral] using same

section

variable {through : Rule → Bool}

/-- A question that the left out nodes pass on to their only child is one about what is left. -/
theorem eq_strip (question : Tree → α)
    (passedOn : ∀ rule child, through rule → question (.node rule [child]) = question child)
    (tree : Tree) :
    question tree = question (tree.strip through) := by
  induction tree with
  | token leaf => rfl
  | node rule children ih =>
    unfold strip
    split
    next found child same =>
      obtain ⟨rfl, rfl⟩ := Tree.node.inj same
      split
      next leftOut => rw [passedOn rule child leftOut, ih child (.head _)]
      · rfl
    · rfl

/-- What passes from left out nodes to their only child passes to what is left. -/
theorem strip_of_passes {property : Tree → Prop}
    (passes : ∀ rule child, through rule → property (.node rule [child]) → property child)
    (holds : property tree) : property (tree.strip through) := by
  induction tree with
  | token leaf => exact holds
  | node rule children ih =>
    unfold strip
    split
    next found child same =>
      obtain ⟨rfl, rfl⟩ := Tree.node.inj same
      split
      next leftOut => exact ih child (.head _) (passes rule child leftOut holds)
      · exact holds
    · exact holds

/-- What is left is no node that would have been left out. -/
theorem not_through_of_strip (left : tree.strip through = .node rule [child]) : ¬through rule := by
  induction tree with
  | token leaf => simp [strip] at left
  | node found children ih =>
    unfold strip at left
    split at left
    next inner only same =>
      obtain ⟨rfl, rfl⟩ := Tree.node.inj same
      split at left
      · exact ih only (.head _) left
      next kept =>
        obtain ⟨rfl, -⟩ := Tree.node.inj left
        exact kept
    next several =>
      obtain ⟨rfl, rfl⟩ := Tree.node.inj left
      exact absurd rfl (several found child)

end

/-! ## The literal that is found -/

/-- A node with a single child has the literal of the child. -/
theorem literal?_single (other : rule ≠ .literal) (child : Tree) :
    (Tree.node rule [child]).literal? = child.literal? := by
  rw [Tree.literal?.eq_def]
  split <;> simp_all

/-- A node in which a literal is found has a single child. -/
theorem single_of_literal? (other : rule ≠ .literal)
    (found : (Tree.node rule children).literal? = some token) : ∃ child, children = [child] := by
  rw [Tree.literal?.eq_def] at found
  split at found
  next same => exact absurd (Tree.node.inj same).1 other
  · simp at found
  next child _ _ same => exact ⟨child, (Tree.node.inj same).2⟩
  · simp at found

/-- A literal is looked for in what is left without nodes that literals are seen through. -/
theorem literal?_strip {through : Rule → Bool} (seen : ∀ rule, through rule → rule ≠ .literal)
    (tree : Tree) :
    tree.literal? = (tree.strip through).literal? :=
  eq_strip Tree.literal? (fun rule child leftOut => literal?_single (seen rule leftOut) child) tree

namespace Grammatical

variable {tree : Tree} {token : Token}

/-- What is left of a tree follows the grammar. -/
theorem strip {through : Rule → Bool} (grammatical : tree.Grammatical) :
    (tree.strip through).Grammatical :=
  strip_of_passes (fun _ _ _ holds => holds.child (.head _)) grammatical

/-- Below the only child of a rule that literals are not seen through there is none. -/
theorem literal?_eq_none (grammatical : (Tree.node rule [child]).Grammatical)
    (noLiteral : rule ≠ .literal) (hides : ¬rule.isTransparent) : child.literal? = none := by
  obtain ⟨produced, each⟩ := grammatical_node.mp grammatical
  cases rule with
  | literal => exact absurd rfl noLiteral
  | dotIdentArg | dotIdent | identArg | ident =>
    -- The child is a name.
    obtain ⟨text, rfl⟩ := label_eq_token.mp (by simpa [Rule.Produces] using produced)
    rfl
  | mapLit =>
    -- Keys and values come in pairs.
    obtain ⟨entries, rfl⟩ := label_eq_rule.mp (by simpa [Rule.Produces] using produced)
    obtain ⟨given, alternate⟩ := (grammatical_node.mp (each _ (.head _))).1
    cases entries with
    | nil => simp at given
    | cons key rest =>
      cases rest with
      | nil => simp [Label.Alternate] at alternate
      | cons value rest => rfl
  | unaryNot | unaryNeg | memberDot | memberDotArg | memberIndex | fieldInits | mapInits | other =>
    simp [Rule.Produces, Label.Alternate] at produced
  | _ => exact absurd rfl hides

/-- A tree in which a literal is found is the literal, or a node that literals are seen through
around such a tree. -/
theorem literal?_cases (grammatical : tree.Grammatical) (found : tree.literal? = some token) :
    tree = ofLiteral token ∨
      ∃ rule child, tree = .node rule [child] ∧ rule.isTransparent ∧
      child.literal? = some token := by
  cases tree with
  | token leaf => simp [Tree.literal?] at found
  | node rule children =>
    by_cases isLiteral : rule = .literal
    · subst isLiteral
      obtain ⟨kind, -, labels⟩ := (grammatical_node.mp grammatical).1
      obtain ⟨child, rfl, label⟩ := map_label_one.mp labels
      obtain ⟨text, rfl⟩ := label_eq_token.mp label
      obtain rfl : ⟨kind, text⟩ = token := by simpa [Tree.literal?] using found
      exact .inl rfl
    · obtain ⟨child, rfl⟩ := single_of_literal? isLiteral found
      rw [literal?_single isLiteral] at found
      have transparent : rule.isTransparent := by
        by_contra hides
        simp [grammatical.literal?_eq_none isLiteral hides] at found
      exact .inr ⟨rule, child, rfl, transparent, found⟩

/-- **The literal that is found is the one that is left.** -/
theorem literal?_eq_some_iff (grammatical : tree.Grammatical) :
    tree.literal? = some token ↔ tree.Shows token := by
  rw [literal?_strip (fun _ => Rule.ne_literal_of_isTransparent)]
  constructor
  · intro found
    rcases grammatical.strip.literal?_cases found with same | ⟨rule, child, same, transparent, -⟩
    · exact same
    · exact absurd transparent (not_through_of_strip same)
  · intro shows
    rw [shows]
    rfl

/-- The only child of a rule that groups is an operand. -/
theorem isOperand_of_isGrouping (grammatical : (Tree.node rule [child]).Grammatical)
    (grouping : rule.isGrouping) :
    ∃ inner children, child = .node inner children ∧ inner.isOperand := by
  have produced := (grammatical_node.mp grammatical).1
  have isNode (inner : Rule) (operand : inner.isOperand) (label : child.label = .rule inner) :
      ∃ inner children, child = .node inner children ∧ inner.isOperand := by
    obtain ⟨children, rfl⟩ := label_eq_rule.mp label
    exact ⟨inner, children, rfl, operand⟩
  cases rule with
  | expr | conditionalOr | conditionalAnd | relation | addition | multiplication | unary
  | parenExpr =>
    exact isNode _ rfl (by simpa [Rule.Produces] using produced)
  | member =>
    obtain ⟨inner, isMember, label⟩ := produced
    exact isNode inner (by simp [Rule.isOperand, isMember]) (by simpa using label)
  | primary =>
    obtain ⟨inner, isPrimary, label⟩ := produced
    exact isNode inner (by simp [Rule.isOperand, isPrimary]) (by simpa using label)
  | _ => exact absurd grouping (by simp [Rule.isGrouping, Rule.isLevel])

/-- What is left of an operand without grouping is an operand. -/
theorem isOperand_strip (grammatical : (Tree.node rule children).Grammatical)
    (operand : rule.isOperand) :
    ∃ inner below, (Tree.node rule children).strip Rule.isGrouping = .node inner below ∧
      inner.isOperand := by
  have passed := @strip_of_passes (.node rule children) Rule.isGrouping
    (fun tree => tree.Grammatical ∧ ∃ inner below, tree = .node inner below ∧ inner.isOperand)
    (fun _ _ grouping holds => ⟨holds.1.child (.head _), holds.1.isOperand_of_isGrouping grouping⟩)
    ⟨grammatical, rule, children, rfl, operand⟩
  exact passed.2

/-- A list in which a literal is found has one element, which shows the literal. -/
theorem element_of_literal? (grammatical : (Tree.node .listLit [child]).Grammatical)
    (found : child.literal? = some token) :
    ∃ item, child = .node .exprList [item] ∧ item.Shows token := by
  have elements := grammatical.child (.head _)
  obtain ⟨items, rfl⟩ :=
    label_eq_rule.mp (by simpa [Rule.Produces] using (grammatical_node.mp grammatical).1)
  rcases elements.literal?_cases found with isLiteral | ⟨_, item, same, -, inItem⟩
  · simp [ofLiteral] at isLiteral
  · obtain ⟨rfl, rfl⟩ := Tree.node.inj same
    exact ⟨item, rfl, (elements.child (.head _)).literal?_eq_some_iff.mp inItem⟩

/-- **Operands that show a literal.** Without grouping they are the literal, a list of one element
that shows it, or a construction without fields from a value that shows it. -/
theorem shows_iff (grammatical : (Tree.node rule children).Grammatical) (operand : rule.isOperand) :
    let bare := (Tree.node rule children).strip Rule.isGrouping
    (Tree.node rule children).Shows token ↔ bare = ofLiteral token ∨
      (∃ item, bare = .node .listLit [.node .exprList [item]] ∧ item.Shows token) ∨
      ∃ object, bare = .node .memberObject [object] ∧ object.Shows token := by
  intro bare
  have bareGrammatical : bare.Grammatical := grammatical.strip
  rw [← grammatical.literal?_eq_some_iff,
    literal?_strip (fun _ grouping => Rule.ne_literal_of_isTransparent
      (Rule.isTransparent_of_isGrouping grouping))]
  show bare.literal? = some token ↔ _
  constructor
  · intro found
    rcases bareGrammatical.literal?_cases found with same | ⟨inner, child, same, transparent, below⟩
    · exact .inl same
    · obtain ⟨kept, beneath, isKept, keptOperand⟩ := grammatical.isOperand_strip operand
      obtain ⟨rfl, -⟩ := Tree.node.inj (same.symm.trans isKept)
      rw [same] at bareGrammatical
      rcases Rule.eq_of_isOperand transparent keptOperand (not_through_of_strip same) with rfl | rfl
      · obtain ⟨item, rfl, shows⟩ := bareGrammatical.element_of_literal? below
        exact .inr (.inl ⟨item, same, shows⟩)
      · exact .inr (.inr ⟨child, same,
          (bareGrammatical.child (.head _)).literal?_eq_some_iff.mp below⟩)
  · rintro (same | ⟨item, same, shows⟩ | ⟨object, same, shows⟩)
    · rw [same]
      rfl
    · rw [same] at bareGrammatical ⊢
      exact ((bareGrammatical.child (.head _)).child (.head _)).literal?_eq_some_iff.mpr shows
    · rw [same] at bareGrammatical ⊢
      exact (bareGrammatical.child (.head _)).literal?_eq_some_iff.mpr shows

end Grammatical

end Tree

/-! ## Equalities with null or a truth value -/

/-- Whether a token is null or a truth value. -/
def Token.isConstant (token : Token) : Bool :=
  token.kind = .null || token.kind = .bool

/-- The rules of the left operands of equalities. -/
def Rule.isEquality (rule : Rule) : Bool :=
  rule = .relationEq || rule = .relationNe

/-- The operator and the operands of a comparison or membership test. -/
def Tree.comparison? : Tree → Option (Rule × Tree × Tree)
  | .node .relation [.node operator [left], right] => some (operator, left, right)
  | _ => none

namespace Fragment

/-- The texts that a fragment writes outside of the expressions in it. -/
def own : Fragment → List String
  | .text sql => [sql]
  | .append first second => first.own ++ second.own
  | .comprehension body | .binding _ body => body.own
  | .literal _ | .nested _ | .unlessBound .. | .known .. | .fail _ => []

end Fragment

namespace Convert

/-- The test against null or a truth value. -/
def testOf (negated : Bool) (token : Token) : String :=
  if token.kind = .null then nullTest negated else truthTest negated token

theorem testOf_mem (negated : Bool) (token : Token) : testOf negated token ∈ literalTests := by
  unfold testOf nullTest truthTest
  cases negated <;> cases isTrueText token.text <;> split <;> decide

/-- Which operand of an equality is tested against which literal: null goes before the truth values,
and the right operand before the left one. -/
structure Tested (left right operand : Tree) (token : Token) : Prop where
  /-- The literal is null or a truth value. -/
  constant : token.isConstant
  /-- The other operand shows the literal. -/
  other : operand = left ∧ right.Shows token ∨
    operand = right ∧ left.Shows token ∧ ∀ beside, right.Shows beside → beside.kind ≠ token.kind
  /-- What is tested against a truth value does not show null. -/
  nullFirst : token.kind = .bool → ∀ shown, operand.Shows shown → shown.kind ≠ .null

/-- Literals that both sides are tested against are of one kind; of different kinds, one is null and
goes first. -/
theorem Tested.kind_eq_of_opposite {beside : Token} (tested : Tested left right left token)
    (shows : right.Shows token) (opposite : Tested left right right beside)
    (shown : left.Shows beside) :
    token.kind = beside.kind := by
  by_contra differ
  have constant := tested.constant
  have also := opposite.constant
  simp only [Token.isConstant, Bool.or_eq_true, decide_eq_true_eq] at constant also
  rcases constant with isNull | isBool
  · have isBool : beside.kind = .bool :=
      also.resolve_left fun same => differ (isNull.trans same.symm)
    exact opposite.nullFirst isBool token shows isNull
  · have isNull : beside.kind = .null :=
      also.resolve_right fun same => differ (isBool.trans same.symm)
    exact tested.nullFirst isBool beside shown isNull

/-- One operand is tested, against one literal. -/
theorem Tested.unique {also : Tree} {beside : Token} (tested : Tested left right operand token)
    (alsoTested : Tested left right also beside) : operand = also ∧ token = beside := by
  rcases tested.other with ⟨rfl, shows⟩ | ⟨rfl, shows, noSame⟩
  · rcases alsoTested.other with ⟨rfl, shown⟩ | ⟨rfl, shown, noSame⟩
    · exact ⟨rfl, shows.unique shown⟩
    · exact absurd (tested.kind_eq_of_opposite shows alsoTested shown) (noSame token shows)
  · rcases alsoTested.other with ⟨rfl, shown⟩ | ⟨rfl, shown, -⟩
    · exact absurd (alsoTested.kind_eq_of_opposite shown tested shows) (noSame beside shown)
    · exact ⟨rfl, shows.unique shown⟩

section

variable {left right : Tree} (leftGrammatical : left.Grammatical)
  (rightGrammatical : right.Grammatical)

/-- The literal of a kind that is given is the one that is shown. -/
theorem filter_givenLiteral? (grammatical : tree.Grammatical) (kind : TokenKind) (token : Token) :
    tree.givenLiteral?.filter (·.kind = kind) = some token ↔
      tree.Shows token ∧ token.kind = kind := by
  rw [grammatical.givenLiteral?, Option.filter_eq_some_iff, grammatical.literal?_eq_some_iff,
    decide_eq_true_eq]

/-- No literal of a kind is given exactly if none is shown. -/
theorem filter_givenLiteral?_none (grammatical : tree.Grammatical) (kind : TokenKind) :
    tree.givenLiteral?.filter (·.kind = kind) = none ↔
      ∀ token, tree.Shows token → token.kind ≠ kind := by
  simp only [Option.eq_none_iff_forall_ne_some, ne_eq, filter_givenLiteral? grammatical, not_and]

include leftGrammatical rightGrammatical

/-- An equality tests an operand, or none of its operands shows null or a truth value. -/
theorem literalTest?_spec (negated : Bool) :
    (∃ operand token, Tested left right operand token ∧
      literalTest? negated left right = some (operand, testOf negated token)) ∨
    (∀ token, left.Shows token ∨ right.Shows token → ¬token.isConstant) ∧
    literalTest? negated left right = none := by
  cases nullRight : right.givenLiteral?.filter (·.kind = .null) with
  | some token =>
    obtain ⟨shows, isNull⟩ := (filter_givenLiteral? rightGrammatical _ _).mp nullRight
    refine .inl ⟨left, token,
      ⟨by simp [Token.isConstant, isNull], .inl ⟨rfl, shows⟩, by simp [isNull]⟩, ?_⟩
    simp only [literalTest?, nullRight, testOf, if_pos isNull]
  | none =>
    have noNullRight := (filter_givenLiteral?_none rightGrammatical _).mp nullRight
    cases nullLeft : left.givenLiteral?.filter (·.kind = .null) with
    | some token =>
      obtain ⟨shows, isNull⟩ := (filter_givenLiteral? leftGrammatical _ _).mp nullLeft
      have beside : ∀ beside, right.Shows beside → beside.kind ≠ token.kind := by rwa [isNull]
      refine .inl ⟨right, token,
        ⟨by simp [Token.isConstant, isNull], .inr ⟨rfl, shows, beside⟩, by simp [isNull]⟩, ?_⟩
      simp only [literalTest?, nullRight, nullLeft, testOf, if_pos isNull]
    | none =>
      have noNullLeft := (filter_givenLiteral?_none leftGrammatical _).mp nullLeft
      cases boolRight : right.givenLiteral?.filter (·.kind = .bool) with
      | some token =>
        obtain ⟨shows, isBool⟩ := (filter_givenLiteral? rightGrammatical _ _).mp boolRight
        refine .inl ⟨left, token,
          ⟨by simp [Token.isConstant, isBool], .inl ⟨rfl, shows⟩, fun _ => noNullLeft⟩, ?_⟩
        simp only [literalTest?, nullRight, nullLeft, boolRight, testOf, isBool,
          reduceCtorEq, if_false]
      | none =>
        have noBoolRight := (filter_givenLiteral?_none rightGrammatical _).mp boolRight
        cases boolLeft : left.givenLiteral?.filter (·.kind = .bool) with
        | some token =>
          obtain ⟨shows, isBool⟩ := (filter_givenLiteral? leftGrammatical _ _).mp boolLeft
          have beside : ∀ beside, right.Shows beside → beside.kind ≠ token.kind := by rwa [isBool]
          refine .inl ⟨right, token,
            ⟨by simp [Token.isConstant, isBool], .inr ⟨rfl, shows, beside⟩, fun _ => noNullRight⟩,
            ?_⟩
          simp only [literalTest?, nullRight, nullLeft, boolRight, boolLeft, testOf, isBool,
            reduceCtorEq, if_false]
        | none =>
          have noBoolLeft := (filter_givenLiteral?_none leftGrammatical _).mp boolLeft
          refine .inr ⟨?_, by simp only [literalTest?, nullRight, nullLeft, boolRight, boolLeft]⟩
          simp only [Token.isConstant, Bool.or_eq_true, decide_eq_true_eq, not_or]
          rintro token (shows | shows)
          · exact ⟨noNullLeft token shows, noBoolLeft token shows⟩
          · exact ⟨noNullRight token shows, noBoolRight token shows⟩

end

end Convert

namespace Fragment

/-- A fragment writes none of the tests against null and the truth values itself. -/
def WritesNoTest (fragment : Fragment) : Prop :=
  ∀ text ∈ fragment.own, text ∉ Convert.literalTests

section

variable {first second : Fragment}

theorem writesNoTest_text {sql : String} (noTest : sql ∉ Convert.literalTests) :
    (Fragment.text sql).WritesNoTest := by
  intro text member
  obtain rfl := List.mem_singleton.mp member
  exact noTest

@[simp] theorem writesNoTest_nested (body : Fragment) : (Fragment.nested body).WritesNoTest := by
  simp [WritesNoTest, own]

@[simp] theorem writesNoTest_fail (fault : Fault) : (Fragment.fail fault).WritesNoTest := by
  simp [WritesNoTest, own]

@[simp] theorem writesNoTest_append :
    (first ++ second).WritesNoTest ↔ first.WritesNoTest ∧ second.WritesNoTest := by
  show (∀ text ∈ first.own ++ second.own, text ∉ Convert.literalTests) ↔ _
  simp only [List.mem_append, or_imp, forall_and]
  rfl

theorem writesNoTest_attempt {result : Except Fault α} {next : α → Fragment}
    (each : ∀ value, (next value).WritesNoTest) :
    (attempt result next).WritesNoTest := by
  cases result with
  | error fault => exact writesNoTest_fail fault
  | ok value => exact each value

end

end Fragment

namespace Dialect

open Fragment

/-- A membership test is no test against null or a truth value. -/
theorem membership_writesNoTest {value array : Fragment} (one : value.WritesNoTest)
    (two : array.WritesNoTest) :
    (dialect.membership value array).WritesNoTest := by
  cases dialect <;> simp only [membership, writesNoTest_append, one, two, true_and, and_true] <;>
    (repeat' apply And.intro) <;> exact writesNoTest_text (by decide)

/-- A cast is no test against null or a truth value. -/
theorem castToNumeric_writesNoTest {value : Fragment} (one : value.WritesNoTest) :
    (dialect.castToNumeric value).WritesNoTest := by
  cases dialect <;> simp only [castToNumeric, writesNoTest_append, one, true_and, and_true] <;>
    (repeat' apply And.intro) <;> exact writesNoTest_text (by decide)

end Dialect

namespace Convert

open Fragment

variable {context : Context}

/-- A comparison by a sign is no test against null or a truth value. -/
theorem signComparison_writesNoTest {child : Tree → Fragment}
    (nested : ∀ tree, (child tree).WritesNoTest) (comparator : Comparator) (left right : Tree) :
    (signComparison context child comparator left right).WritesNoTest := by
  have cast (tree : Tree) :
      (context.dialect.castToNumeric ("(" ++ child tree ++ ")")).WritesNoTest := by
    apply Dialect.castToNumeric_writesNoTest
    simp only [writesNoTest_append, nested, and_true]
    exact ⟨writesNoTest_text (by decide), writesNoTest_text (by decide)⟩
  have between : (Fragment.text (Operator.compare comparator).text).WritesNoTest :=
    writesNoTest_text (by cases comparator <;> decide)
  apply writesNoTest_attempt
  intro leftJson
  split
  · simp [cast, nested, between]
  · apply writesNoTest_attempt
    intro rightJson
    split
    · simp [cast, nested, between]
    · simp [nested, between]

/-- A comparison that tests no operand writes no such test. -/
theorem comparison_writesNoTest {child : Tree → Fragment}
    (nested : ∀ tree, (child tree).WritesNoTest)
    (noLiteral : literalComparison? operator left right = none) :
    (comparison context child operator left right).WritesNoTest := by
  unfold comparison
  split
  · exact context.dialect.membership_writesNoTest (nested left) (nested right)
  · rw [noLiteral]
    cases comparator? operator with
    | none => exact writesNoTest_fail _
    | some comparator => exact signComparison_writesNoTest nested comparator left right

end Convert

/-- The conversion of a comparison or membership test is made from those of its operands. -/
theorem Context.fragment_comparison (context : Context) (operator : Rule) (left right : Tree) :
    context.fragment (.node .relation [.node operator [left], right]) =
      Convert.comparison context context.child operator left right := by
  rw [Context.fragment_eq]
  rfl

namespace Convert

/-- Only equalities test an operand against a literal. -/
theorem literalComparison?_eq (operator : Rule) (left right : Tree) :
    literalComparison? operator left right =
      if operator.isEquality then literalTest? (operator = .relationNe) left right else none := by
  cases operator <;> rfl

/-- The literal that an operand is tested against is shown by one of the operands. -/
theorem Tested.shown (tested : Tested left right operand token) :
    left.Shows token ∨ right.Shows token := by
  rcases tested.other with ⟨-, shows⟩ | ⟨-, shows, -⟩
  · exact .inr shows
  · exact .inl shows

/-- An equality that tests an operand writes it and the test. -/
theorem comparison_of_tested {context : Context} {child : Tree → Fragment} {test : String}
    (found : literalComparison? operator left right = some (operand, test)) :
    comparison context child operator left right = child operand ++ (test : Fragment) := by
  have noMembership : operator ≠ .relationIn := by
    rintro rfl
    simp [literalComparison?] at found
  rw [comparison, if_neg noMembership, found]

end Convert

/-- **Tests against null and the truth values.** A comparison writes one exactly if it is an
equality one operand of which shows null or a truth value; and then it writes the other operand and
the test. -/
theorem Context.fragment_equality (context : Context) (leftGrammatical : left.Grammatical)
    (rightGrammatical : right.Grammatical) :
    let fragment := context.fragment (.node .relation [.node operator [left], right])
    ((∃ test ∈ Convert.literalTests, test ∈ fragment.own) ↔
      operator.isEquality ∧ ∃ token, token.isConstant ∧ (left.Shows token ∨ right.Shows token)) ∧
    (operator.isEquality → ∀ operand token, Convert.Tested left right operand token →
      fragment = .nested (context.fragment operand) ++ .text
      (Convert.testOf (operator = .relationNe) token)) := by
  intro fragment
  have isComparison : fragment = _ := context.fragment_comparison operator left right
  have isTest := Convert.literalComparison?_eq operator left right
  have noTest (noLiteral : Convert.literalComparison? operator left right = none) :
      ¬∃ test ∈ Convert.literalTests, test ∈ fragment.own := by
    rintro ⟨test, isTest, written⟩
    rw [isComparison] at written
    exact Convert.comparison_writesNoTest (fun _ => Fragment.writesNoTest_nested _) noLiteral test
      written isTest
  by_cases equality : operator.isEquality
  · rw [if_pos equality] at isTest
    rcases Convert.literalTest?_spec leftGrammatical rightGrammatical (operator = .relationNe) with
      ⟨operand, token, tested, found⟩ | ⟨noConstant, none⟩
    · have written : fragment = .nested (context.fragment operand) ++ .text
          (Convert.testOf _ token) :=
        isComparison.trans (Convert.comparison_of_tested (isTest.trans found))
      refine ⟨iff_of_true ?_ ⟨equality, token, tested.constant, tested.shown⟩,
        fun _ also beside alsoTested => ?_⟩
      · refine ⟨Convert.testOf (operator = .relationNe) token, Convert.testOf_mem _ token, ?_⟩
        rw [written]
        exact List.mem_singleton_self _
      · obtain ⟨rfl, rfl⟩ := tested.unique alsoTested
        exact written
    · refine ⟨iff_of_false (noTest (isTest.trans none)) ?_, fun _ operand token tested => ?_⟩
      · rintro ⟨-, token, constant, shown⟩
        exact noConstant token shown constant
      · exact absurd tested.constant (noConstant token tested.shown)
  · rw [if_neg equality] at isTest
    exact ⟨iff_of_false (noTest isTest) fun both => equality both.1,
      fun isEquality => absurd isEquality equality⟩

/-! ## Calls that demand a string literal -/

/-- Whether a fault is that of arguments that do not meet a requirement. -/
def Fault.isRequirement : Fault → Bool
  | .requires .. => true
  | _ => false

namespace Fragment

/-- A fragment is not the refusal of arguments. -/
def Accepts (fragment : Fragment) : Prop :=
  ∀ fault, fragment = .fail fault → fault.isRequirement = false

theorem accepts_text (sql : String) : (Fragment.text sql).Accepts :=
  fun _ same => nomatch same

theorem accepts_append (first second : Fragment) : (first ++ second).Accepts :=
  fun _ same => nomatch same

theorem accepts_fail (other : cause.isRequirement = false) : (Fragment.fail cause).Accepts := by
  rintro fault same
  obtain rfl := Fragment.fail.inj same
  exact other

theorem accepts_attempt {result : Except Fault α} {next : α → Fragment}
    (fails : ∀ cause, result = .error cause → cause.isRequirement = false)
    (each : ∀ value, (next value).Accepts) :
    (attempt result next).Accepts := by
  cases result with
  | error cause => exact accepts_fail (fails cause rfl)
  | ok value => exact each value

theorem accepts_number (before : String) (value : Int) (after : String) :
    (number before value after).Accepts := by
  unfold number
  split
  · exact accepts_fail rfl
  · exact accepts_text _

end Fragment

/-- A null byte is no matter of the arguments of a call. -/
theorem withoutNull_accepts {usage text : String} {next : Fragment} (accepts : next.Accepts) :
    (withoutNull usage text next).Accepts := by
  unfold withoutNull
  split
  next fault found =>
    obtain ⟨-, same⟩ := Option.ite_none_right_eq_some.mp found
    obtain rfl := Option.some.inj same
    exact Fragment.accepts_fail rfl
  · exact accepts

namespace Dialect

/-- A pattern that a dialect does not take is no matter of the arguments of a call. -/
theorem convertRegex_error {dialect : Dialect} {source : String}
    (failed : dialect.convertRegex source = .error cause) :
    cause.isRequirement = false := by
  rcases fault_of_convertRegex failed with rfl | rfl | ⟨inner, rfl⟩ <;> rfl

theorem regexMatch_accepts (subject : Fragment) (pattern : String) (caseInsensitive : Bool) :
    (dialect.regexMatch subject pattern caseInsensitive).Accepts := by
  cases dialect with
  | postgresql | mysql | duckdb | bigquery => exact Fragment.accepts_append _ _
  | sqlite => exact Fragment.accepts_fail rfl

theorem duration_accepts (value : Int) (unit : String) : (dialect.duration value unit).Accepts := by
  have fraction (perSecond : Nat) : (secondsModifier value perSecond).Accepts := by
    unfold secondsModifier
    split
    · exact Fragment.accepts_text _
    · exact Fragment.accepts_fail rfl
  unfold duration
  split
  · split
    · exact fraction _
    · exact fraction _
    · exact fraction _
    · exact Fragment.accepts_number _ _ _
  · exact Fragment.accepts_number _ _ _

end Dialect

/-- A call that demands a string literal in one place, with what stands in its other places. -/
inductive Demand
  /-- The test that an object starts with the literal. -/
  | startsWith (object : Tree)
  /-- The test that an object ends with the literal. -/
  | endsWith (object : Tree)
  /-- The test that an object matches the literal. -/
  | matchesMethod (object : Tree)
  /-- The same test, called as a function. -/
  | matchesFunction (subject : Tree)
  /-- The format of a list. -/
  | format (list : Tree)
  /-- A duration. -/
  | duration

namespace Demand

/-- The call with a tree in the place of the literal. -/
def call : Demand → Tree → Tree
  | .startsWith object, given => method object "startsWith" given
  | .endsWith object, given => method object "endsWith" given
  | .matchesMethod object, given => method object "matches" given
  | .matchesFunction subject, given => function "matches" [subject, given]
  | .format list, given => method given "format" list
  | .duration, given => function "duration" [given]
where
  method (object : Tree) (name : String) (argument : Tree) : Tree :=
    .node .memberDotArg [object, .token ⟨.ident, name⟩, .node .exprList [argument]]
  function (name : String) (arguments : List Tree) : Tree :=
    .node .identArg [.token ⟨.ident, name⟩, .node .exprList arguments]

/-- The fault of a call that has no literal in its place. -/
def fault : Demand → Fault
  | .startsWith _ => .requires "startsWith" .stringLiteral
  | .endsWith _ => .requires "endsWith" .stringLiteral
  | .matchesMethod _ => .requires "matches" .stringLiteral
  | .matchesFunction _ => .requires "matches" .literalPattern
  | .format _ => .requires "format" .literalFormat
  | .duration => .requires "duration" .stringLiteral

variable (demand : Demand) (context : Context) {given : Tree}

/-- What stands in the place of the literal is a part of the call. -/
theorem given_mem_parts : given ∈ (demand.call given).parts := by
  have self := given.self_mem_parts
  cases demand <;> simp [call, call.method, call.function, Tree.parts, Tree.partsOf, self]

/-- The conversion of the call with a tree in the place of the literal. -/
def converted (given : Tree) : Fragment :=
  let child := context.child
  match demand with
  | .startsWith object => Convert.startsTest context child object [given]
  | .endsWith object => Convert.endsTest context child object [given]
  | .matchesMethod object => Convert.matchesMethod context child object [given]
  | .matchesFunction subject =>
    given.stringLiteral?.elim (.fail (.requires "matches" .literalPattern))
      (Convert.matchTest context child subject)
  | .format list => Convert.formatCall context child given [list]
  | .duration => Convert.durationCall context [given]

/-- The call is converted by what its name stands for. -/
theorem fragment_call (given : Tree) :
    context.fragment (demand.call given) = demand.converted context given := by
  let child := context.child
  have method (object argument : Tree) (name : String) :
      context.fragment (call.method object name argument) =
      Convert.callMethod context child object name [argument] := by
    rw [Context.fragment_eq]
    rfl
  have function (name : String) (arguments : List Tree) :
      context.fragment (call.function name arguments) =
      Convert.callFunction context child name arguments := by
    rw [Context.fragment_eq]
    rfl
  cases demand with
  | startsWith | endsWith | matchesMethod | format =>
    refine (method _ _ _).trans ?_
    rfl
  | matchesFunction subject =>
    refine (function _ _).trans ?_
    unfold Convert.callFunction converted
    simp only
    cases given.stringLiteral? <;> rfl
  | duration =>
    refine (function _ _).trans ?_
    rfl

/-- The call goes on with the string literal in its place, whatever is around it. -/
theorem converted_congr {other : Tree} (same : given.stringLiteral? = other.stringLiteral?) :
    demand.converted context given = demand.converted context other := by
  cases demand <;>
    simp only [converted, Convert.startsTest, Convert.endsTest, Convert.affixTest,
      Convert.matchesMethod, Convert.formatCall, Convert.durationCall, same]

/-- Without a string literal in its place the call is refused. -/
theorem converted_of_none (absent : given.stringLiteral? = none) :
    demand.converted context given = .fail demand.fault := by
  cases demand <;>
    simp only [converted, Convert.startsTest, Convert.endsTest, Convert.affixTest,
      Convert.matchesMethod, Convert.formatCall, Convert.durationCall, absent, fault, Option.elim]

/-- A test that a string matches a literal is not refused for its arguments. -/
theorem matchTest_accepts (child : Tree → Fragment) (object : Tree) (token : Token) :
    (Convert.matchTest context child object token).Accepts :=
  Fragment.accepts_attempt (fun _ => Dialect.convertRegex_error) fun _ =>
    Dialect.regexMatch_accepts _ _ _ _

/-- With a string literal in its place the call is not refused for its arguments. -/
theorem converted_accepts (found : given.stringLiteral? = some token) :
    (demand.converted context given).Accepts := by
  cases demand with
  | startsWith object | endsWith object =>
    simp only [converted, Convert.startsTest, Convert.endsTest, Convert.affixTest, found]
    exact withoutNull_accepts (Fragment.accepts_append _ _)
  | matchesMethod object =>
    simp only [converted, Convert.matchesMethod, found]
    exact matchTest_accepts context _ _ _
  | matchesFunction subject =>
    simp only [converted, found, Option.elim]
    exact matchTest_accepts context _ _ _
  | format list =>
    simp only [converted, Convert.formatCall, found]
    split
    · exact Fragment.accepts_fail rfl
    · exact Fragment.accepts_append _ _
  | duration =>
    simp only [converted, Convert.durationCall, found]
    refine Fragment.accepts_attempt (fun cause failed => ?_) fun _ => Dialect.duration_accepts _ _ _
    rcases Duration.read_error failed with rfl | ⟨run, -, -, rfl⟩ <;> rfl

/-- The string literal that is given is the one that is shown. -/
theorem stringLiteral?_eq_some_iff (grammatical : given.Grammatical) (token : Token) :
    given.stringLiteral? = some token ↔ given.Shows token ∧ token.isString := by
  rw [Tree.stringLiteral?, grammatical.givenLiteral?, Option.filter_eq_some_iff,
    grammatical.literal?_eq_some_iff]

/-- **Calls that demand a string literal.** They are refused exactly if no string literal is shown
in its place, and otherwise converted as if it stood there by itself. -/
theorem fragment_demand (grammatical : given.Grammatical) :
    (context.fragment (demand.call given) = .fail demand.fault ↔
      ∀ token, given.Shows token → ¬token.isString) ∧
    ∀ token, given.Shows token → token.isString →
      context.fragment (demand.call given) = context.fragment (demand.call (.ofLiteral token)) := by
  have shown := stringLiteral?_eq_some_iff grammatical
  simp only [demand.fragment_call]
  refine ⟨⟨fun refused token shows isString => ?_, fun absent => ?_⟩,
    fun token shows isString => ?_⟩
  · have requirement : demand.fault.isRequirement := by cases demand <;> rfl
    have accepted :=
      demand.converted_accepts context ((shown token).mpr ⟨shows, isString⟩) demand.fault refused
    exact absurd requirement (by simp [accepted])
  · apply demand.converted_of_none
    rw [Option.eq_none_iff_forall_ne_some]
    intro token found
    obtain ⟨shows, isString⟩ := (shown token).mp found
    exact absent token shows isString
  · apply demand.converted_congr
    have spelled : token.text ≠ "" :=
      (grammatical.literal? (grammatical.literal?_eq_some_iff.mpr shows)).1
    rw [(shown token).mpr ⟨shows, isString⟩]
    simp [Tree.ofLiteral, Tree.stringLiteral?, Tree.givenLiteral?, Tree.literal?, Option.filter,
      spelled, isString]

end Demand

/-! ## Parts of expressions -/

namespace Tree

/-- How literals are seen in a part of an expression. -/
structure SeesLiterals (part : Tree) : Prop where
  /-- The literal that is found is the one that is left without the nodes that literals are seen
  through. -/
  found : ∀ token, part.literal? = some token ↔ part.strip Rule.isTransparent = ofLiteral token
  /-- A literal is found in an operand exactly if, up to grouping, the operand is the literal, a
  list of one element that shows it or a construction without fields from a value that shows it. -/
  operand : ∀ rule children, part = .node rule children → rule.isOperand → ∀ token,
    let bare := part.strip Rule.isGrouping
    part.literal? = some token ↔ bare = ofLiteral token ∨
      (∃ item, bare = .node .listLit [.node .exprList [item]] ∧ item.Shows token) ∨
      ∃ object, bare = .node .memberObject [object] ∧ object.Shows token
  /-- A comparison writes a test against null or a truth value exactly if it is an equality one
  operand of which shows such a literal. -/
  tested : ∀ operator left right, part.comparison? = some (operator, left, right) →
    ∀ context : Context,
    (∃ test ∈ Convert.literalTests, test ∈ (context.fragment part).own) ↔
      operator.isEquality ∧ ∃ token, token.isConstant ∧ (left.Shows token ∨ right.Shows token)
  /-- The other operand is what is tested. -/
  test : ∀ operator left right, part.comparison? = some (operator, left, right) →
    operator.isEquality →
    ∀ (context : Context) operand token, Convert.Tested left right operand token →
      context.fragment part =
        .nested (context.fragment operand) ++ .text (Convert.testOf (operator = .relationNe) token)
  /-- A call that demands a string literal is refused exactly if none is shown in its place. -/
  refused : ∀ demand given, part = Demand.call demand given → ∀ context : Context,
    context.fragment part = .fail demand.fault ↔ ∀ token, given.Shows token → ¬token.isString
  /-- It is converted as if the string literal that is shown stood there by itself. -/
  accepted : ∀ demand given, part = Demand.call demand given →
    ∀ (context : Context) token, given.Shows token →
    token.isString → context.fragment part = context.fragment (demand.call (ofLiteral token))

/-- A comparison is a node with its operator around the left operand. -/
theorem eq_of_comparison? {part : Tree} (found : part.comparison? = some (operator, left, right)) :
    part = .node .relation [.node operator [left], right] := by
  unfold comparison? at found
  split at found
  · obtain ⟨rfl, rfl, rfl⟩ : _ = operator ∧ _ = left ∧ _ = right := by simpa using found
    rfl
  · simp at found

/-- **Literals are seen through lists and constructions.** In every part of an expression that is
read, the literal that is found is the one that is left without levels of precedence and
parentheses, but also without lists of one element, constructions without fields and operators. So
equalities are tests against null and the truth values, and calls take string literals, exactly
where these are seen so. -/
theorem sees_literals {text : String} {tree part : Tree} (read : parse? text = some tree)
    (member : part ∈ tree.parts) :
    part.SeesLiterals := by
  have grammatical : part.Grammatical :=
    Hereditary.parts.of_mem_parts (parse?_isExpression read).1 member
  have operands {operator : Rule} {left right : Tree}
      (found : part.comparison? = some (operator, left, right)) :
      left.Grammatical ∧ right.Grammatical := by
    obtain rfl := eq_of_comparison? found
    exact ⟨(grammatical.child (.head _)).child (.head _), grammatical.child (.tail _ (.head _))⟩
  have place {demand : Demand} {given : Tree} (isCall : part = demand.call given) :
      given.Grammatical := by
    subst isCall
    exact Hereditary.parts.of_mem_parts grammatical demand.given_mem_parts
  refine ⟨fun token => grammatical.literal?_eq_some_iff, ?_, ?_, ?_, ?_, ?_⟩
  · rintro rule children rfl operand token
    exact grammatical.literal?_eq_some_iff.trans (grammatical.shows_iff operand)
  · intro operator left right found context
    have both := operands found
    obtain rfl := eq_of_comparison? found
    exact (context.fragment_equality both.1 both.2).1
  · intro operator left right found equality context
    have both := operands found
    obtain rfl := eq_of_comparison? found
    exact (context.fragment_equality both.1 both.2).2 equality
  · intro demand given isCall context
    rw [isCall]
    exact (demand.fragment_demand context (place isCall)).1
  · intro demand given isCall context
    rw [isCall]
    exact (demand.fragment_demand context (place isCall)).2

/-- An equality with a list in a list, the only element of which is null in parentheses. -/
theorem sees_literals_nested :
    ∃ tree part left right token, parse? "x != [[(null)]]" = some tree ∧ part ∈ tree.parts ∧
      part.comparison? = some (.relationNe, left, right) ∧
      (right.strip Rule.isGrouping).hasRule .listLit ∧
      right.Shows token ∧ ∀ context : Context,
        context.fragment part = .nested (context.fragment left) ++ .text " IS NOT NULL" := by
  obtain ⟨tree, read⟩ : ∃ tree, parse? "x != [[(null)]]" = some tree :=
    Option.isSome_iff_exists.mp (by decide +kernel)
  have stands : ∀ tree ∈ parse? "x != [[(null)]]", ∃ part ∈ tree.parts, ∃ found ∈ part.comparison?,
      found.1 = .relationNe ∧ (found.2.2.strip Rule.isGrouping).hasRule .listLit ∧
        found.2.2.literal? = some ⟨.null, "null"⟩ := by decide +kernel
  obtain ⟨part, member, ⟨operator, left, right⟩, found, rfl, isList, isNull⟩ := stands tree read
  have grammatical : part.Grammatical :=
    Hereditary.parts.of_mem_parts (parse?_isExpression read).1 member
  rw [eq_of_comparison? found] at grammatical
  have shows : right.Shows ⟨.null, "null"⟩ :=
    (grammatical.child (.tail _ (.head _))).literal?_eq_some_iff.mp isNull
  refine ⟨tree, part, left, right, _, read, member, found, isList, shows, fun context => ?_⟩
  exact (sees_literals read member).test .relationNe left right found rfl context left _
    ⟨rfl, .inl ⟨rfl, shows⟩, fun isBool => nomatch isBool⟩

/-- **A literal is taken out of what is around it**: a list is compared as its only element, a
construction as what it starts from, though it cannot be converted, and a list is taken for a
string. -/
theorem literal_taken_out :
    (∀ tree ∈ parse? "[null]", tree.literal? = some ⟨.null, "null"⟩ ∧
      (tree.strip Rule.isGrouping).hasRule .listLit) ∧
      ({} : Settings).convert "x == [null]" = .ok "x IS NULL" ∧
      ({} : Settings).convert "x == [null, null]" = .ok "x = ARRAY[NULL, NULL]" ∧
      ({} : Settings).convert "x == null\x7b\x7d" = .ok "x IS NULL" ∧
      ({} : Settings).convert "x.startsWith([\"a\"])" = .ok "x LIKE 'a%' ESCAPE E'\\\\'" := by
  decide +kernel

end Tree

end CelWhere
