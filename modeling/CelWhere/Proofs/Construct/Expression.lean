import CelWhere.Convert.Member
import CelWhere.Proofs.Arrangement
import CelWhere.Proofs.Construct.Dialect

/-! # Operators, selections, lists and literals are sound

The fragment of a part is looked at when those of all the parts below it are known to be sound.

* `Surface.Source.Settled` — the fragments of all parts of a tree are sound;
* `Surface.Source.Ready` — those of all parts below a node are;
* `Surface.negation_sound` — a minus sign, the one construct after which minus signs can meet. -/

namespace CelWhere.Surface

open CelWhere.Convert
open CelWhere.Quoting (EvenBackslashes Quotation)

/-! ## What is known of parts -/

namespace Source

/-- The fragment of a part of the expression, one level deeper. -/
def child (source : Source) (tree : Tree) : Fragment :=
  .nested (source.context.fragment tree)

/-- What is shown of a part of the expression. A selection, also in parentheses, does not end with a
minus sign. -/
structure Shown (source : Source) (tree : Tree) : Prop where
  /-- It is a part. -/
  mem : tree ∈ source.tree.parts
  /-- Its fragment is sound, unless it is a token. -/
  sound : ∀ rule, tree.label = .rule rule →
    IsSound source (source.child tree) (source.child tree.blanked)
  /-- The fragment of a selection is firm. -/
  firm : ∀ below, tree.unwrap? .memberDot = some below →
    Sound source .firm (source.child tree) (source.child tree.blanked)

/-- This is shown of all parts of a tree. -/
def Settled (source : Source) (tree : Tree) : Prop :=
  ∀ part ∈ tree.parts, source.Shown part

/-- A settled tree with a sound fragment. -/
structure Part (source : Source) (tree : Tree) : Prop where
  /-- The tree is settled. -/
  settled : source.Settled tree
  /-- Its fragment is sound. -/
  sound : IsSound source (source.child tree) (source.child tree.blanked)

/-- A node of the expression with all parts below it settled. -/
structure Ready (source : Source) (rule : Rule) (children : List Tree) : Prop where
  /-- The node is a part. -/
  mem : .node rule children ∈ source.tree.parts
  /-- Its children are settled. -/
  each : ∀ child ∈ children, source.Settled child

variable {source : Source} {tree : Tree} {rule : Rule} {children : List Tree}

/-- What is settled is settled for the children. -/
theorem hereditary_settled : Tree.Hereditary source.Settled := Tree.Hereditary.parts

namespace Settled

theorem grammatical (settled : source.Settled tree) : tree.Grammatical :=
  fun part member => source.grammatical part (settled part member).mem

theorem part (settled : source.Settled tree) (label : tree.label = .rule rule) : source.Part tree :=
  ⟨settled, (settled tree tree.self_mem_parts).sound rule label⟩

theorem child (settled : source.Settled (.node rule children)) (member : tree ∈ children) :
    source.Settled tree :=
  hereditary_settled rule children settled tree member

theorem ready (settled : source.Settled (.node rule children)) : source.Ready rule children :=
  ⟨(settled _ (Tree.self_mem_parts _)).mem, fun _ member => settled.child member⟩

theorem isWord {text : String} (settled : source.Settled (.token ⟨.ident, text⟩)) :
    IsWord text.toList :=
  isWord_name (Tree.grammatical_token.mp settled.grammatical).2

/-- The items of a settled list have sound fragments. -/
theorem items {items : List Tree} (settled : source.Settled (.node .exprList items)) :
    ∀ item ∈ items, source.Part item := by
  intro item member
  have produced := (Tree.grammatical_node.mp settled.grammatical).1
  exact (settled.child member).part (produced.2 _ (List.mem_map_of_mem member))

end Settled

namespace Ready

variable (ready : source.Ready rule children)

include ready

theorem grammatical : (Tree.node rule children).Grammatical :=
  Tree.grammatical_node.mpr ⟨source.grammatical _ ready.mem,
    fun child member => (ready.each child member).grammatical⟩

theorem produced : rule.Produces (children.map Tree.label) :=
  (Tree.grammatical_node.mp ready.grammatical).1

theorem part {below : Rule} (member : tree ∈ children) (label : tree.label = .rule below) :
    source.Part tree :=
  (ready.each tree member).part label

end Ready

/-- In a regular expression for MySQL, the backslashes of a string literal leave all quotes
unescaped. -/
theorem Regular.even {token : Token} (regular : source.Regular)
    (member : .node .literal [.token token] ∈ source.tree.parts) (isString : token.isString)
    (given : token.text ≠ "") :
    source.dialect = .mysql → EvenBackslashes token.stringValue.toList := by
  intro isMysql
  have found : (Tree.node .literal [.token token]).stringLiteral? = some token := by
    simp [Tree.stringLiteral?, Tree.givenLiteral?, Tree.literal?, given, isString]
  have safe := regular.1 .literal (.token token) _ token member found
  rw [isMysql] at safe
  exact safe

end Source

variable {source : Source} {children : List Tree}

theorem empty_sound : IsSound source .empty .empty :=
  .template (.fixed _) [] rfl

/-! ## Operators -/

theorem pairing_sound (pairing : Pairing) {left left' right right' : Fragment}
    (leftSound : IsSound source left left') (rightSound : IsSound source right right') :
    IsSound source (pairing.fragment source.dialect left right)
      (pairing.fragment source.dialect left' right') := by
  -- A sign starts and ends with a harmless character.
  have between (operator : Operator) {one one' two two' : Fragment}
      (first : IsSound source one one')
      (second : IsSound source two two') :
      IsSound source (one ++ (operator.text : Fragment) ++ two)
        (one' ++ (operator.text : Fragment) ++ two') := by
    rcases operator with _ | _ | ⟨_ | _⟩ | _ <;>
      simp only [Operator.text, Operator.sign, Comparator.sign, String.reduceAppend] <;>
      exact .template (.slot first) [.fixed _, .slot second] rfl
  have cast {one one' : Fragment} (sound : IsSound source one one') :
      IsSound source (source.dialect.castToNumeric ("(" ++ one ++ ")"))
        (source.dialect.castToNumeric ("(" ++ one' ++ ")")) :=
    castToNumeric_sound (.template (.fixed _) [.slot sound, .fixed _] rfl)
  cases pairing with
  | sign operator => exact between operator leftSound rightSound
  | castLeft operator => exact between operator (cast leftSound) rightSound
  | castRight operator => exact between operator leftSound (cast rightSound)
  | remainder =>
    exact .template (.fixed _) [.slot leftSound, .fixed _, .slot rightSound, .fixed _] rfl
  | membership => exact membership_sound leftSound rightSound
  | concat => exact concat_sound leftSound rightSound
  | shift subtracted =>
    cases subtracted with
    | false => exact timestampArithmetic_sound leftSound rightSound (.inl rfl)
    | true => exact timestampArithmetic_sound leftSound rightSound (.inr rfl)
  | swapped => exact timestampArithmetic_sound rightSound leftSound (.inl rfl)

theorem test_sound {operand operand' : Fragment} (sound : IsSound source operand operand')
    {test : String} (isTest : test ∈ literalTests) :
    IsSound source (operand ++ (test : Fragment)) (operand' ++ (test : Fragment)) := by
  simp only [literalTests, List.mem_cons, List.not_mem_nil, or_false] at isTest
  rcases isTest with rfl | rfl | rfl | rfl | rfl | rfl <;>
    exact .template (.slot sound) [.fixed _] rfl

/-- A minus sign before marks of which nothing is known. -/
theorem Fits.minus {dialect : Dialect} {marks : List Mark} (fits : Fits dialect .any marks) :
    Fits dialect .any (some '-' :: marks) := by
  refine ⟨?_, ?_, by simp, ?_, ?_⟩
  · rintro mark ⟨⟩
    rfl
  · intro mark last
    cases marks with
    | nil =>
      obtain rfl := Option.some.inj last
      rfl
    | cons first rest => exact fits.finish mark (by simpa using last)
  · rw [← List.singleton_append, meets_append, fits.block]
    rfl
  · intro single
    rw [← List.singleton_append, meets_append, fits.apart single]
    rfl

/-- Minus signs meet behind a minus sign if they meet there, or if the marks start with one. -/
theorem meets_minus (marks : List Mark) :
    meets (some '-') (some '-') (some '-' :: marks) = true ↔
      meets (some '-') (some '-') marks = true ∨ marks.head? = some (some '-') := by
  rw [← List.singleton_append, meets_append]
  simp [meets]

/-- A minus sign before an operand. No template fits it, since the operand may start with another
minus sign; then the whole is a part that doubles the sign. -/
theorem negation_sound {sign : List Tree} {operand : Tree} {operand' : Fragment}
    (member : .node .unary [.node .unaryNeg sign, operand] ∈ source.tree.parts)
    (operandSound : IsSound source (source.child operand) operand') :
    IsSound source (.text "-" ++ source.child operand) (.text "-" ++ operand') := by
  have minusClean : Clean source False (.text "-") := by
    intro sql found hasNull
    obtain rfl := List.mem_singleton.mp found
    exact absurd hasNull (by decide)
  refine ⟨fun standard => ?_, minusClean.append operandSound.clean, fun regular text written => ?_⟩
  · exact Lexical.Leads.append (.ofText (.fixed rfl)) (operandSound.closed standard)
  have whole := written
  obtain ⟨_, rest, minusWritten, operandWritten, rfl⟩ := Fragment.inlined?_append.mp written
  obtain rfl := Option.some.inj minusWritten
  obtain ⟨finish, fits, dashes⟩ := operandSound.calm regular rest operandWritten
  refine ⟨finish, fits.minus, ?_⟩
  show meets (some '-') (some '-') (some '-' :: Place.outside.marks source.dialect rest) = true ↔ _
  rw [meets_minus, dashes]
  constructor
  · rintro (⟨part, within, doubles⟩ | starts)
    · exact ⟨part, Fragment.mem_parts_append.mpr (.inr (.inr within)), doubles⟩
    · -- The first mark of the operand is a minus sign, so its first character is.
      refine ⟨_, Fragment.self_mem_parts _, _, member, Context.fragment_eq .., operand, rfl, ?_⟩
      cases rest with
      | nil => simp [Place.marks] at starts
      | cons c rest =>
        rw [Place.head?_marks] at starts
        obtain ⟨-, rfl⟩ : c ∉ quotes ∧ c = '-' := by simpa using starts
        exact ⟨rest, operandWritten⟩
  · rintro ⟨part, within, doubles⟩
    rcases Fragment.mem_parts_append.mp within with rfl | inMinus | inOperand
    · obtain ⟨more, same⟩ := doubles.starts whole
      obtain rfl : rest = '-' :: more := by simpa using same
      exact .inr rfl
    · -- A text by itself has one sign only.
      obtain rfl := List.mem_singleton.mp inMinus
      obtain ⟨more, same⟩ := doubles.starts rfl
      simp at same
    · exact .inl ⟨part, inOperand, doubles⟩

/-- An operator, whose arrangement is that of the blanked sides. -/
theorem operator_sound (rule operator : Rule) {left right : Tree} (leftPart : source.Part left)
    (rightPart : source.Part right) :
    IsSound source
      (.attempt (Arrangement.ofOperator source.context.catalog rule operator left right)
        (Arrangement.fragment source.dialect source.child))
      (.attempt (Arrangement.ofOperator source.context.catalog rule operator left.blanked
        right.blanked)
        (Arrangement.fragment source.dialect source.child)) := by
  have leftGrammatical := leftPart.settled.grammatical
  have rightGrammatical := rightPart.settled.grammatical
  have paired : IsSound source
      (.attempt ((Arrangement.pairing source.context.catalog rule operator left right).map
        (Arrangement.pair · left right)) (Arrangement.fragment source.dialect source.child))
      (.attempt ((Arrangement.pairing source.context.catalog rule operator left right).map
        (Arrangement.pair · left.blanked right.blanked))
        (Arrangement.fragment source.dialect source.child)) := by
    rw [attempt_map, attempt_map]
    exact .attempt fun pairing _ => pairing_sound pairing leftPart.sound rightPart.sound
  simp only [Arrangement.ofOperator, pairing_blanked leftGrammatical rightGrammatical,
    literalComparison?_blanked operator leftGrammatical rightGrammatical]
  by_cases isRelation : rule = .relation
  · simp only [isRelation, if_true] at paired ⊢
    cases compared : literalComparison? operator left right with
    | none => exact paired
    | some test =>
      -- An equality against null or a truth value is a test behind the other side.
      have isTest := Arrangement.literalComparison?_mem compared
      rcases Arrangement.literalComparison?_literal compared with ⟨same, -⟩ | ⟨same, -⟩
      · exact test_sound (same ▸ leftPart.sound) isTest
      · exact test_sound (same ▸ rightPart.sound) isTest
  · simp only [isRelation, if_false]
    exact paired

/-- **Operators are sound**, if their operands are. -/
theorem arranged_sound {rule : Rule} (isArranged : rule.isArranged)
    (ready : source.Ready rule children) :
    IsSound source (step source.context source.context.fragment (.node rule children))
      (step source.context source.context.fragment (Tree.node rule children).blanked) := by
  have other {keeps : Rule} (notArranged : keeps.isArranged = false) : rule ≠ keeps := by
    rintro rfl
    simp [isArranged] at notArranged
  rw [Tree.blanked_all (other rfl) (other rfl) (other rfl), step_arranged isArranged,
    step_arranged isArranged]
  cases ready.grammatical.arranged isArranged with
  | only isOf =>
    simp only [List.map_cons, List.map_nil, Arrangement.of_single]
    exact (ready.part (.head _) isOf.2).sound
  | choice first second third =>
    have first := (ready.part (by simp) first.2).sound
    have second := (ready.part (by simp) second.2).sound
    have third := (ready.part (by simp) third.2).sound
    exact .template (.fixed _) [.slot first, .fixed _, .slot second, .fixed _, .slot third,
      .fixed _] rfl
  | or leftOf rightOf =>
    exact pairing_sound (.sign .or) (ready.part (by simp) leftOf.2).sound
      (ready.part (by simp) rightOf.2).sound
  | and leftOf rightOf =>
    exact pairing_sound (.sign .and) (ready.part (by simp) leftOf.2).sound
      (ready.part (by simp) rightOf.2).sound
  | not isOf => exact .template (.fixed _) [.slot (ready.part (by simp) isOf.2).sound] rfl
  | minus isOf => exact negation_sound ready.mem (ready.part (by simp) isOf.2).sound
  | @operator _ operator left right isOperator leftOf rightOf =>
    have wrapper := ready.each (.node operator [left]) (.head _)
    simp only [List.map_cons, List.map_nil, Tree.blanked_single,
      Tree.Arranged.of_operator isOperator]
    exact operator_sound rule operator ((wrapper.child (.head _)).part leftOf.2)
      (ready.part (by simp) rightOf.2)

/-! ## Selections -/

/-- A field name is a word, because it is checked. -/
theorem fieldName_sound (name : String) :
    Sound source .plain (fieldName name) (fieldName name) := by
  unfold fieldName
  split
  · exact .fail _
  next valid => exact .template (.spans (.word name (isWord_columnName valid)) []) [] rfl

theorem jsonSteps_sound {fields : List String} (names : ∀ field ∈ fields, IsWord field.toList)
    {base base' : Fragment} (baseSound : Sound source .firm base base') :
    Sound source .firm (jsonSteps source.context base fields)
      (jsonSteps source.context base' fields) := by
  induction fields generalizing base base' with
  | nil => exact baseSound
  | cons field rest ih =>
    have isWord := names field (by simp)
    cases rest with
    | nil => exact jsonField_sound baseSound isWord true
    | cons second rest =>
      exact ih (fun other member => names other (by simp [member]))
        (jsonField_sound baseSound isWord false)

theorem jsonPath_sound (ready : source.Ready .memberDot children) :
    Sound source .firm (jsonPath source.context source.child children)
      (jsonPath source.context source.child (children.map Tree.blanked)) := by
  have blanked := Tree.fieldPath_blanked ready.grammatical
  rw [Tree.blanked_all (by simp) (by simp) (by simp)] at blanked
  unfold jsonPath
  rw [blanked]
  cases found : (Tree.node .memberDot children).fieldPath with
  | error fault => exact .fail _
  | ok pair =>
    obtain ⟨root, fields⟩ := pair
    obtain ⟨-, names⟩ := ready.grammatical.fieldPath rfl found
    -- The path starts where that of the object does, and has at least the field that is selected.
    obtain ⟨object, text, rfl, label⟩ := ready.grammatical.memberDot
    have objectSettled := ready.each object (by simp)
    simp only [Tree.fieldPath] at found
    cases inner : object.fieldPath with
    | error fault => simp [inner, Except.map] at found
    | ok pair =>
      obtain ⟨start, earlier⟩ := pair
      simp only [inner, Except.map, Except.ok.injEq, Prod.mk.injEq] at found
      obtain ⟨rfl, same⟩ := found
      obtain ⟨⟨rule, rootLabel⟩, -⟩ := objectSettled.grammatical.fieldPath label inner
      have rootSound :=
        ((Source.hereditary_settled.fieldPath objectSettled inner).part rootLabel).sound
      cases fields with
      | nil => simp at same
      | cons column rest =>
        -- The column is not checked here, but it is a name of the grammar.
        have isWord : IsWord column.toList := isWord_name (names column (by simp))
        exact jsonSteps_sound (fun field member => isWord_name (names field (by simp [member])))
          (.template (.slot rootSound) [.spans (.fixed _) [.word column isWord]] rfl)

theorem selection_sound (ready : source.Ready .memberDot children) :
    Sound source .firm (selection source.context source.child children)
      (selection source.context source.child (children.map Tree.blanked)) := by
  have path := jsonPath_sound ready
  obtain ⟨object, text, rfl, label⟩ := ready.grammatical.memberDot
  have objectPart := ready.part (by simp) label
  have objectGrammatical := objectPart.settled.grammatical
  have plain : Sound source .firm (source.child object ++ "." ++ fieldName text)
      (source.child object.blanked ++ "." ++ fieldName text) :=
    .template (.slot objectPart.sound) [.fixed _, .slot (fieldName_sound text)] rfl
  simp only [List.map_cons, List.map_nil, Tree.blanked_token, Token.blanked_name, selection,
    Tree.nameText_token, Tree.root?_blanked objectGrammatical,
    Tree.firstField_blanked objectGrammatical] at path ⊢
  -- Both trees have the same root and first field, so the catalog decides alike.
  refine .attempt fun root _ => ?_
  cases root with
  | none => exact plain
  | some table =>
    refine .attempt fun first _ => .check ?_ rfl rfl rfl
    split
    · exact path
    · exact plain

/-- The selection of an element, whose index keeps its strings. -/
theorem indexing_sound {object index : Tree} (ready : source.Ready .memberIndex [object, index]) :
    IsSound source (indexing source.context source.child [object, index])
      (indexing source.context source.child [object.blanked, index]) := by
  obtain ⟨_, _, same, objectLabel, indexLabel⟩ := Tree.map_label_two.mp ready.produced
  obtain ⟨rfl, rfl⟩ : _ ∧ _ := by simpa using same
  have objectSound := (ready.part (by simp) objectLabel).sound
  have indexSound := (ready.part (by simp) indexLabel).sound.left
  simp only [indexing]
  split
  · -- A string as an index is the name of a field.
    split
    · exact .fail _
    next valid =>
      exact .template (.slot objectSound)
        [.spans (.fixed _) [.word _ (isWord_columnName valid)]] rfl
  · -- An integer is written as the number that it denotes.
    refine .attempt fun index _ => ?_
    unfold fixedElement
    split
    · exact .fail _
    · split
      · exact .fail _
      · exact elementAt_sound objectSound index
  · exact element_sound objectSound indexSound

/-! ## Lists, maps and literals -/

/-- Expressions divided by commas, whichever of them keep their strings. -/
theorem expressions_sound {items : List Tree} (each : ∀ item ∈ items, source.Part item)
    (kept : Nat → Bool) :
    IsSound source (expressions source.child items)
      (expressions source.child (Tree.blankedBut kept items)) := by
  induction items generalizing kept with
  | nil => exact empty_sound
  | cons item rest ih =>
    have blanked := (each item (by simp)).sound
    have first : IsSound source (source.child item) (source.child (if kept 0 then item
        else item.blanked)) := by
      split
      · exact blanked.left
      · exact blanked
    have later := ih (fun other member => each other (by simp [member])) fun position =>
      kept (position + 1)
    cases rest with
    | nil => simpa [expressions, Tree.blankedBut, Fragment.join] using first
    | cons second rest => exact .template (.slot first) [.fixed _, .slot later] rfl

theorem items_sound {items : List Tree} (settled : source.Settled (.node .exprList items)) :
    IsSound source (expressions source.child items)
      (expressions source.child (items.map Tree.blanked)) := by
  have sound := expressions_sound settled.items fun _ => false
  rwa [Tree.blankedBut_none] at sound

theorem entryValues_sound {key : Label} :
    ∀ {entries : List Tree}, Label.Alternate key (.rule .expr) (entries.map Tree.label) →
      (∀ entry ∈ entries, source.Settled entry) →
      IsSound source (entryValues source.child entries)
      (entryValues source.child (entries.map Tree.blanked))
  | [], _, _ => empty_sound
  | [_], alternate, _ => alternate.elim
  | [first, value], ⟨_, label, _⟩, each => ((each value (by simp)).part label).sound
  | first :: value :: third :: rest, ⟨_, label, later⟩, each => by
    have valueSound := ((each value (by simp)).part label).sound
    have restSound := entryValues_sound later fun entry member => each entry (by simp [member])
    exact .template (.slot valueSound) [.fixed _, .slot restSound] rfl

theorem listOf_sound (ready : source.Ready .listLit children) :
    Sound source .firm (listOf source.context source.child children)
      (listOf source.context source.child (children.map Tree.blanked)) := by
  rcases ready.produced with none | one
  · obtain rfl : children = [] := by simpa using none
    exact arrayLiteral_sound empty_sound
  · obtain ⟨list, rfl, label⟩ := Tree.map_label_one.mp one
    obtain ⟨items, rfl⟩ := Tree.label_eq_rule.mp label
    have elements := items_sound (ready.each (.node .exprList items) (by simp))
    simp only [List.map_cons, List.map_nil, Tree.blanked_node, Tree.blankedChildren, listOf]
    exact arrayLiteral_sound elements

theorem mapOf_sound (ready : source.Ready .mapLit children) :
    Sound source .firm (mapOf source.context source.child children)
      (mapOf source.context source.child (children.map Tree.blanked)) := by
  rcases ready.produced with none | one
  · obtain rfl : children = [] := by simpa using none
    exact structLiteral_sound empty_sound
  · obtain ⟨inits, rfl, label⟩ := Tree.map_label_one.mp one
    obtain ⟨entries, rfl⟩ := Tree.label_eq_rule.mp label
    have initsReady := (ready.each (.node .mapInits entries) (by simp)).ready
    have values := entryValues_sound initsReady.produced.2 initsReady.each
    simp only [List.map_cons, List.map_nil, Tree.blanked_node, Tree.blankedChildren, mapOf]
    exact structLiteral_sound values

theorem parenthesised_sound (ready : source.Ready .parenExpr children) :
    Sound source .firm (parenthesised source.child children)
      (parenthesised source.child (children.map Tree.blanked)) := by
  obtain ⟨inner, rfl, label⟩ := Tree.map_label_one.mp ready.produced
  exact .template (.fixed _) [.slot (ready.part (by simp) label).sound, .fixed _] rfl

/-- A literal. Strings are checked for null bytes, and lose their contents in the blanked tree;
floats are written as they are spelled. -/
theorem literal_sound (ready : source.Ready .literal children) :
    IsSound source (literal children) (literal (children.map Tree.blanked)) := by
  obtain ⟨kind, -, one⟩ := ready.produced
  obtain ⟨leaf, rfl, label⟩ := Tree.map_label_one.mp one
  obtain ⟨text, rfl⟩ := Tree.label_eq_token.mp label
  have wellFormed := Tree.grammatical_token.mp (ready.each _ (.head _)).grammatical
  simp only [List.map_cons, List.map_nil, Tree.blanked_token, literal]
  cases kind with
  | null => exact .template (.fixed _) [] rfl
  | bool =>
    rw [Token.blanked_eq_self rfl]
    simp only [literalOf]
    split <;> exact .template (.fixed _) [] rfl
  | int | uint =>
    rw [Token.blanked_eq_self rfl]
    simp only [literalOf]
    exact .attempt fun value _ => literalInt_sound value
  | float =>
    rw [Token.blanked_eq_self rfl]
    simp only [literalOf]
    split
    next value read =>
      exact literalFloat_sound (isNumeral_float wellFormed.2 (by simp [read])) value
    · exact .fail _
  | string | multiline =>
    simp only [literalOf, Token.kind_blanked]
    rw [Token.stringValue_blanked (by simp [Token.isString])]
    refine .withoutNull rfl fun _ => literalString_sound _ fun regular => ?_
    exact regular.even ready.mem rfl wellFormed.1
  | bytes =>
    rw [Token.blanked_eq_self rfl]
    exact literalBytes_sound _
  | ident | other name => exact .fail _

/-- A name, which the grammar keeps a word even where it is not checked. -/
theorem name_sound (ready : source.Ready .ident children) :
    IsSound source (name children) (name (children.map Tree.blanked)) := by
  obtain ⟨text, rfl⟩ := ready.grammatical.ident
  have isWord := (ready.each _ (.head _)).isWord
  have word : IsSound source (.text text) (.text text) :=
    .template (.spans (.word text isWord) []) [] rfl
  simp only [List.map_cons, List.map_nil, Tree.blanked_token, Token.blanked_name, name,
    Tree.nameText_token, reference]
  split
  · exact .check word rfl rfl rfl
  · exact word

theorem dottedName_sound (ready : source.Ready .dotIdent children) :
    IsSound source (dottedName children) (dottedName (children.map Tree.blanked)) := by
  obtain ⟨leaf, rfl, label⟩ := Tree.map_label_one.mp ready.produced
  obtain ⟨text, rfl⟩ := Tree.label_eq_token.mp label
  exact .template (.spans (.fixed _) [.word text (ready.each _ (.head _)).isWord]) [] rfl

end CelWhere.Surface
