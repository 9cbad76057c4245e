import CelWhere.Convert.Arrangement
import CelWhere.Convert.Locality.Function
import CelWhere.Proofs.Blank

/-! # Answers for blanked trees

The conversion asks questions about the trees that it converts. What it is told does not depend on
the contents of strings, so the blanked tree gets the same answers.

* `Tree.UnitsNamed` — the units of all intervals are names;
* `Catalog.isJsonText_blanked`, `Catalog.isArrayValue_blanked` — answers of the catalog;
* `Convert.presenceOfSelection_blanked`, `Convert.pairing_blanked` — how presence is tested and how
  operands are written. -/

namespace CelWhere

variable {tree : Tree}

/-! ## Units -/

namespace Tree

/-- The second argument of a call of `interval`. -/
def intervalUnit? : Tree → Option Tree
  | .node .identArg [.token name, .node .exprList (_ :: unit :: _)] =>
    if name.text = "interval" then some unit else none
  | _ => none

/-- No call of `interval` in a tree has a literal inside its second argument. -/
def UnitsNamed (tree : Tree) : Prop :=
  ∀ part ∈ tree.parts, ∀ unit ∈ part.intervalUnit?, ∀ inner ∈ unit.parts, inner.hasRule .literal =
    false

instance (tree : Tree) : Decidable tree.UnitsNamed :=
  inferInstanceAs (Decidable (∀ part ∈ tree.parts, ∀ unit ∈ part.intervalUnit?,
    ∀ inner ∈ unit.parts, inner.hasRule .literal = false))

end Tree

/-! ## Names in trees of the grammar -/

/-- A chain of selections starts from a node, and the fields have the characters of names. -/
theorem Tree.Grammatical.fieldPath {root : Tree} {fields : List String}
    (grammatical : tree.Grammatical) {rule : Rule} (label : tree.label = .rule rule)
    (found : tree.fieldPath = .ok (root, fields)) :
    (∃ rule, root.label = .rule rule) ∧ ∀ field ∈ fields, ∀ c ∈ field.toList,
      Lexer.isNameChar c := by
  refine Tree.fieldPath_induction (motive := fun tree fields => tree.Grammatical →
    (∃ rule, tree.label = .rule rule) → (∃ rule, root.label = .rule rule) ∧ ∀ field ∈ fields,
    ∀ c ∈ field.toList, Lexer.isNameChar c) ?_ ?_ ?_ found
    grammatical ⟨rule, label⟩
  · exact fun _ label => ⟨label, by simp⟩
  · intro object field rest before ih grammatical _
    obtain ⟨object, text, same, objectLabel⟩ := grammatical.memberDot
    obtain ⟨rfl, rfl, rfl⟩ : _ ∧ _ ∧ _ := by simpa using same
    obtain ⟨rootLabel, names⟩ := ih (grammatical.child (.head _)) ⟨_, objectLabel⟩
    -- The last field stands behind those of the object.
    refine ⟨rootLabel, fun field member => ?_⟩
    rcases List.mem_append.mp member with earlier | last
    · exact names field earlier
    · obtain rfl : field = text := by simpa using last
      exact (grammatical.child (by simp)).name
  · intro rule child fields isLevel ih grammatical _
    have produced := (Tree.grammatical_node.mp grammatical).1
    rcases isLevel with rfl | rfl <;> obtain ⟨below, -, labels⟩ := produced <;>
      exact ih (grammatical.child (.head _)) ⟨below, by simpa using labels⟩

/-- The name that a tree consists of has the characters of names. -/
theorem Tree.Grammatical.nameFrom {name : String} (grammatical : tree.Grammatical) (whole : Rule)
    (found : tree.nameFrom whole = .ok name) : ∀ c ∈ name.toList, Lexer.isNameChar c := by
  induction tree with
  | token leaf =>
    obtain ⟨kind, text⟩ := leaf
    by_cases isName : kind = .ident
    · subst isName
      obtain rfl : text = name := by simpa [Tree.nameFrom] using found
      exact grammatical.name
    · simp [Tree.nameFrom, isName] at found
  | node rule children ih =>
    by_cases isName : rule = .ident
    · subst isName
      obtain ⟨text, rfl⟩ := grammatical.ident
      obtain rfl : text = name := by simpa [Tree.nameFrom] using found
      exact (grammatical.child (by simp)).name
    · rcases children with _ | ⟨child, _ | ⟨second, rest⟩⟩
      · simp [Tree.nameFrom, isName] at found
      · simp only [Tree.nameFrom] at found
        exact ih child (by simp) (grammatical.child (by simp)) found
      · simp [Tree.nameFrom, isName] at found

/-- The name of a variable has the characters of names. -/
theorem Tree.Grammatical.identName {name : String} (grammatical : tree.Grammatical)
    (found : tree.identName = .ok name) :
    ∀ c ∈ name.toList, Lexer.isNameChar c := by
  cases tree with
  | token leaf => exact grammatical.nameFrom .expr found
  | node rule children => exact grammatical.nameFrom rule found

/-! ## Answers of the catalog -/

namespace Catalog

variable {children : List Tree} (catalog : Catalog)

theorem isJsonPath_blanked (grammatical : (Tree.node .memberDot children).Grammatical) :
    catalog.isJsonPath (children.map Tree.blanked) = catalog.isJsonPath children := by
  obtain ⟨object, field, rfl, -⟩ := grammatical.memberDot
  have objectGrammatical := (Tree.grammatical_node.mp grammatical).2 object (by simp)
  simp [isJsonPath, Tree.root?_blanked objectGrammatical, Tree.firstField_blanked objectGrammatical]

theorem isArraySelection_blanked (grammatical : (Tree.node .memberDot children).Grammatical) :
    catalog.isArraySelection (children.map Tree.blanked) = catalog.isArraySelection children := by
  obtain ⟨object, field, rfl, -⟩ := grammatical.memberDot
  have objectGrammatical := (Tree.grammatical_node.mp grammatical).2 object (by simp)
  simp [isArraySelection, Tree.root?_blanked objectGrammatical]

theorem isArrayName_blanked (grammatical : (Tree.node .ident children).Grammatical) :
    catalog.isArrayName (children.map Tree.blanked) = catalog.isArrayName children := by
  obtain ⟨text, rfl⟩ := grammatical.ident
  simp

end Catalog

theorem Tree.Grammatical.core (grammatical : tree.Grammatical) : tree.core.Grammatical :=
  Hereditary.core Hereditary.parts grammatical

namespace Catalog

variable (catalog : Catalog)

theorem isJsonText_blanked (grammatical : tree.Grammatical) :
    catalog.isJsonText tree.blanked = catalog.isJsonText tree := by
  have core := grammatical.core
  unfold isJsonText
  rw [Tree.core_blanked]
  cases found : tree.core with
  | token leaf => rfl
  | node rule children =>
    rw [found] at core
    by_cases isSelection : rule = .memberDot
    · subst isSelection
      rw [Tree.blanked_all (by simp) (by simp) (by simp)]
      exact catalog.isJsonPath_blanked core
    · rw [Tree.blanked_node]
      split <;> simp_all

theorem isArrayValue_blanked (grammatical : tree.Grammatical) :
    catalog.isArrayValue tree.blanked = catalog.isArrayValue tree := by
  have core := grammatical.core
  unfold isArrayValue
  rw [Tree.core_blanked]
  cases found : tree.core with
  | token leaf => rfl
  | node rule children =>
    rw [found] at core
    -- Only these three rules look at their children.
    by_cases isMethod : rule = .memberDotArg
    · subst isMethod
      obtain ⟨object, text, -, rfl | ⟨items, rfl⟩⟩ := core.memberDotArg <;>
        simp [Tree.blanked_node, Tree.blankedChildren]
    by_cases isSelection : rule = .memberDot
    · subst isSelection
      rw [Tree.blanked_all (by simp) (by simp) (by simp)]
      exact catalog.isArraySelection_blanked core
    by_cases isName : rule = .ident
    · subst isName
      rw [Tree.blanked_all (by simp) (by simp) (by simp)]
      exact catalog.isArrayName_blanked core
    · rw [Tree.blanked_node]
      split <;> simp_all

end Catalog

/-! ## Answers about calls and operators -/

namespace Tree

/-- The innermost tree of a tree of the grammar is one too. -/
theorem Grammatical.innermost (grammatical : tree.Grammatical) : tree.innermost.Grammatical := by
  induction tree with
  | token leaf => simpa [Tree.innermost] using grammatical
  | node rule children ih =>
    rcases children with _ | ⟨child, _ | ⟨second, rest⟩⟩
    · simpa [Tree.innermost] using grammatical
    · have childGrammatical := (grammatical_node.mp grammatical).2 child (by simp)
      simpa [Tree.innermost] using ih child (by simp) childGrammatical
    · simpa [Tree.innermost] using grammatical

theorem isTimestamp_blanked (grammatical : tree.Grammatical) (root : String) :
    tree.blanked.isTimestamp root = tree.isTimestamp root := by
  have innerGrammatical := grammatical.innermost
  unfold isTimestamp
  rw [innermost_blanked]
  cases found : tree.innermost with
  | token leaf => simp
  | node rule children =>
    rw [found] at innerGrammatical
    by_cases isName : rule = .ident
    · subst isName
      obtain ⟨text, rfl⟩ := innerGrammatical.ident
      simp
    · rw [blanked_node]
      congr 1
      split <;> split <;> simp_all

/-- A tree without literal nodes is no literal. -/
theorem literal?_eq_none (noLiteral : ∀ part ∈ tree.parts, part.hasRule .literal = false) :
    tree.literal? = none := by
  have self := noLiteral tree (self_mem_parts tree)
  -- The way down to a literal ends at a literal node or at a node that is not looked through.
  fun_induction Tree.literal? tree with
  | case1 | case2 => simp [hasRule] at self
  | case3 rule child _ _ ih =>
    have below := Hereditary.parts rule [child] noLiteral child (by simp)
    exact ih below (below child (self_mem_parts child))
  | case4 => rfl

end Tree

namespace Convert

/-- The test with the contents of strings taken out. -/
def PresenceTest.blanked : PresenceTest → PresenceTest
  | .jsonField binary field base => .jsonField binary field base.blanked
  | .jsonPath children => .jsonPath (children.map Tree.blanked)
  | .plain => .plain

theorem presenceOfSelection_blanked (catalog : Catalog) {object field : Tree}
    (grammatical : (Tree.node .memberDot [object, field]).Grammatical) :
    presenceOfSelection catalog object.blanked field.blanked [object.blanked, field.blanked] =
      (presenceOfSelection catalog object field [object, field]).map PresenceTest.blanked := by
  have path := catalog.isJsonPath_blanked grammatical
  obtain ⟨_, text, same, label⟩ := grammatical.memberDot
  obtain ⟨rfl, rfl⟩ : _ ∧ _ := by simpa using same
  have objectGrammatical : object.Grammatical := grammatical.child (by simp)
  simp only [List.map_cons, List.map_nil, Tree.blanked_token, Token.blanked_name] at path ⊢
  -- The answer where the selection is not asked for in a JSON field.
  have nested : ∀ root, presenceOfSelection.nested catalog
      [object.blanked, .token ⟨.ident, text⟩] root =
      (presenceOfSelection.nested catalog [object, .token ⟨.ident, text⟩] root).map
      PresenceTest.blanked := by
    intro root
    unfold presenceOfSelection.nested
    cases root with
    | none => rfl
    | some table =>
      rw [path]
      cases catalog.isJsonPath [object, .token ⟨.ident, text⟩] with
      | error fault => rfl
      | ok json => cases json <;> rfl
  unfold presenceOfSelection
  rw [Tree.root?_blanked objectGrammatical, Tree.unwrap?_blanked (by simp) (by simp) (by simp)]
  cases object.root? with
  | error fault => rfl
  | ok root =>
    cases found : object.unwrap? .memberDot with
    | none => exact nested root
    | some children =>
      have selected := Tree.Hereditary.parts.unwrap objectGrammatical found
      obtain ⟨owner, column, rfl, -⟩ := Tree.Grammatical.memberDot selected
      have ownerGrammatical : owner.Grammatical := Tree.Grammatical.child selected (by simp)
      simp only [Option.map_some, List.map_cons, List.map_nil, Tree.blanked_token,
        Token.blanked_name, Tree.root?_blanked ownerGrammatical]
      cases owner.root? with
      | error fault => rfl
      | ok table =>
        cases table with
        | none => exact nested root
        | some table =>
          simp only
          split
          · rfl
          · exact nested root

/-- The text of a string literal and the empty text in the place of it. -/
theorem stringLiteral?_cases (grammatical : tree.Grammatical) :
    (tree.stringLiteral? = none ∧ tree.blanked.stringLiteral? = none) ∨
      ∃ token other, tree.stringLiteral? = some token ∧ tree.blanked.stringLiteral? = some other ∧
        other.stringValue = "" := by
  rw [Tree.stringLiteral?_blanked grammatical]
  cases found : tree.stringLiteral? with
  | none => exact .inl ⟨rfl, rfl⟩
  | some token =>
    have isString : token.isString := (Option.filter_eq_some_iff.mp found).2
    exact .inr ⟨token, token.blanked, rfl, rfl, Token.stringValue_blanked isString⟩

/-- The unit of an interval without literals in it is a name, which is the same in the blanked
tree. -/
theorem intervalUnit_blanked {unit : Tree} (grammatical : unit.Grammatical)
    (noLiteral : ∀ part ∈ unit.parts, part.hasRule .literal = false) :
    intervalUnit unit.blanked = intervalUnit unit ∧
      ∀ name, intervalUnit unit = .ok name → ∀ c ∈ name.toList, Lexer.isNameChar c := by
  have none : unit.literal? = none := Tree.literal?_eq_none noLiteral
  have given : unit.givenLiteral? = Option.none := by simp [Tree.givenLiteral?, none]
  have given' : unit.blanked.givenLiteral? = Option.none :=
    by simp [Tree.givenLiteral?, Tree.literal?_blanked, none]
  unfold intervalUnit
  rw [given, given', Tree.unwrap?_blanked (by simp) (by simp) (by simp)]
  cases found : unit.unwrap? .ident with
  | none => simp
  | some children =>
    have nameGrammatical := Tree.Hereditary.parts.unwrap grammatical found
    obtain ⟨text, rfl⟩ := Tree.Grammatical.ident nameGrammatical
    refine ⟨rfl, fun name same => ?_⟩
    obtain rfl : text = name := by simpa using same
    exact (Tree.Grammatical.child nameGrammatical (by simp)).name

/-- A literal of a kind that is not that of strings is the same in the blanked tree. -/
theorem filter_literal_blanked (grammatical : tree.Grammatical) {kind : TokenKind}
    (noString : kind ≠ .string ∧ kind ≠ .multiline) :
    tree.blanked.givenLiteral?.filter (·.kind = kind) =
      tree.givenLiteral?.filter (·.kind = kind) := by
  rw [grammatical.blanked.givenLiteral?, grammatical.givenLiteral?, Tree.literal?_blanked]
  cases tree.literal? with
  | none => rfl
  | some token =>
    by_cases same : token.kind = kind
    · have unchanged : token.blanked = token :=
        Token.blanked_eq_self (by simp [Token.isString, same, noString])
      simp [unchanged]
    · simp [Option.filter, same]

/-- Which side of an equality is null or a truth value does not depend on the contents of
strings. -/
theorem literalTest?_blanked (negated : Bool) {left right : Tree}
    (leftGrammatical : left.Grammatical) (rightGrammatical : right.Grammatical) :
    literalTest? negated left.blanked right.blanked =
      (literalTest? negated left right).map fun (operand, test) => (operand.blanked, test) := by
  unfold literalTest?
  simp only [filter_literal_blanked leftGrammatical, filter_literal_blanked rightGrammatical,
    ne_eq, reduceCtorEq, not_false_eq_true, and_self]
  split <;> rfl

/-- Which comparisons test against null or a truth value does not depend on the contents of
strings. -/
theorem literalComparison?_blanked (operator : Rule) {left right : Tree}
    (leftGrammatical : left.Grammatical) (rightGrammatical : right.Grammatical) :
    literalComparison? operator left.blanked right.blanked =
      (literalComparison? operator left right).map fun (operand, test) =>
        (operand.blanked, test) := by
  unfold literalComparison?
  split
  · exact literalTest?_blanked false leftGrammatical rightGrammatical
  · exact literalTest?_blanked true leftGrammatical rightGrammatical
  · rfl

section

variable {left right : Tree} (leftGrammatical : left.Grammatical)
  (rightGrammatical : right.Grammatical)

include leftGrammatical rightGrammatical

theorem pairing_blanked (catalog : Catalog) (rule operator : Rule) :
    Arrangement.pairing catalog rule operator left.blanked right.blanked =
      Arrangement.pairing catalog rule operator left right := by
  have strings : ∀ {tree : Tree}, tree.Grammatical →
      tree.blanked.containsString = tree.containsString :=
    Tree.blanked_congr fun {tree} _ => Tree.containsString_erased tree
  have temporal : eitherTemporal left.blanked right.blanked = eitherTemporal left right := by
    simp only [eitherTemporal, Tree.blanked_congr Tree.isTemporal_erased leftGrammatical,
      Tree.blanked_congr Tree.isTemporal_erased rightGrammatical]
  have duration : durationFirst left.blanked right.blanked = durationFirst left right := by
    simp only [durationFirst, Tree.blanked_congr Tree.isDuration_erased leftGrammatical,
      Tree.blanked_congr Tree.isDuration_erased rightGrammatical]
  simp only [Arrangement.pairing, Arrangement.ofSign, Arrangement.ofSum, temporal, duration,
    strings leftGrammatical, strings rightGrammatical, Tree.isList_blanked, Tree.isNumeric_blanked,
    catalog.isJsonText_blanked leftGrammatical, catalog.isJsonText_blanked rightGrammatical]

end

end Convert

end CelWhere
