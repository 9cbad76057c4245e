import CelWhere.Proofs.Inclusion
import CelWhere.Proofs.Nesting.Fragment
import CelWhere.Proofs.Operand
import CelWhere.Proofs.Scope
import CelWhere.Proofs.Validation.Chain

/-! # The limit of nested comprehensions

A run takes no more than three comprehensions inside each other. That this is refused only where a
tree has a chain of four is read off the fragment of the tree. That it is always refused there needs
that the conversion goes through each comprehension of the chain, which it does in expressions of
operators, lists, names, selections and comprehensions.

* `Fragment.Demands` — a run succeeds only where there is room for more comprehensions;
* `Tree.Comprehends` — the expressions;
* `Context.descends_below` — a node is written with the comprehensions of what is below it. -/

namespace CelWhere

variable {root : Tree} {fields : List String} {children : List Tree}

/-! ## Room for comprehensions -/

namespace Fragment

/-- A fragment runs only where there is room for as many comprehensions as a number says. -/
def Demands (count : Nat) (fragment : Fragment) : Prop :=
  ∀ settings session, (fragment.run settings session).fault = none →
    session.nesting + count ≤ comprehensionLimit

variable {count : Nat} {fragment part body : Fragment}

/-- A fragment needs the room that its parts need. -/
theorem Includes.demands (includes : fragment.Includes part) (demands : part.Demands count) :
    fragment.Demands count := by
  intro settings session succeeds
  obtain ⟨between, ran⟩ := includes settings session succeeds
  have room := demands settings between ran.succeeds
  have nesting := ran.nesting
  omega

/-- A comprehension needs room for itself. -/
theorem demands_one (body : Fragment) : (Fragment.comprehension body).Demands 1 := by
  intro settings session succeeds
  simp only [run] at succeeds
  split at succeeds
  · simp at succeeds
  next room => omega

/-- A comprehension needs room for one more than what stands in it. -/
theorem Demands.comprehension (demands : body.Demands count) :
    (Fragment.comprehension body).Demands (count + 1) := by
  intro settings session succeeds
  simp only [run] at succeeds
  split at succeeds
  · simp at succeeds
  · have room := demands settings { session with nesting := session.nesting + 1 } succeeds
    simp only at room
    omega

/-- An expression one level deeper among the pieces of a fragment is run. -/
theorem Includes.of_nested (member : .nested body ∈ fragment.pieces) : fragment.Includes body :=
  (includes_of_mem_pieces member).trans (.nested body)

/-- What a fragment writes is run. -/
theorem Writes.includes {parts : List Fragment} (writes : fragment.Writes parts)
    (member : part ∈ parts) :
    fragment.Includes part := by
  induction writes with
  | text sql => cases member
  | nested body =>
    obtain rfl := List.mem_singleton.mp member
    exact .nested part
  | append one other oneIh otherIh =>
    rcases List.mem_append.mp member with early | late
    · exact (Includes.append_left _ _).trans (oneIh early)
    · exact (Includes.append_right _ _).trans (otherIh late)

end Fragment

/-! ## Expressions with comprehensions -/

namespace Tree

/-- The rules of operators, choices, parentheses, lists, literals, names and selections of
fields. -/
def plainRules :
    List Rule := Rule.operations ++ [.relationIn, .memberDot, .dotIdent, .listLit, .exprList]

/-- Whether a tree consists of a name, under levels of precedence. -/
def isName (tree : Tree) : Bool :=
  match tree.core with
  | .node .ident [.token _] => true
  | _ => false

/-- Whether the children of a method call are those of a comprehension, with a name as the first
argument and as many arguments as the comprehension needs. -/
def isComprehension : List Tree → Bool
  | [_, .token method, .node .exprList (iterator :: others)] =>
    iterator.isName &&
      (Index.comprehensionMethods.contains method.text && others.length = 1 ||
        method.text = "map" && others.length = 2)
  | _ => false

/-- Whether the root of a tree is an operator, a list, a literal, a name, the selection of a field
or a comprehension. -/
def comprehends : Tree → Bool
  | .token _ => true
  | .node rule children =>
    if rule = .memberDotArg then isComprehension children else plainRules.contains rule

/-- A tree has nothing but operators, lists, literals, names, selections of fields and
comprehensions. -/
def Comprehends (tree : Tree) : Prop :=
  ∀ part ∈ tree.parts, part.comprehends

variable {length : Nat} {tree : Tree}

/-- A tree that consists of a name has that name below the levels of precedence. -/
theorem core_of_isName (named : tree.isName) : ∃ name, tree.core = .node .ident [.token name] := by
  unfold isName at named
  split at named
  next name same => exact ⟨name, same⟩
  · cases named

/-- A tree that consists of a name has no comprehension. -/
theorem not_nests_of_isName (isName : tree.isName) : ¬tree.Nests (length + 1) := by
  obtain ⟨name, named⟩ := core_of_isName isName
  rw [eq_core (·.Nests (length + 1)) (fun rule child level => ?_) tree, named]
  · simpa [nests_succ_of_ne] using not_nests_token
  · have noCall : rule ≠ .memberDotArg := by
      rintro rfl
      simp [Rule.isLevel] at level
    simp [nests_succ_of_ne noCall]

/-- A tree that consists of a name is read as that name. -/
theorem identName_of_isName (isName : tree.isName) : ∃ name, tree.identName = .ok name := by
  obtain ⟨name, named⟩ := core_of_isName isName
  have read (whole : Rule) : tree.nameFrom whole = .ok name.text := by
    rw [eq_core (·.nameFrom whole) (fun rule child level => ?_) tree, named]
    · rfl
    · cases rule <;> simp_all [Rule.isLevel, nameFrom]
  cases tree with
  | token leaf => simp [core] at named
  | node rule children => exact ⟨name.text, read rule⟩

/-- A literal has no comprehension. -/
theorem Grammatical.not_nests_of_literal? {token : Token} (grammatical : tree.Grammatical)
    (found : tree.literal? = some token) : ¬tree.Nests (length + 1) := by
  refine literal?_induction (motive := fun tree => ¬tree.Nests (length + 1)) ?_
    (fun rule child grammatical below => ?_)
    grammatical found
  · simpa [nests_succ_of_ne] using not_nests_token
  · -- The call of a method has a second child.
    have noCall : rule ≠ .memberDotArg := by
      rintro rfl
      simp [Rule.Produces] at grammatical
    simpa [nests_succ_of_ne noCall] using below

/-- The comprehensions in a chain of selections are those of the root that it starts from. -/
theorem Grammatical.nests_root (grammatical : tree.Grammatical)
    (found : tree.fieldPath = .ok (root, fields)) (nests : tree.Nests (length + 1)) :
    root.Nests (length + 1) := by
  refine fieldPath_induction (motive := fun tree _ => tree.Grammatical → tree.Nests (length + 1) →
    root.Nests (length + 1))
    (fun _ nests => nests) ?_ ?_ found grammatical nests
  · intro object field rest _ ih grammatical nests
    obtain ⟨object, text, same, -⟩ := grammatical.memberDot
    obtain ⟨rfl, rfl, rfl⟩ : _ ∧ _ ∧ _ := by simpa using same
    rw [nests_succ_of_ne (by decide)] at nests
    obtain ⟨child, isChild, childNests⟩ := nests
    rcases List.mem_cons.mp isChild with rfl | later
    · exact ih (grammatical.child (.head _)) childNests
    · obtain rfl := List.mem_singleton.mp later
      exact absurd childNests not_nests_token
  · intro rule child _ isLevel ih grammatical nests
    have noCall : rule ≠ .memberDotArg := by rcases isLevel with rfl | rfl <;> decide
    exact ih (grammatical.child (.head _)) (by simpa [nests_succ_of_ne noCall] using nests)

end Tree

/-! ## What operators and selections write -/

section

open Fragment

/-- Two operands are both written, in whichever way. -/
theorem Pairing.includes (pairing : Pairing) (dialect : Dialect) {one two body : Fragment}
    (isSide : body = one ∨ body = two) :
    (pairing.fragment dialect (.nested one) (.nested two)).Includes body := by
  have moved (operator : String) {first second : Fragment} (isSide : body = first ∨ body = second) :
      (dialect.timestampArithmetic operator (.nested first) (.nested second)).Includes body := by
    refine .of_nested ?_
    cases dialect with
    | postgresql | mysql | duckdb =>
      rcases isSide with rfl | rfl <;> simp [Dialect.timestampArithmetic]
    | sqlite | bigquery =>
      simp only [Dialect.timestampArithmetic]
      split <;> rcases isSide with rfl | rfl <;> simp
  cases pairing with
  | sign | remainder =>
    refine .of_nested ?_
    rcases isSide with rfl | rfl <;> simp [fragment]
  | castLeft | castRight | membership | concat =>
    refine .of_nested ?_
    rcases isSide with rfl | rfl <;> cases dialect <;>
      simp [fragment, Dialect.castToNumeric, Dialect.membership, Dialect.concat]
  | shift => exact moved _ isSide
  | swapped => exact moved _ isSide.symm

/-- An arrangement writes all its operands. -/
theorem Arrangement.includes {arrangement : Arrangement} (dialect : Dialect)
    (visit : Tree → Fragment) {operand : Tree} (member : operand ∈ arrangement.operands) :
    (arrangement.fragment dialect fun tree => .nested (visit tree)).Includes (visit operand) := by
  cases arrangement with
  | only | not | minus | tested =>
    obtain rfl := List.mem_singleton.mp member
    exact .of_nested (by simp [fragment])
  | choice =>
    simp only [operands, List.mem_cons, List.not_mem_nil, or_false] at member
    refine .of_nested ?_
    rcases member with rfl | rfl | rfl <;> simp [fragment]
  | pair pairing left right =>
    simp only [operands, List.mem_cons, List.not_mem_nil, or_false] at member
    exact pairing.includes dialect (member.imp (congrArg visit) (congrArg visit))

end

namespace Convert

open Fragment

variable {context : Context} {visit : Tree → Fragment}

/-- Fields of a JSON value are written behind or around the value. -/
theorem jsonSteps_includes (base : Fragment) (fields : List String) :
    (jsonSteps context base fields).Includes base := by
  have step (base : Fragment) (field : String) (final : Bool) :
      (context.dialect.jsonField base field final).Includes base := by
    cases context.dialect with
    | postgresql | mysql | duckdb => exact .append_left _ _
    | sqlite | bigquery => exact (Includes.append_left _ _).trans (.append_right _ _)
  induction fields generalizing base with
  | nil => exact .refl base
  | cons field rest ih =>
    cases rest with
    | nil => exact step base field true
    | cons next more => exact (ih _).trans (step base field false)

/-- The path through a JSON field writes the root that it starts from. -/
theorem jsonPath_includes
    (found : (Tree.node .memberDot children).fieldPath = .ok (root, fields)) :
    (jsonPath context (fun tree => .nested (visit tree)) children).Includes (visit root) := by
  rw [jsonPath, found]
  cases fields with
  | nil => exact .nested _
  | cons column rest =>
    exact (jsonSteps_includes _ rest).trans ((Includes.append_left _ _).trans (.nested _))

/-- The selection of a field writes its object, or the root of a path through a JSON field. -/
theorem selection_includes (context : Context) (visit : Tree → Fragment) (object field : Tree)
    (rest : List Tree) :
    (selection context (fun tree => .nested (visit tree)) (object :: field :: rest)).Includes
      (visit object) ∨
      ∃ root fields, (Tree.node .memberDot (object :: field :: rest)).fieldPath =
      .ok (root, fields) ∧
        (selection context (fun tree => .nested (visit tree)) (object :: field :: rest)).Includes
        (visit root) := by
  simp only [selection]
  cases object.root? with
  | error fault => exact .inl (.fail fault)
  | ok root =>
    cases root with
    | none => exact .inl (.of_nested (by simp))
    | some table =>
      cases object.firstField field.nameText with
      | error fault => exact .inl (.fail fault)
      | ok first =>
        simp only [attempt_ok]
        split
        · cases found : (Tree.node .memberDot (object :: field :: rest)).fieldPath with
          | error fault =>
            refine .inl ((Includes.append_right _ _).trans ?_)
            rw [jsonPath, found]
            exact .fail fault
          | ok path =>
            exact .inr ⟨path.1, path.2, rfl,
              (Includes.append_right _ _).trans (jsonPath_includes found)⟩
        · exact .inl (.of_nested (by simp))

end Convert

/-! ## Chains through expressions -/

section

variable {rule : Rule}

open Fragment

/-- A node is written with a tree below it that has as long a chain of comprehensions. -/
def Context.Descends (context : Context) (length : Nat) (rule : Rule) (children : List Tree) :
    Prop :=
  ∃ inner ∈ Tree.partsOf children, inner.Nests (length + 1) ∧
    (context.fragment (.node rule children)).Includes (context.fragment inner)

variable {context : Context} {children : List Tree} {length : Nat}

/-- A node whose children are all written is written with the comprehensions of its children. -/
theorem Context.descends_child (noCall : rule ≠ .memberDotArg)
    (written : ∀ child ∈ children, child.Nests (length + 1) →
      (context.fragment (.node rule children)).Includes (context.fragment child))
    (nests : (Tree.node rule children).Nests (length + 1)) :
    context.Descends length rule children := by
  obtain ⟨child, isChild, childNests⟩ := (Tree.nests_succ_of_ne noCall).mp nests
  exact ⟨child, Tree.mem_partsOf.mpr ⟨child, isChild, child.self_mem_parts⟩, childNests,
    written child isChild childNests⟩

/-- An operator is written with the comprehensions of its operands. -/
theorem Context.descends_arranged (isArranged : rule.isArranged)
    (grammatical : (Tree.node rule children).Grammatical)
    (nests : (Tree.node rule children).Nests (length + 1)) :
    context.Descends length rule children := by
  have noCall {rule : Rule} (passes : rule.isArranged ∨ rule = .unaryNot ∨ rule = .unaryNeg) :
      rule ≠ .memberDotArg := by
    rintro rfl
    simp [Rule.isArranged, Rule.isLevel] at passes
  cases found : Arrangement.of context.catalog rule children with
  | error fault =>
    refine descends_child (noCall (.inl isArranged)) (fun child _ _ => ?_) nests
    rw [context.fragment_eq, Convert.step_arranged isArranged, found]
    exact .fail fault
  | ok arrangement =>
    obtain ⟨operand, member, operandNests⟩ := ((grammatical.arranged isArranged).exists_operand
      (fun _ _ passes => Tree.nests_succ_of_ne (noCall passes))
      (fun _ _ grammatical literal => grammatical.not_nests_of_literal? literal) isArranged
      found).mp nests
    refine ⟨operand, Arrangement.mem_partsOf found member, operandNests, ?_⟩
    rw [context.fragment_eq, Convert.step_arranged isArranged, found]
    exact Arrangement.includes context.dialect context.fragment member

/-- The selection of a field, by its object or by a path through a JSON field. -/
theorem Context.descends_selection (grammatical : (Tree.node .memberDot children).Grammatical)
    (nests : (Tree.node .memberDot children).Nests (length + 1)) :
    context.Descends length .memberDot children := by
  obtain ⟨produced, each⟩ := Tree.grammatical_node.mp grammatical
  obtain ⟨object, field, rfl, -, fieldLabel⟩ := Tree.map_label_two.mp produced
  obtain ⟨text, rfl⟩ := Tree.label_eq_token.mp fieldLabel
  have selection := context.fragment_eq (.node .memberDot [object, .token ⟨.ident, text⟩])
  rcases Convert.selection_includes context context.fragment object (.token ⟨.ident, text⟩) [] with
    plain | ⟨root, fields, found, path⟩
  · refine descends_child (by decide) (fun child isChild childNests => ?_) nests
    rcases List.mem_cons.mp isChild with rfl | later
    · rw [selection]
      exact plain
    · obtain rfl := List.mem_singleton.mp later
      exact absurd childNests Tree.not_nests_token
  · refine ⟨root, ?_, grammatical.nests_root found nests, ?_⟩
    · -- The root is the one that the path of the object starts from.
      obtain ⟨beforeLast, below⟩ : ∃ beforeLast, object.fieldPath = .ok (root, beforeLast) := by
        rw [Tree.fieldPath] at found
        cases inner : object.fieldPath with
        | error fault => simp [inner, Except.map] at found
        | ok steps =>
          obtain ⟨rfl, -⟩ : steps.1 = root ∧ _ := by simpa [inner, Except.map] using found
          exact ⟨steps.2, rfl⟩
      have inside : ∀ part ∈ root.parts, part ∈ object.parts :=
        Tree.Hereditary.parts.fieldPath (fun _ => id) below
      exact Tree.mem_partsOf.mpr ⟨object, .head _, inside root root.self_mem_parts⟩
    · rw [selection]
      exact path

/-- A list. -/
theorem Context.descends_list (grammatical : (Tree.node .listLit children).Grammatical)
    (nests : (Tree.node .listLit children).Nests (length + 1)) :
    context.Descends length .listLit children := by
  obtain ⟨produced, each⟩ := Tree.grammatical_node.mp grammatical
  rcases produced with none | items
  · obtain rfl := List.map_eq_nil_iff.mp none
    simp [Tree.nests_succ_of_ne] at nests
  · obtain ⟨list, rfl, listLabel⟩ := Tree.map_label_one.mp items
    obtain ⟨elements, rfl⟩ := Tree.label_eq_rule.mp listLabel
    obtain ⟨element, isElement, elementNests⟩ : ∃ element ∈ elements,
        element.Nests (length + 1) := by
      simpa [Tree.nests_succ_of_ne] using nests
    refine ⟨element, ?_, elementNests, ?_⟩
    · simp only [Tree.partsOf, Tree.parts, List.append_nil, List.mem_cons, Tree.mem_partsOf]
      exact .inr ⟨element, isElement, element.self_mem_parts⟩
    · rw [context.fragment_eq]
      have joined : (Convert.expressions context.child elements).Includes
          (.nested (context.fragment element)) := .join (List.mem_map.mpr ⟨element, isElement, rfl⟩)
      exact (Includes.append_left _ _).trans
        ((Includes.append_right _ _).trans (joined.trans (.nested _)))

/-- **A node is written with the comprehensions of what is below it.** -/
theorem Context.descends_below (isPlain : rule ∈ Tree.plainRules)
    (grammatical : (Tree.node rule children).Grammatical)
    (nests : (Tree.node rule children).Nests (length + 1)) :
    context.Descends length rule children := by
  have produced := (Tree.grammatical_node.mp grammatical).1
  by_cases isArranged : rule.isArranged
  · exact descends_arranged isArranged grammatical nests
  cases rule with
  | memberDot => exact descends_selection grammatical nests
  | listLit => exact descends_list grammatical nests
  | unaryNot | unaryNeg =>
    obtain rfl := List.map_eq_nil_iff.mp produced
    simp [Tree.nests_succ_of_ne] at nests
  | dotIdent | ident =>
    obtain ⟨name, rfl, nameLabel⟩ := Tree.map_label_one.mp produced
    obtain ⟨text, rfl⟩ := Tree.label_eq_token.mp nameLabel
    simp [Tree.nests_succ_of_ne, Tree.not_nests_token] at nests
  | literal =>
    obtain ⟨kind, -, alone⟩ := produced
    obtain ⟨token, rfl, tokenLabel⟩ := Tree.map_label_one.mp alone
    obtain ⟨text, rfl⟩ := Tree.label_eq_token.mp tokenLabel
    simp [Tree.nests_succ_of_ne, Tree.not_nests_token] at nests
  | parenExpr =>
    obtain ⟨only, rfl, -⟩ := Tree.map_label_one.mp produced
    refine descends_child (by decide) (fun child isChild _ => ?_) nests
    obtain rfl := List.mem_singleton.mp isChild
    rw [context.fragment_eq]
    exact .of_nested (by simp [Convert.step, Convert.parenthesised])
  | exprList =>
    refine descends_child (by decide) (fun child isChild _ => ?_) nests
    rw [context.fragment_eq]
    exact (Includes.join (List.mem_map.mpr ⟨child, isChild, rfl⟩)).trans (.nested _)
  | memberDotArg | memberIndex | memberObject | dotIdentArg | identArg | mapLit | fieldInits
  | mapInits | other =>
    simp [Tree.plainRules, Rule.operations] at isPlain
  | _ => exact absurd rfl isArranged

end

/-! ## Chains through comprehensions -/

/-- The end of a chain can be left out. -/
theorem Tree.Nests.of_succ {length : Nat} {tree : Tree} (nests : tree.Nests (length + 1)) :
    tree.Nests length := by
  induction length generalizing tree with
  | zero => exact .none tree
  | succ length ih =>
    cases nests with
    | call isPart inside others => exact .call isPart inside (ih others)

namespace Comprehension

variable {object : Tree} {arguments : List Tree} {length : Nat}

/-- The children of the call of a comprehension are those of one of the comprehensions. -/
theorem exists_of_isComprehension (grammatical : (Tree.node .memberDotArg children).Grammatical)
    (calls : Tree.isComprehension children) :
    ∃ comprehension : Comprehension, comprehension.tree = .node .memberDotArg children ∧
      comprehension.iterator.isName := by
  unfold Tree.isComprehension at calls
  split at calls
  next object method iterator others =>
    obtain ⟨isName, counted⟩ := (Bool.and_eq_true_iff).mp calls
    obtain ⟨kind, text⟩ := method
    obtain rfl : kind = .ident := by
      have produced := (Tree.grammatical_node.mp grammatical).1
      have labels : object.label = .rule .member ∧ kind = .ident :=
        by simpa [Rule.Produces] using produced
      exact labels.2
    simp only [Index.comprehensionMethods, Bool.or_eq_true, Bool.and_eq_true, List.contains_eq_mem,
      List.mem_cons, List.not_mem_nil, or_false, decide_eq_true_eq] at counted
    rcases counted with ⟨isMethod, one⟩ | ⟨rfl, two⟩
    · obtain ⟨condition, rfl⟩ := List.length_eq_one_iff.mp one
      rcases isMethod with rfl | rfl | rfl | rfl | rfl
      · exact ⟨.all object iterator condition, rfl, isName⟩
      · exact ⟨.any object iterator condition, rfl, isName⟩
      · exact ⟨.one object iterator condition, rfl, isName⟩
      · exact ⟨.map object iterator condition, rfl, isName⟩
      · exact ⟨.filter object iterator condition, rfl, isName⟩
    · obtain ⟨condition, value, rfl⟩ := List.length_eq_two.mp two
      exact ⟨.mapWhere object iterator condition value, rfl, isName⟩
  · cases calls

/-- A chain of two or more at a call goes on in its receiver or in an argument. -/
theorem nests_call {method : String} (nests : (call object method arguments).Nests (length + 2)) :
    ∃ inner ∈ object :: arguments, inner.Nests (length + 1) := by
  rcases Tree.nests_succ_node.mp nests with ⟨inner, inside, others⟩ | ⟨child, isChild, longer⟩
  · refine ⟨inner, ?_, others⟩
    simp only [Tree.comprehended, argumentsOf, Except.toOption, Option.getD_some] at inside
    split at inside
    · exact inside
    · cases inside
  · simp only [List.mem_cons, List.not_mem_nil, or_false] at isChild
    rcases isChild with rfl | rfl | rfl
    · exact ⟨child, .head _, longer.of_succ⟩
    · exact absurd longer Tree.not_nests_token
    · obtain ⟨argument, isArgument, nested⟩ := (Tree.nests_succ_of_ne (by decide)).mp longer
      exact ⟨argument, .tail _ isArgument, nested.of_succ⟩

/-- The receiver and the arguments of a call are below it. -/
theorem mem_partsOf_call {inner : Tree} {method : Token} (member : inner ∈ object :: arguments) :
    inner ∈ Tree.partsOf [object, .token method, .node .exprList arguments] := by
  rw [Tree.mem_partsOf]
  rcases List.mem_cons.mp member with rfl | isArgument
  · exact ⟨inner, .head _, inner.self_mem_parts⟩
  · refine ⟨.node .exprList arguments, by simp, ?_⟩
    rw [Tree.parts, List.mem_cons, Tree.mem_partsOf]
    exact .inr ⟨inner, isArgument, inner.self_mem_parts⟩

/-- A chain of two or more at a comprehension goes on in the trees that are written in it. -/
theorem nests_tree {comprehension : Comprehension} (isName : comprehension.iterator.isName)
    (nests : comprehension.tree.Nests (length + 2))
    (same : comprehension.tree = .node .memberDotArg children) :
    ∃ inner ∈ comprehension.parts, inner ∈ Tree.partsOf children ∧ inner.Nests (length + 1) := by
  have named : ¬comprehension.iterator.Nests (length + 1) := Tree.not_nests_of_isName isName
  cases comprehension with
  | all source iterator condition | any source iterator condition | one source iterator condition
  | filter source iterator condition | map source iterator condition =>
    obtain ⟨inner, member, innerNests⟩ := nests_call nests
    obtain ⟨-, rfl⟩ := Tree.node.inj same
    refine ⟨inner, ?_, mem_partsOf_call member, innerNests⟩
    simp only [List.mem_cons, List.not_mem_nil, or_false] at member
    rcases member with rfl | rfl | rfl
    · simp [parts]
    · exact absurd innerNests named
    · simp [parts]
  | mapWhere source iterator condition value =>
    obtain ⟨inner, member, innerNests⟩ := nests_call nests
    obtain ⟨-, rfl⟩ := Tree.node.inj same
    refine ⟨inner, ?_, mem_partsOf_call member, innerNests⟩
    simp only [List.mem_cons, List.not_mem_nil, or_false] at member
    rcases member with rfl | rfl | rfl | rfl
    · simp [parts]
    · exact absurd innerNests named
    · simp [parts]
    · simp [parts]

end Comprehension

namespace Context

open Fragment

/-- **Every comprehension of a chain needs room.** In an expression of operators, lists, literals,
names, selections and comprehensions, and in all parts of it, a chain of comprehensions needs room
for all of them. -/
theorem demands_of_nests (context : Context) (tree : Tree) (grammatical : tree.Grammatical)
    (comprehends : tree.Comprehends) (length : Nat) (nests : tree.Nests (length + 1)) :
    (context.fragment tree).Demands (length + 1) := by
  induction tree using Tree.inductionOnParts generalizing length with
  | token leaf => exact absurd nests Tree.not_nests_token
  | node rule children ih =>
    have below {inner : Tree} (isInner : inner ∈ Tree.partsOf children) (length : Nat)
        (nests : inner.Nests (length + 1)) :
        (context.fragment inner).Demands (length + 1) :=
      have isPart : inner ∈ (Tree.node rule children).parts := .tail _ isInner
      ih inner isInner (Tree.Hereditary.parts.of_mem_parts grammatical isPart)
        (Tree.Hereditary.parts.of_mem_parts comprehends isPart) length nests
    have root : (if rule = .memberDotArg then Tree.isComprehension children
        else Tree.plainRules.contains rule) = true :=
      comprehends _ (Tree.self_mem_parts _)
    split at root
    next isCall =>
      subst isCall
      obtain ⟨comprehension, same, isName⟩ :=
        Comprehension.exists_of_isComprehension grammatical root
      obtain ⟨name, named⟩ := Tree.identName_of_isName isName
      obtain ⟨body, converted, writes⟩ := comprehension.fragment_tree context named
      rw [← same, converted]
      cases length with
      | zero => exact demands_one _
      | succ length =>
        -- The rest of the chain is in a tree that the comprehension writes.
        obtain ⟨inner, isWritten, isInner, innerNests⟩ :=
          Comprehension.nests_tree isName (same ▸ nests) same
        have demands := below isInner length innerNests
        have includes : (Fragment.binding name body).Includes (context.fragment inner) :=
          (Includes.binding name body).trans
            (writes.includes (List.mem_map.mpr ⟨inner, isWritten, rfl⟩))
        exact (includes.demands demands).comprehension
    · obtain ⟨inner, isInner, innerNests, includes⟩ :=
        context.descends_below (by simpa using root) grammatical nests
      exact includes.demands (below isInner length innerNests)

end Context

/-! ## The limit -/

/-- **Comprehensions are cut at three.** If any tree is refused for comprehensions that are nested
too deeply, then it has a chain of four, each one inside the receiver or an argument of the one
before it. An expression of operators, lists, literals, names, selections of fields and
comprehensions that is converted has no such chain. -/
theorem Settings.convertTree_nesting (settings : Settings) (tree : Tree) :
    (∀ fault, settings.convertTree tree = .error fault →
      fault.faultClass = .refused .maxComprehensionDepthExceeded → tree.Nests 4) ∧
    (tree.Grammatical → tree.Comprehends → ∀ condition, settings.convertTree tree = .ok condition →
      ¬tree.Nests 4) := by
  constructor
  · intro fault failed isNesting
    by_contra within
    have quiet : fault.isNesting = false := by
      rcases convertTree_eq_error.mp failed with invalid | ⟨-, found⟩
      · unfold fault? at invalid
        split at invalid <;> cases invalid
        rfl
      · exact visit_not_nesting within (by decide) found
    cases fault <;> simp_all [Fault.faultClass, Fault.isNesting]
  · intro grammatical comprehends condition converted nests
    obtain ⟨-, succeeds, -, -⟩ := convertTree_eq_ok.mp converted
    have room := settings.context.demands_of_nests tree grammatical comprehends 3 nests settings
      .fresh succeeds
    simp [Session.fresh, comprehensionLimit] at room

/-- Four comprehensions, the last one in the receiver of the third, and three of them. -/
theorem Settings.convertTree_nesting_receiver :
    (∃ deep, parse? "a.all(x, b.exists(y, c.map(z, z.d).filter(w, w > x + y)))" = some deep ∧
      ({} : Settings).convertTree deep = .error (.comprehensionDepthExceeded 3) ∧ deep.Nests 4) ∧
    ∃ shallow, parse? "a.all(x, !b.exists(y, [c.filter(w, w > x + y)] == y))" = some shallow ∧
      shallow.Grammatical ∧ shallow.Comprehends ∧
        (∃ condition, ({} : Settings).convertTree shallow = .ok condition) ∧ ¬shallow.Nests 4 := by
  have valid : ({} : Settings).fault? = none := rfl
  constructor
  · obtain ⟨deep, read⟩ : ∃ deep, parse? "a.all(x, b.exists(y, c.map(z, z.d).filter(w, w > x + y)))"
        = some deep :=
      Option.isSome_iff_exists.mp (by decide +kernel)
    have refused : ∀ tree ∈ parse? "a.all(x, b.exists(y, c.map(z, z.d).filter(w, w > x + y)))",
        (({} : Settings).visit .fresh tree).fault = some (.comprehensionDepthExceeded 3) :=
          by decide +kernel
    have failed : ({} : Settings).convertTree deep = .error (.comprehensionDepthExceeded 3) :=
      convertTree_eq_error.mpr (.inr ⟨valid, refused deep read⟩)
    exact ⟨deep, read, failed, (convertTree_nesting {} deep).1 _ failed rfl⟩
  · obtain ⟨shallow, read⟩ : ∃ shallow,
        parse? "a.all(x, !b.exists(y, [c.filter(w, w > x + y)] == y))" = some shallow :=
      Option.isSome_iff_exists.mp (by decide +kernel)
    have plain : ∀ tree ∈ parse? "a.all(x, !b.exists(y, [c.filter(w, w > x + y)] == y))",
        (({} : Settings).visit .fresh tree).fault = none ∧ tree.parts.all Tree.comprehends :=
          by decide +kernel
    obtain ⟨succeeds, each⟩ := plain shallow read
    have grammatical : shallow.Grammatical := (parse?_isExpression read).1
    have comprehends : shallow.Comprehends :=
      fun part isPart => List.all_eq_true.mp each part isPart
    obtain ⟨condition, converted⟩ : ∃ condition, ({} : Settings).convertTree shallow =
        .ok condition :=
      ⟨⟨_, _⟩, convertTree_eq_ok.mpr ⟨valid, succeeds, rfl, rfl⟩⟩
    exact ⟨shallow, read, grammatical, comprehends, ⟨condition, converted⟩,
      (convertTree_nesting {} shallow).2 grammatical comprehends condition converted⟩

end CelWhere
