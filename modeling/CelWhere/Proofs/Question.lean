import CelWhere.Convert.Function
import CelWhere.Convert.Operator
import CelWhere.Proofs.Grammar

/-! # Faults of questions

A conversion asks many questions about the trees that it converts. They fail where a child is
missing, and only in trees outside the grammar.

* `Tree.Shaped` — where nodes of certain trees lack children, certain faults are allowed for that;
* a lemma for every question: if it fails for one of the trees, the fault is allowed;
* `Tree.shaped_grammatical` — no fault is needed for trees of the grammar, so there they do not
  fail. -/

namespace CelWhere

variable {α ε : Type}

/-- A mapped result fails with the fault of the result. -/
theorem error_of_map {β : Type} {result : Except ε α} {change : α → β} {cause : ε}
    (failed : result.map change = .error cause) : result = .error cause := by
  cases result with
  | error inner => exact congrArg _ (Except.error.inj failed)
  | ok value => cases failed

/-- Two results fail with the fault of the first or with that of the second. -/
theorem error_of_bind {β : Type} {result : Except ε α} {next : α → Except ε β} {cause : ε}
    (failed : result >>= next = .error cause) :
    result = .error cause ∨ ∃ value, next value = .error cause := by
  cases result with
  | error inner => exact .inl (congrArg _ (Except.error.inj failed))
  | ok value => exact .inr ⟨value, failed⟩

/-- A result that does not fail has a value. -/
theorem exists_ok {result : Except ε α} (fails : ∀ {cause}, result ≠ .error cause) :
    ∃ value, result = .ok value := by
  cases result with
  | ok value => exact ⟨value, rfl⟩
  | error cause => exact absurd rfl fails

namespace Tree

/-- The trees of a property have the shape of the grammar, or it is allowed that children are
missing. -/
structure Shaped (property : Tree → Prop) (allowed : Fault → Prop) : Prop where
  /-- Children have the property of their node. -/
  hereditary : Hereditary property
  /-- A node has children that its rule produces, or it is allowed that some are missing. -/
  shaped {rule : Rule} {children : List Tree} : property (.node rule children) →
    rule.Produces (children.map label) ∨ allowed .missingChild ∧ allowed .missingArguments

/-- Trees of the grammar have its shape. -/
theorem shaped_grammatical : Shaped Grammatical fun _ => False :=
  ⟨Hereditary.parts, fun grammatical => .inl (grammatical_node.mp grammatical).1⟩

namespace Shaped

variable {rule : Rule} {property : Tree → Prop} {allowed : Fault → Prop}
  (shape : Shaped property allowed)

include shape

/-- Where a rule does not produce the children of a node, it is allowed that a child is missing. -/
theorem missing {children : List Tree} (holds : property (.node rule children))
    (unproduced : ¬rule.Produces (children.map label)) : allowed .missingChild :=
  ((shape.shaped holds).resolve_left unproduced).1

/-- Where a rule does not produce the children of a node, it is allowed that the arguments of a call
are missing. -/
theorem missingArguments {children : List Tree} (holds : property (.node rule children))
    (unproduced : ¬rule.Produces (children.map label)) : allowed .missingArguments :=
  ((shape.shaped holds).resolve_left unproduced).2

/-- Where a rule does not produce the children of a node, a question may fail for a missing
child. -/
theorem missing_of_error {children : List Tree} {cause : Fault}
    (holds : property (.node rule children)) (unproduced : ¬rule.Produces (children.map label))
    (failed : (.error .missingChild : Except Fault α) = .error cause) :
    allowed cause := by
  obtain rfl := Except.error.inj failed
  exact shape.missing holds unproduced

/-! ## Names -/

variable {tree : Tree} {cause : Fault}

theorem rootName (holds : property tree) (failed : tree.rootName = .error cause) :
    allowed cause := by
  fun_induction Tree.rootName tree with
  | case3 | case4 => exact shape.missing_of_error holds (by simp [Rule.Produces]) failed
  | case5 rule child rest _ ih => exact ih (shape.hereditary _ _ holds child (.head _)) failed
  | _ => cases failed

theorem root? (holds : property tree) (failed : tree.root? = .error cause) : allowed cause :=
  shape.rootName holds (error_of_map failed)

theorem firstField {fallback : String} (holds : property tree)
    (failed : tree.firstField fallback = .error cause) :
    allowed cause := by
  fun_induction Tree.firstField fallback tree with
  | case1 | case3 => exact shape.missing_of_error holds (by simp [Rule.Produces]) failed
  | case4 child rest _ ih | case5 rule child _ ih =>
    exact ih (shape.hereditary _ _ holds child (.head _)) failed
  | _ => cases failed

theorem fieldPath (holds : property tree) (failed : tree.fieldPath = .error cause) :
    allowed cause := by
  fun_induction Tree.fieldPath tree with
  | case1 object field rest ih =>
    exact ih (shape.hereditary _ _ holds object (.head _)) (error_of_map failed)
  | case2 children notLonger =>
    refine shape.missing_of_error holds (fun produced => ?_) failed
    obtain ⟨object, field, rfl, -, -⟩ := map_label_two.mp produced
    exact notLonger object field [] rfl
  | case3 child ih | case4 child ih => exact ih (shape.hereditary _ _ holds child (.head _)) failed
  | _ => cases failed

/-! ## Times -/

omit shape in
theorem anyIsDuration {trees : List Tree}
    (each : ∀ tree ∈ trees, tree.isDuration = .error cause → allowed cause)
    (failed : Tree.anyIsDuration trees = .error cause) : allowed cause := by
  induction trees with
  | nil => cases failed
  | cons tree rest ih =>
    have later := ih fun other member => each other (.tail _ member)
    unfold Tree.anyIsDuration at failed
    split at failed
    next same => simp at same
    next same =>
      obtain ⟨-, rfl⟩ := List.cons.inj same
      exact later failed
    next _ same =>
      obtain ⟨rfl, rfl⟩ := List.cons.inj same
      split at failed
      · exact later failed
      · exact each _ (.head _) failed

theorem isDuration (holds : property tree) (failed : tree.isDuration = .error cause) :
    allowed cause := by
  induction tree with
  | token leaf => cases failed
  | node rule children ih =>
    unfold Tree.isDuration at failed
    split at failed
    · cases failed
    · cases failed
    next same =>
      obtain ⟨rfl, rfl⟩ := Tree.node.inj same
      exact shape.missing_of_error holds (by simp [Rule.Produces]) failed
    next same =>
      obtain ⟨rfl, rfl⟩ := Tree.node.inj same
      exact anyIsDuration (fun child member =>
        ih child member (shape.hereditary _ _ holds child member)) failed

omit shape in
theorem anyIsTemporal {trees : List Tree}
    (each : ∀ tree ∈ trees, tree.isTemporal = .error cause → allowed cause)
    (failed : Tree.anyIsTemporal trees = .error cause) : allowed cause := by
  induction trees with
  | nil => cases failed
  | cons tree rest ih =>
    unfold Tree.anyIsTemporal at failed
    split at failed
    · exact ih (fun other member => each other (.tail _ member)) failed
    · exact each tree (.head _) failed

theorem isTemporal (holds : property tree) (failed : tree.isTemporal = .error cause) :
    allowed cause := by
  induction tree with
  | token leaf => cases failed
  | node rule children ih =>
    unfold Tree.isTemporal at failed
    split at failed
    case h_3 same | h_5 same =>
      obtain ⟨rfl, rfl⟩ := Tree.node.inj same
      exact shape.missing_of_error holds (by simp [Rule.Produces]) failed
    case h_6 same =>
      obtain ⟨rfl, rfl⟩ := Tree.node.inj same
      exact anyIsTemporal (fun child member =>
        ih child member (shape.hereditary _ _ holds child member)) failed
    all_goals cases failed

variable {left right : Tree}

theorem eitherTemporal (leftHolds : property left) (rightHolds : property right)
    (failed : Convert.eitherTemporal left right = .error cause) : allowed cause := by
  unfold Convert.eitherTemporal at failed
  split at failed
  · exact shape.isTemporal rightHolds failed
  · exact shape.isTemporal leftHolds failed

theorem durationFirst (leftHolds : property left) (rightHolds : property right)
    (failed : Convert.durationFirst left right = .error cause) : allowed cause := by
  unfold Convert.durationFirst at failed
  split at failed
  · exact shape.isDuration rightHolds (error_of_map failed)
  · exact shape.isDuration leftHolds failed

/-! ## Fields -/

variable {catalog : Catalog} {children : List Tree}

theorem isJsonPath (holds : property (.node .memberDot children))
    (failed : catalog.isJsonPath children = .error cause) : allowed cause := by
  unfold Catalog.isJsonPath at failed
  split at failed
  · exact shape.missing_of_error holds (by simp [Rule.Produces]) failed
  next object rest =>
    have objectHolds := shape.hereditary _ _ holds object (.head _)
    split at failed
    next found =>
      cases failed
      exact shape.root? objectHolds found
    · cases failed
    · split at failed
      · exact shape.missing_of_error holds (by simp [Rule.Produces]) failed
      · exact shape.firstField objectHolds (error_of_map failed)

theorem isJsonText (holds : property tree) (failed : catalog.isJsonText tree = .error cause) :
    allowed cause := by
  have inner := shape.hereditary.core holds
  unfold Catalog.isJsonText at failed
  split at failed
  next children same => exact shape.isJsonPath (same ▸ inner) failed
  · cases failed

theorem isArraySelection (holds : property (.node .memberDot children))
    (failed : catalog.isArraySelection children = .error cause) : allowed cause := by
  unfold Catalog.isArraySelection at failed
  split at failed
  · exact shape.missing_of_error holds (by simp [Rule.Produces]) failed
  next object rest =>
    split at failed
    next found =>
      cases failed
      exact shape.root? (shape.hereditary _ _ holds object (.head _)) found
    · exact shape.missing_of_error holds (by simp [Rule.Produces]) failed
    · cases failed
    · cases failed

theorem isArrayName (holds : property (.node .ident children))
    (failed : catalog.isArrayName children = .error cause) :
    allowed cause := by
  unfold Catalog.isArrayName at failed
  split at failed
  · exact shape.missing_of_error holds (by simp [Rule.Produces]) failed
  · cases failed

theorem isArrayValue (holds : property tree) (failed : catalog.isArrayValue tree = .error cause) :
    allowed cause := by
  have inner := shape.hereditary.core holds
  unfold Catalog.isArrayValue at failed
  split at failed
  · cases failed
  · cases failed
  next children same => exact shape.isArraySelection (same ▸ inner) failed
  next children same => exact shape.isArrayName (same ▸ inner) failed
  · cases failed

theorem presenceNested {root : Option String} (holds : property (.node .memberDot children))
    (failed : Convert.presenceOfSelection.nested catalog children root = .error cause) :
    allowed cause := by
  unfold Convert.presenceOfSelection.nested at failed
  split at failed
  · cases failed
  · exact shape.isJsonPath holds (error_of_map failed)

theorem presenceOfSelection {object field : Tree} (objectHolds : property object)
    (holds : property (.node .memberDot children))
    (failed : Convert.presenceOfSelection catalog object field children = .error cause) :
    allowed cause := by
  unfold Convert.presenceOfSelection at failed
  split at failed
  next found =>
    cases failed
    exact shape.root? objectHolds found
  · exact shape.presenceNested holds failed
  next unwrapped =>
    exact shape.missing_of_error (shape.hereditary.unwrap objectHolds unwrapped)
      (by simp [Rule.Produces]) failed
  next owner rest _ unwrapped =>
    -- The owner is the object of the selection before the last.
    have selected := shape.hereditary.unwrap objectHolds unwrapped
    split at failed
    next found =>
      cases failed
      exact shape.root? (shape.hereditary _ _ selected owner (.head _)) found
    · exact shape.missing_of_error selected (by simp [Rule.Produces]) failed
    · split at failed
      · cases failed
      · exact shape.presenceNested holds failed
    · exact shape.presenceNested holds failed

theorem presenceTest {value : Tree} (holds : property value)
    (failed : Convert.presenceTest catalog value = .error cause) : allowed cause := by
  unfold Convert.presenceTest at failed
  split at failed
  · cases failed
  next object field rest unwrapped =>
    have selected := shape.hereditary.unwrap holds unwrapped
    exact shape.presenceOfSelection (shape.hereditary _ _ selected object (.head _)) selected failed
  next object unwrapped =>
    have selected := shape.hereditary.unwrap holds unwrapped
    split at failed
    next found =>
      cases failed
      exact shape.root? (shape.hereditary _ _ selected object (.head _)) found
    · exact shape.missing_of_error selected (by simp [Rule.Produces]) failed
  next unwrapped =>
    exact shape.missing_of_error (shape.hereditary.unwrap holds unwrapped)
      (by simp [Rule.Produces]) failed

end Shaped

end Tree

end CelWhere
