import CelWhere.Proofs.Construct.Function

/-! # All parts of an expression are sound

One case for each rule shows that the fragment of a node is sound if the parts below it are settled;
by induction over the tree every part is.

* `Context.Writes` — a part of an expression is written;
* `Surface.step_sound`, `Surface.step_firm` — the step;
* `Surface.Source.settled` — the induction;
* `Surface.Source.sound` — the fragment of the whole expression is sound. -/

namespace CelWhere

/-- A part of a tree is written: its fragment is one of those that the fragment of the tree consists
of. -/
def Context.Writes (context : Context) (tree part : Tree) : Prop :=
  part ∈ tree.parts ∧ context.fragment part ∈ (context.fragment tree).parts

namespace Surface

open CelWhere.Convert

variable {source : Source} {rule : Rule} {children : List Tree}

/-- The fragment of a node is sound if the parts below it are settled. -/
theorem step_sound (ready : source.Ready rule children) :
    IsSound source (source.context.fragment (.node rule children))
      (source.context.fragment (Tree.node rule children).blanked) := by
  have produced := ready.produced
  rw [Context.fragment_eq, Context.fragment_eq]
  by_cases isArranged : rule.isArranged
  · exact arranged_sound isArranged ready
  rw [Tree.blanked_node]
  -- Most rules blank all their children, three of them keep some.
  cases rule with
  | unaryNot | unaryNeg => exact empty_sound
  | memberDot => exact (selection_sound ready).mono rfl
  | memberDotArg => exact methodCall_sound ready
  | memberIndex =>
    obtain ⟨object, index, rfl, -⟩ := Tree.map_label_two.mp produced
    exact indexing_sound ready
  | memberObject => exact .fail _
  | dotIdentArg => exact dottedCall_sound ready
  | dotIdent => exact dottedName_sound ready
  | identArg => exact functionCall_sound ready
  | ident => exact name_sound ready
  | parenExpr => exact (parenthesised_sound ready).mono rfl
  | listLit => exact (listOf_sound ready).mono rfl
  | mapLit => exact (mapOf_sound ready).mono rfl
  | exprList =>
    have parts (item : Tree) (member : item ∈ children) :=
      ready.part member (produced.2 _ (List.mem_map_of_mem member))
    have sound := expressions_sound parts fun _ => false
    rwa [Tree.blankedBut_none] at sound
  | fieldInits | mapInits => exact entryValues_sound produced.2 ready.each
  | literal => exact literal_sound ready
  | other name => exact produced.elim
  | _ => exact absurd rfl isArranged

/-- The fragment of a node that consists of a selection is firm: nodes with a single child pass on
what they have below them, or put it into brackets. -/
theorem step_firm (ready : source.Ready rule children) {below : List Tree}
    (found : (Tree.node rule children).unwrap? .memberDot = some below) :
    Sound source .firm (source.context.fragment (.node rule children))
      (source.context.fragment (Tree.node rule children).blanked) := by
  by_cases isSelection : rule = .memberDot
  · subst isSelection
    rw [Context.fragment_eq, Context.fragment_eq, Tree.blanked_node]
    exact selection_sound ready
  · unfold Tree.unwrap? at found
    rw [if_neg isSelection] at found
    split at found
    next child =>
      have childFirm := (ready.each child (.head _) child child.self_mem_parts).firm below found
      have produced := ready.produced
      cases child with
      | token leaf => simp [Tree.unwrap?] at found
      | node inner grandchildren =>
        rw [Context.fragment_eq, Context.fragment_eq, Tree.blanked_single]
        cases rule with
        | memberDot => exact absurd rfl isSelection
        | expr | conditionalOr | conditionalAnd | relation | relationLt | relationLe
        | relationGt | relationGe
        | relationEq | relationNe | relationIn | addition | additionAdd | additionSub
        | multiplication
        | multiplicationMul | multiplicationDiv | multiplicationMod | unary | member
        | primary | exprList =>
          exact childFirm
        | memberObject => exact .fail _
        | parenExpr => exact parenthesised_sound ready
        | listLit => exact listOf_sound ready
        | mapLit => exact mapOf_sound ready
        | unaryNot | unaryNeg | memberDotArg | memberIndex | dotIdentArg | dotIdent | identArg
        | ident | fieldInits
        | mapInits | literal | other name => simp [Rule.Produces, Label.Alternate] at produced
    · simp at found

namespace Source

/-- A node of the expression is settled if its children are. -/
theorem Ready.settled (ready : source.Ready rule children) :
    source.Settled (.node rule children) := by
  have shown : source.Shown (.node rule children) :=
    ⟨ready.mem, fun _ _ => (step_sound ready).nested, fun _ found => (step_firm ready found).nested⟩
  intro part member
  rcases List.mem_cons.mp member with rfl | below
  · exact shown
  · obtain ⟨child, isChild, within⟩ := Tree.mem_partsOf.mp below
    exact ready.each child isChild part within

/-- **All parts are settled.** -/
theorem settled (source : Source) : source.Settled source.tree := by
  have each (tree : Tree) : source.Fit tree → source.Settled tree := by
    induction tree with
    | token leaf =>
      intro fit part member
      obtain rfl := List.mem_singleton.mp member
      exact ⟨fit.mem, by simp, by simp [Tree.unwrap?]⟩
    | node rule children ih =>
      intro fit
      have ready : source.Ready rule children :=
        ⟨fit.mem, fun child member => ih child member
          (hereditary_fit rule children fit child member)⟩
      exact ready.settled
  exact each source.tree fun _ member => member

/-- The fragment of the whole expression is sound. -/
theorem sound (source : Source) (isNode : source.tree.label = .rule rule) :
    IsSound source (source.context.fragment source.tree)
      (source.context.fragment source.tree.blanked) := by
  have settled := source.settled
  obtain ⟨children, same⟩ := Tree.label_eq_rule.mp isNode
  rw [same] at settled ⊢
  exact step_sound settled.ready

end Source

end Surface

end CelWhere
