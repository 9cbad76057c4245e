import CelWhere.Proofs.Blame.Basic

/-! # Comprehensions of conversions

A conversion nests comprehensions as the tree does, since only the call of a comprehension adds one
around what it is called with. A run fails for comprehensions that are nested too deeply only where
there is no room for them: no check that is made on the way, and no question that is asked about a
tree, fails for that reason.

* `Fragment.Allowance.nesting` — faults that have nothing to do with nesting, with room for some
  comprehensions;
* `Settings.visit_not_nesting` — so a tree is not refused where there is room for its chains. -/

namespace CelWhere

open Fragment

/-- Any literal and any fault but that of nested comprehensions, with room for a number of
comprehensions. -/
def Fragment.Allowance.nesting (limit : Nat) : Allowance where
  literal _ := True
  fault cause := cause.isNesting = false
  refused refusal := (Fault.isRefusal_iff.mp refusal).2
  room := some limit

namespace Fragment.Allowance

variable {limit : Nat}

/-- A literal is not refused for nesting. -/
theorem literalOf_nesting (token : Token) : (literalOf token).Each (nesting limit) := by
  have read (radix : Radix) (text : String) :
      (attempt (readInteger radix text) fun value => .literal (.int value)).Each
        (nesting limit) := by
    refine each_attempt (fun failed => ?_) fun value _ => (each_literal _).mpr trivial
    unfold readInteger at failed
    split at failed <;> cases failed
    rfl
  unfold literalOf
  split
  · exact each_text _
  · exact each_text _
  · exact read _ _
  · exact read _ _
  · split
    · exact (each_literal _).mpr trivial
    · exact (each_fail _).mpr rfl
  · exact Convert.withoutNull_each _ _ ((each_literal _).mpr trivial)
  · exact Convert.withoutNull_each _ _ ((each_literal _).mpr trivial)
  · exact (each_literal _).mpr trivial
  · exact (each_fail _).mpr rfl
  · exact (each_fail _).mpr rfl

/-- A duration is not refused for nesting. -/
theorem duration_nesting (dialect : Dialect) (text : String) :
    (attempt (Duration.read text) fun found => dialect.duration found.value found.unit.name).Each
      (nesting limit) := by
  have counted : ∀ units cause, Duration.totalOf text.toList units = .error cause →
      cause.isNesting = false := by
    intro units cause failed
    induction units generalizing cause with
    | nil => cases failed
    | cons unit rest ih =>
      unfold Duration.totalOf at failed
      split at failed
      · exact ih cause failed
      · split at failed
        · cases failed
          rfl
        · exact ih cause (error_of_map failed)
  refine each_attempt (fun failed => ?_) fun found _ =>
    dialect.duration_each (fun _ => rfl) fun _ _ => rfl
  unfold Duration.read at failed
  split at failed
  next inner uncounted =>
    cases failed
    exact counted _ _ uncounted
  · split at failed <;> cases failed
    rfl

/-- There is room for the chains of a tree, and inside a comprehension for the rest of them. -/
theorem nesting_covers (dialect : Dialect) :
    Convert.CoversNesting dialect fun allowance property => ∃ limit, allowance = nesting limit ∧
      property = Tree.NestsWithin limit where
  covers := by
    rintro _ _ ⟨limit, rfl, rfl⟩
    exact
      { hereditary := Tree.NestsWithin.hereditary limit
        shaped := fun _ => .inr ⟨rfl, rfl⟩
        literal := fun _ => literalOf_nesting _
        position := by
          intro token cause _ _ failed
          unfold readInteger at failed
          split at failed <;> cases failed
          rfl
        large := fun _ _ _ _ => rfl
        duration := fun _ _ => duration_nesting dialect _ }
  inside := by
    rintro _ _ tree ⟨limit, rfl, rfl⟩ within calls
    obtain ⟨first, isFirst⟩ := List.exists_mem_of_ne_nil _ calls
    obtain ⟨lower, rfl, -⟩ := within.inside isFirst
    refine ⟨by simp [nesting], Tree.NestsWithin lower, ⟨lower, by simp [nesting, inner], rfl⟩,
      fun operand isOperand => ?_⟩
    obtain ⟨same, equal, operandWithin⟩ := within.inside isOperand
    obtain rfl : lower = same := by omega
    exact operandWithin

end Fragment.Allowance

/-- **No comprehension is refused where there is room for all of them.** -/
theorem Settings.visit_not_nesting {settings : Settings} {session : Session} {tree : Tree}
    {limit : Nat} {cause : Fault} (within : tree.NestsWithin limit)
    (room : session.nesting + limit ≤ comprehensionLimit)
    (failed : (settings.visit session tree).fault = some cause) : cause.isNesting = false := by
  have each : (settings.context.fragment tree).Each (.nesting limit) :=
    Convert.steps_each (Allowance.nesting_covers settings.dialect) tree.height
      ⟨limit, rfl, rfl⟩ tree within
  refine run_fault each (fun value cause _ unwritten => ?_) (.inr ⟨limit, rfl, room⟩) failed
  cases value with
  | int | bytes =>
    simp only [Literal.inlineText] at unwritten
    split at unwritten <;> cases unwritten
    rfl
  | float | string => cases unwritten

end CelWhere
