import CelWhere.Proofs.Alignment

/-! # Validation only refuses

Validation asks the schemas for the fields that an expression names. A run that asks goes through
the same steps as one that does not, until the schemas lack a field; there it ends.

* `Fragment.references` — the fields that a fragment asks for;
* `Catalog.Lacks` — a fault that tells of one that the schemas do not have;
* `Fragment.run_validated` — a validated run has the outcome of the run without validation, or the
  schemas lack a field that the fragment asks for. -/

namespace CelWhere

/-! ## Fields that are asked for -/

/-- The fields that a fragment asks the schemas for, each with its table. -/
def Fragment.references : Fragment → List (String × String)
  | .append first second => first.references ++ second.references
  | .nested body | .comprehension body | .binding _ body => body.references
  | .known table field => [(table, field)]
  | .text _ | .literal _ | .unlessBound .. | .fail _ => []

/-- A fault tells that the schemas do not have one of the fields that are asked for. -/
def Catalog.Lacks (catalog : Catalog) (references : List (String × String)) (fault : Fault) :
    Prop :=
  ∃ reference ∈ references, catalog.unknownFault? reference.1 reference.2 = some fault

namespace Catalog

variable {catalog : Catalog} {references : List (String × String)} {fault : Fault}

/-- What the schemas lack is an error of the schemas. -/
theorem Lacks.faultClass (lacks : catalog.Lacks references fault) :
    fault.faultClass = .refused .invalidSchema := by
  obtain ⟨reference, -, unknown⟩ := lacks
  exact faultClass_of_unknownFault? unknown

/-- What is missing among some fields is missing among more of them. -/
theorem Lacks.mono {more : List (String × String)} (lacks : catalog.Lacks references fault)
    (included : references ⊆ more) : catalog.Lacks more fault := by
  obtain ⟨reference, asked, unknown⟩ := lacks
  exact ⟨reference, included asked, unknown⟩

end Catalog

/-! ## Runs with and without validation -/

/-- The settings with validation on or off. -/
def Settings.withValidation (settings : Settings) (validate : Bool) : Settings :=
  { settings with validate }

/-- A validated run ended because the schemas lack a field. -/
def Outcome.Refused (catalog : Catalog) (references : List (String × String)) (outcome : Outcome) :
    Prop :=
  ∃ fault, outcome.fault = some fault ∧ catalog.Lacks references fault

namespace Outcome.Refused

variable {catalog : Catalog} {references : List (String × String)} {outcome : Outcome}

/-- A refused run does not go on. -/
theorem andThen (refused : outcome.Refused catalog references) (next : Session → Outcome) :
    (outcome.andThen next).Refused catalog references := by
  obtain ⟨fault, ended, lacks⟩ := refused
  refine ⟨fault, ?_, lacks⟩
  simp only [Outcome.andThen, ended]

/-- What is refused for some fields is refused for more of them. -/
theorem mono {more : List (String × String)} (refused : outcome.Refused catalog references)
    (included : references ⊆ more) : outcome.Refused catalog more := by
  obtain ⟨fault, ended, lacks⟩ := refused
  exact ⟨fault, ended, lacks.mono included⟩

end Outcome.Refused

/-- Equal runs, or one that is refused, stay so when the place is set back. -/
theorem Outcome.closing_refused {catalog : Catalog} {references : List (String × String)}
    {checked free : Outcome} (runs : checked = free ∨ checked.Refused catalog references)
    (change : Session → Session) :
    checked.closing change = free.closing change ∨
      (checked.closing change).Refused catalog references := by
  rcases runs with rfl | refused
  · exact .inl rfl
  · exact .inr refused

/-- **Validation only refuses.** A run with validation has the outcome of the run without it, or it
ends because the schemas lack a field that the fragment asks for. -/
theorem Fragment.run_validated (settings : Settings) (fragment : Fragment) (session : Session) :
    fragment.run (settings.withValidation true) session = fragment.run
      (settings.withValidation false) session ∨
      (fragment.run (settings.withValidation true) session).Refused settings.catalog
      fragment.references := by
  induction fragment generalizing session with
  | append first second firstIh secondIh =>
    simp only [run, references]
    rcases firstIh session with same | refused
    · rw [same]
      -- Both runs are at the same session behind the first part.
      unfold Outcome.andThen
      cases (first.run (settings.withValidation false) session).fault with
      | some fault => exact .inl rfl
      | none =>
        refine (secondIh _).imp_right fun refused => ?_
        exact refused.mono (List.subset_append_right _ _)
    · exact .inr ((refused.mono (List.subset_append_left _ _)).andThen _)
  | nested body ih =>
    simp only [run, references]
    -- The limits do not ask whether fields are validated.
    have sameLimits : Session.limitFault? (settings.withValidation true) =
        Session.limitFault? (settings.withValidation false) := rfl
    rw [sameLimits]
    split
    · exact .inl rfl
    · exact Outcome.closing_refused (ih _) _
  | comprehension body ih =>
    simp only [run, references]
    split
    · exact .inl rfl
    · exact Outcome.closing_refused (ih _) _
  | binding name body ih =>
    exact Outcome.closing_refused (ih _) _
  | known table field =>
    have free : (known table field).run (settings.withValidation false) session = { session } := rfl
    rw [free]
    by_cases bound : table ∈ session.scope
    · left
      simp [run, bound]
    · cases unknown : settings.catalog.unknownFault? table field with
      | none =>
        left
        simp [run, Settings.withValidation, unknown]
      | some fault =>
        right
        refine ⟨fault, ?_, (table, field), List.mem_singleton_self _, unknown⟩
        simp [run, Settings.withValidation, bound, unknown]
  | text | literal | unlessBound | fail => exact .inl rfl

/-! ## Conversions with and without validation -/

namespace Settings

/-- A conversion is refused because the schemas lack a field that the expression names. -/
def Refuses (settings : Settings) (tree : Tree) (result : Except Fault Condition) : Prop :=
  ∃ fault, result = .error fault ∧ fault.faultClass = .refused .invalidSchema ∧
    settings.catalog.Lacks (settings.context.fragment tree).references fault

/-- Where there are schemas, a conversion with validation has the result of the conversion without
it, or it is refused. -/
theorem convertTree_withValidation {settings : Settings} (tree : Tree)
    (schemas : settings.catalog ≠ []) :
    (settings.withValidation true).convertTree tree =
      (settings.withValidation false).convertTree tree ∨
      settings.Refuses tree ((settings.withValidation true).convertTree tree) := by
  have checkedValid : (settings.withValidation true).fault? = none := by
    simp [fault?, withValidation, schemas]
  rcases Fragment.run_validated settings (settings.context.fragment tree) .fresh with same | refused
  · left
    have freeValid : (settings.withValidation false).fault? = none := rfl
    have sameVisit : (settings.withValidation true).visit .fresh tree =
      (settings.withValidation false).visit .fresh tree := same
    simp only [convertTree, checkedValid, freeValid, sameVisit]
  · right
    obtain ⟨fault, ended, lacks⟩ := refused
    exact ⟨fault, convertTree_eq_error.mpr (.inr ⟨checkedValid, ended⟩), lacks.faultClass, lacks⟩

/-- **Validation is a filter.** Where there are schemas, what a conversion with validation gives is
what the conversion without it gives; where the one without it succeeds, the one with it gives the
same condition or is refused; and where the one without it fails, the one with it fails in the same
way or is refused. It is refused only with an error of the schemas, for a field that they do not
have. -/
theorem convertTree_filtered (settings : Settings) (tree : Tree) (schemas : settings.catalog ≠ []) :
    let checked := (settings.withValidation true).convertTree tree
    let free := (settings.withValidation false).convertTree tree
    (∀ condition, checked = .ok condition → free = .ok condition) ∧
    (∀ condition, free = .ok condition → checked = .ok condition ∨ settings.Refuses tree checked) ∧
    (∀ fault, free = .error fault → checked = .error fault ∨ settings.Refuses tree checked) := by
  intro checked free
  have runs : checked = free ∨ settings.Refuses tree checked :=
    convertTree_withValidation tree schemas
  refine ⟨?_, ?_, ?_⟩
  · intro condition succeeds
    rcases runs with same | ⟨fault, failed, -⟩
    · rw [← same, succeeds]
    · rw [failed] at succeeds
      simp at succeeds
  · intro condition succeeds
    exact runs.imp_left fun same => same.trans succeeds
  · intro fault failed
    exact runs.imp_left fun same => same.trans failed

/-- A conversion that is refused for its second field, before the reserved word that it fails for
otherwise. -/
theorem convertTree_filtered_unknown :
    let selection (field : String) : Tree := .node .memberDot [.node .ident [.token ⟨.ident, "t"⟩],
      .token ⟨.ident, field⟩]
    let reserved : Tree := .node .ident [.token ⟨.ident, "select"⟩]
    let tree : Tree :=
      .node .conditionalAnd [.node .conditionalAnd [selection "a", selection "b"], reserved]
    let settings : Settings := { catalog := [("t", ⟨[{ name := "a" }]⟩)] }
    settings.catalog ≠ [] ∧
    (settings.withValidation false).convertTree tree = .error (.reservedName "select" "SQL") ∧
    settings.Refuses tree ((settings.withValidation true).convertTree tree) := by
  intro selection reserved tree settings
  have schemas : settings.catalog ≠ [] := by simp [settings]
  have free : (settings.withValidation false).convertTree tree =
      .error (.reservedName "select" "SQL") :=
    convertTree_eq_error.mpr (.inr ⟨rfl, by decide +kernel⟩)
  have checked : (settings.withValidation true).convertTree tree = .error (.unknownField "t" "b") :=
    convertTree_eq_error.mpr (.inr ⟨rfl, by decide +kernel⟩)
  obtain ⟨-, -, failing⟩ := convertTree_filtered settings tree schemas
  refine ⟨schemas, free, (failing _ free).resolve_left ?_⟩
  rw [checked]
  simp

end Settings

end CelWhere
