import CelWhere.Convert.Member
import CelWhere.Convert.Operator
import CelWhere.Proofs.Cutoff
import CelWhere.Proofs.Scope
import CelWhere.Proofs.Validation

/-! # Fragments that ask for fields

A fragment without scopes is run outside of them, so that validation asks for every field that it
refers to.

* `Catalog.Has` — the schemas have a field;
* `Fragment.Unscoped` — a fragment has no scopes, and no check of its own tells of the schemas;
* `Fragment.Unscoped.run` — what a validated run of such a fragment tells about the schemas;
* `Fragment.Validates` — a fragment asks for certain fields, with a lemma for the constructs of the
  dialects. -/

namespace CelWhere

variable {settings : Settings} {session : Session} {fault : Fault}

/-! ## Fields of the schemas -/

/-- The schemas have a table and in it a field. -/
def Catalog.Has (catalog : Catalog) (reference : String × String) : Prop :=
  ∃ schema, catalog.table? reference.1 = some schema ∧
    ∃ field ∈ schema.fields, field.name = reference.2

/-- A field is looked up without fault if the schemas have it. -/
theorem Catalog.unknownFault?_eq_none {catalog : Catalog} {reference : String × String} :
    catalog.unknownFault? reference.1 reference.2 = none ↔ catalog.Has reference := by
  rw [unknownFault?, Has]
  cases catalog.table? reference.1 with
  | none => simp
  | some schema =>
    have found : (schema.find? reference.2).isSome ↔
        ∃ field ∈ schema.fields, field.name = reference.2 := by
      simp [Schema.find?]
    simp only [Option.some.injEq, exists_eq_left', ← found]
    split <;> simp [*]

/-- A fault tells that the schemas do not have what is asked of them. -/
def Fault.OfSchemas (fault : Fault) : Prop :=
  fault.faultClass = .refused .invalidSchema

/-- What is wrong with a name does not tell of the schemas. -/
theorem NameRules.not_ofSchemas {rules : NameRules} {name : String}
    (found : rules.fault? name = some fault) :
    ¬fault.OfSchemas := by
  simp [Fault.OfSchemas, faultClass_of_fault? found]

/-- An integer that cannot be read does not tell of the schemas. -/
theorem Convert.readInteger_not_ofSchemas {radix : Radix} {text : String}
    (failed : readInteger radix text = .error fault) : ¬fault.OfSchemas := by
  rw [readInteger] at failed
  split at failed
  · simp at failed
  · obtain rfl := Except.error.inj failed
    simp [Fault.OfSchemas, Fault.faultClass]

/-- A limit does not tell of the schemas. -/
theorem Session.not_ofSchemas (found : session.limitFault? settings = some fault) :
    ¬fault.OfSchemas := by
  intro ofSchemas
  have limit := isLimit_of_limitFault? found
  rw [Fault.OfSchemas] at ofSchemas
  simp [Fault.isLimit, ofSchemas] at limit

/-- A literal is refused only for its size. -/
theorem Literal.not_ofSchemas {dialect : Dialect} {value : Literal}
    (failed : value.inlineText dialect = .error fault) :
    ¬fault.OfSchemas := by
  cases value with
  | int number =>
    rw [inlineText] at failed
    split at failed
    · obtain rfl := Except.error.inj failed
      simp [Fault.OfSchemas, Fault.faultClass]
    · simp at failed
  | bytes bytes =>
    rw [inlineText] at failed
    split at failed
    · obtain rfl := Except.error.inj failed
      simp [Fault.OfSchemas, Fault.faultClass]
    · simp at failed
  | float source number => simp [inlineText] at failed
  | string text => simp [inlineText] at failed

/-! ## Fragments that ask for fields -/

namespace Fragment

variable (sql name table field : String) (value : Literal) (first second body : Fragment)

/-- A fragment has no scopes, and no check of its own tells of the schemas. -/
def Unscoped : Fragment → Prop
  | .append first second => first.Unscoped ∧ second.Unscoped
  | .nested body => body.Unscoped
  | .comprehension _ | .binding .. => False
  | .unlessBound _ fault | .fail fault => ¬fault.OfSchemas
  | .text _ | .literal _ | .known .. => True

@[simp] theorem unscoped_text : (Fragment.text sql).Unscoped := trivial

@[simp] theorem unscoped_empty : Fragment.empty.Unscoped := trivial

@[simp] theorem unscoped_literal : (Fragment.literal value).Unscoped := trivial

@[simp] theorem unscoped_append :
    (first ++ second).Unscoped ↔ first.Unscoped ∧ second.Unscoped := .rfl

@[simp] theorem unscoped_nested : (Fragment.nested body).Unscoped ↔ body.Unscoped := .rfl

@[simp] theorem unscoped_fail (fault : Fault) :
    (Fragment.fail fault).Unscoped ↔ ¬fault.OfSchemas := .rfl

@[simp] theorem unscoped_unlessBound (fault : Fault) :
    (Fragment.unlessBound name fault).Unscoped ↔ ¬fault.OfSchemas := .rfl

@[simp] theorem unscoped_known : (Fragment.known table field).Unscoped := trivial

@[simp] theorem references_text : (Fragment.text sql).references = [] := rfl

@[simp] theorem references_empty : Fragment.empty.references = [] := rfl

@[simp] theorem references_literal : (Fragment.literal value).references = [] := rfl

@[simp] theorem references_append :
    (first ++ second).references = first.references ++ second.references := rfl

@[simp] theorem references_nested : (Fragment.nested body).references = body.references := rfl

@[simp] theorem references_fail (fault : Fault) : (Fragment.fail fault).references = [] := rfl

@[simp] theorem references_unlessBound (fault : Fault) :
    (Fragment.unlessBound name fault).references = [] := rfl

@[simp] theorem references_known :
    (Fragment.known table field).references = [(table, field)] := rfl

end Fragment

/-- What an outcome tells about the schemas: they have the fields if there was no fault, and lack
one of them if the fault says so. -/
def Outcome.Tells (catalog : Catalog) (references : List (String × String)) (outcome : Outcome) :
    Prop :=
  (outcome.fault = none → ∀ reference ∈ references, catalog.Has reference) ∧
    ∀ fault, outcome.fault = some fault → fault.OfSchemas →
    ∃ reference ∈ references, ¬catalog.Has reference

/-- **What a validated run tells.** Outside of scopes, a validated run of a fragment that has none
succeeds only if the schemas have all the fields that it asks for, and fails for the schemas only if
they lack one. -/
theorem Fragment.Unscoped.run {fragment : Fragment} (unscoped : fragment.Unscoped)
    (validate : settings.validate) (outside : session.scope = []) :
    (fragment.run settings session).Tells settings.catalog fragment.references := by
  induction fragment generalizing session with
  | append first second firstIh secondIh =>
    obtain ⟨firstHas, firstLacks⟩ := firstIh unscoped.1 outside
    rw [Fragment.run, references]
    unfold Outcome.andThen
    cases ended : (first.run settings session).fault with
    | some fault =>
      refine ⟨by simp [ended], ?_⟩
      intro found same ofSchemas
      obtain ⟨reference, asked, lacks⟩ := firstLacks found same ofSchemas
      exact ⟨reference, List.mem_append_left _ asked, lacks⟩
    | none =>
      -- The second part runs outside of scopes too.
      have stillOutside : (first.run settings session).session.scope = [] := by
        rw [run_scope settings first session ended, outside, List.filter_nil]
      obtain ⟨secondHas, secondLacks⟩ := secondIh unscoped.2 stillOutside
      constructor
      · intro succeeds reference asked
        rcases List.mem_append.mp asked with inFirst | inSecond
        · exact firstHas ended reference inFirst
        · exact secondHas succeeds reference inSecond
      · intro found same ofSchemas
        obtain ⟨reference, asked, lacks⟩ := secondLacks found same ofSchemas
        exact ⟨reference, List.mem_append_right _ asked, lacks⟩
  | nested body ih =>
    rw [Fragment.run, references]
    cases limit : Session.limitFault? settings { session with depth := session.depth + 1 } with
    | some fault =>
      refine ⟨by simp, ?_⟩
      intro found same ofSchemas
      obtain rfl := Option.some.inj same
      exact absurd ofSchemas (Session.not_ofSchemas limit)
    | none => exact ih unscoped outside
  | comprehension body => exact unscoped.elim
  | binding name body => exact unscoped.elim
  | known table field =>
    have asks : ((known table field).run settings session).fault =
        settings.catalog.unknownFault? table field := by
      simp [Fragment.run, validate, outside]
    have looked : settings.catalog.unknownFault? table field = none ↔
        settings.catalog.Has (table, field) :=
      @Catalog.unknownFault?_eq_none settings.catalog (table, field)
    constructor
    · intro succeeds reference asked
      obtain rfl := List.mem_singleton.mp asked
      exact looked.mp (asks.symm.trans succeeds)
    · intro found same ofSchemas
      refine ⟨(table, field), List.mem_singleton_self _, ?_⟩
      intro has
      rw [asks, looked.mpr has] at same
      simp at same
  | unlessBound name fault =>
    refine ⟨by simp [references], ?_⟩
    intro found same ofSchemas
    obtain rfl : fault = found := by simpa [Fragment.run, outside] using same
    exact absurd ofSchemas unscoped
  | fail fault =>
    refine ⟨by simp [references], ?_⟩
    intro found same ofSchemas
    obtain rfl := Option.some.inj same
    exact absurd ofSchemas unscoped
  | text sql => exact ⟨by simp [references], by simp [Fragment.run]⟩
  | literal value =>
    refine ⟨by simp [references], ?_⟩
    intro found same ofSchemas
    rw [Fragment.run] at same
    cases mode : settings.mode with
    | parameterized => simp [mode] at same
    | inline =>
      cases written : value.inlineText settings.dialect with
      | ok spelling => simp [mode, written] at same
      | error fault =>
        obtain rfl : fault = found := by simpa [mode, written] using same
        exact absurd ofSchemas (Literal.not_ofSchemas written)

/-! ## Constructs that ask for what their parts ask for -/

/-- A fragment asks for certain fields, and it has no scopes. -/
structure Fragment.Validates (references : List (String × String)) (fragment : Fragment) :
    Prop where
  /-- It asks for these fields and for no others. -/
  asked : ∀ reference, reference ∈ fragment.references ↔ reference ∈ references
  /-- It has no scopes. -/
  unscoped : fragment.Unscoped

namespace Fragment.Validates

variable (dialect : Dialect) {first second : Fragment} {one two : List (String × String)}

/-- An expression one level deeper asks for what it asks for itself. -/
theorem nested_iff : Validates one (.nested first) ↔ Validates one first :=
  ⟨fun validates => ⟨validates.asked, validates.unscoped⟩,
    fun validates => ⟨validates.asked, validates.unscoped⟩⟩

/-- A membership test asks for what the value and the array ask for. -/
theorem membership (value : Validates one first) (array : Validates two second) :
    Validates (one ++ two) (dialect.membership first second) := by
  constructor
  · intro reference
    cases dialect with
    | mysql => simp [Dialect.membership, value.asked, array.asked, or_comm]
    | postgresql | sqlite | duckdb | bigquery => simp [Dialect.membership, value.asked, array.asked]
  · cases dialect <;> simp [Dialect.membership, value.unscoped, array.unscoped]

/-- A cast asks for what its operand asks for. -/
theorem castToNumeric (operand : Validates one first) :
    Validates one (dialect.castToNumeric ("(" ++ first ++ ")")) := by
  constructor
  · intro reference
    cases dialect <;> simp [Dialect.castToNumeric, operand.asked]
  · cases dialect <;> simp [Dialect.castToNumeric, operand.unscoped]

/-- A concatenation asks for what its operands ask for. -/
theorem concat (left : Validates one first) (right : Validates two second) :
    Validates (one ++ two) (dialect.concat first second) := by
  constructor
  · intro reference
    cases dialect <;> simp [Dialect.concat, left.asked, right.asked]
  · cases dialect <;> simp [Dialect.concat, left.unscoped, right.unscoped]

/-- Arithmetic with times asks for what the time and the duration ask for. -/
theorem timestampArithmetic (operator : String) (time : Validates one first)
    (duration : Validates two second) :
    Validates (one ++ two) (dialect.timestampArithmetic operator first second) := by
  constructor
  · intro reference
    cases dialect <;>
      simp [Dialect.timestampArithmetic, apply_ite Fragment.references, time.asked, duration.asked]
  · cases dialect <;>
      simp [Dialect.timestampArithmetic, apply_ite Fragment.Unscoped, time.unscoped,
        duration.unscoped]

/-- Fields of a JSON value ask for what the value asks for. -/
theorem jsonField (field : String) (final : Bool) (base : Validates one first) :
    Validates one (dialect.jsonField first field final) := by
  constructor
  · intro reference
    cases dialect <;> simp [Dialect.jsonField, base.asked]
  · cases dialect <;> simp [Dialect.jsonField, base.unscoped]

/-- A path through a JSON value asks for what the value asks for. -/
theorem jsonSteps (context : Context) (fields : List String) (base : Validates one first) :
    Validates one (Convert.jsonSteps context first fields) := by
  induction fields generalizing first with
  | nil => exact base
  | cons field rest ih =>
    cases rest with
    | nil => exact base.jsonField _ _ _
    | cons next rest => exact ih (base.jsonField _ _ _)

end Fragment.Validates

end CelWhere
