import CelWhere.Proofs.Operand
import CelWhere.Proofs.Validation.Fragment
import Mathlib.Data.List.Basic

/-! # Which fields of an access are validated

An access goes from a name to a field or an element, from there to the next one, and so on. Behind
an element the first field of the access is not found any more: there each selection is validated by
its own field, as if the table had it.

* `Tree.Accesses` — the accesses from a name by steps;
* `Step.checks` — the steps that are looked at, in their order;
* `Fragment.Meets` — the fault that a fragment ends with, as far as the schemas are concerned;
* `Settings.meets_access` — an access ends with the first fault of the steps that are looked at. -/

namespace CelWhere

/-! ## Steps -/

/-- A step of an access. -/
inductive Step
  /-- The selection of a field. -/
  | field (name : String)
  /-- The selection of an element by the number of a literal. -/
  | element (number : Token)
  deriving DecidableEq, Repr

/-- A tree is an access from a name by steps, of which the last one comes first. -/
inductive Tree.Accesses : Tree → String → List Step → Prop
  /-- A name. -/
  | name (name : Token) : Accesses (.node .ident [.token name]) name.text []
  /-- The selection of a field. -/
  | field {object : Tree} {root : String} {steps : List Step} (inner : Accesses object root steps)
    (field : Token) :
    Accesses (.node .memberDot [object, .token field]) root (.field field.text :: steps)
  /-- The selection of an element. -/
  | element {object index : Tree} {root : String} {steps : List Step} {number : Token}
    (inner : Accesses object root steps)
    (isNumber : index.intLiteral? = some number) :
    Accesses (.node .memberIndex [object, index]) root (.element number :: steps)
  /-- A node around an operand. -/
  | wrapped {rule : Rule} {only : Tree} {root : String} {steps : List Step}
    (inner : Accesses only root steps)
    (around : rule = .member ∨ rule = .primary) : Accesses (.node rule [only]) root steps

namespace Step

/-- What is wrong with a step: the schemas do not have the field, or the number selects no
element. -/
def fault? (catalog : Catalog) (table : String) : Step → Option Fault
  | .field name => catalog.unknownFault? table name
  | .element number =>
    match readInteger .decimal number.text with
    | .error fault => some fault
    | .ok index =>
      if index < 0 then some (.negativeIndex index)
      else if indexLimit < index then some (.indexOverflow index)
      else none

/-- The field that is looked up where a field is selected behind some steps: the first one of the
access, unless there is an element among the steps; then the selected one. -/
def asked (name : String) : List Step → String
  | [] => name
  | [.field first] => first
  | .field _ :: inner => asked name inner
  | .element _ :: _ => name

/-- The steps that are looked at, the last one first, with the fields that are looked up for them.
Where such a field holds JSON, no other one is looked up back to the element before; the flag tells
that this is the case. -/
def checks (catalog : Catalog) (table : String) : Bool → List Step → List Step
  | _, [] => []
  | _, .element number :: inner => .element number :: checks catalog table false inner
  | true, .field _ :: inner => checks catalog table true inner
  | false, .field name :: inner =>
    .field (asked name inner) :: checks catalog table
      (catalog.isJson table (asked name inner)) inner

/-- In front of all elements the first field is asked for. -/
theorem asked_of_fields (name first : String) {inner : List Step}
    (noElement : ∀ number, .element number ∉ inner) :
    asked name (inner ++ [.field first]) = first := by
  induction inner with
  | nil => rfl
  | cons step rest ih =>
    cases step with
    | element number => exact absurd (.head _) (noElement number)
    | field other => cases rest <;> exact ih fun number member => noElement number (.tail _ member)

/-- The first field of an access is among those that are looked up. -/
theorem first_mem_checks (catalog : Catalog) (table first : String) (later : List Step)
    {skips : Bool} (looks : skips = true → ∃ number, .element number ∈ later) :
    .field first ∈ checks catalog table skips (later ++ [.field first]) := by
  induction later generalizing skips with
  | nil =>
    cases skips with
    | true => simp at looks
    | false => simp [checks, asked]
  | cons step inner ih =>
    cases step with
    | element number => simp [checks, @ih false (by simp)]
    | field name =>
      cases skips with
      | true => exact ih fun _ => by simpa using looks rfl
      | false =>
        rw [List.cons_append, checks, List.mem_cons]
        by_cases among : ∃ number, .element number ∈ inner
        · exact .inr (ih fun _ => among)
        · rw [asked_of_fields name first (not_exists.mp among)]
          exact .inl rfl

/-- A fault tells of the schemas if it is that of a field. -/
theorem ofSchemas_iff {catalog : Catalog} {table : String} {step : Step} {fault : Fault}
    (found : step.fault? catalog table = some fault) :
    fault.OfSchemas ↔ ∃ name, step = .field name := by
  cases step with
  | field name =>
    have lacks : catalog.Lacks [(table, name)] fault := ⟨_, .head _, found⟩
    exact iff_of_true lacks.faultClass ⟨name, rfl⟩
  | element number =>
    refine iff_of_false ?_ (by simp)
    cases read : readInteger .decimal number.text with
    | error failed =>
      obtain rfl : failed = fault := by simpa [fault?, read] using found
      exact Convert.readInteger_not_ofSchemas read
    | ok index =>
      simp only [fault?, read] at found
      split at found
      · obtain rfl := Option.some.inj found
        simp [Fault.OfSchemas, Fault.faultClass]
      · split at found
        · obtain rfl := Option.some.inj found
          simp [Fault.OfSchemas, Fault.faultClass]
        · simp at found

end Step

/-! ## The fault of a fragment -/

namespace Fragment

/-- A fragment ends with a fault, or if none is expected, with one that does not tell of the
schemas. Limits are left aside. -/
def Meets (settings : Settings) (expected : Option Fault) (fragment : Fragment) : Prop :=
  ∀ session, session.scope = [] →
    let ended := (fragment.runGuarded settings (fun _ => none) session).fault
    ended = expected ∨ expected = none ∧ ∀ fault ∈ ended, ¬fault.OfSchemas

/-- A fragment ends with no fault that tells of the schemas. -/
def Silent (settings : Settings) (fragment : Fragment) : Prop :=
  ∀ session, ∀ fault ∈ (fragment.runGuarded settings (fun _ => none) session).fault,
    ¬fault.OfSchemas

variable {settings : Settings} {expected : Option Fault} {first second base : Fragment}

theorem silent_text (sql : String) : (text sql).Silent settings := by
  simp [Silent, runGuarded, run]

theorem silent_number (before after : String) (value : Int) :
    (number before value after).Silent settings := by
  unfold number
  split
  · simp [Silent, runGuarded, run, Fault.OfSchemas, Fault.faultClass]
  · exact silent_text _

theorem silent_fieldName (name : String) : (fieldName name).Silent settings := by
  unfold fieldName
  split
  next found =>
    intro session fault same
    obtain rfl := Option.some.inj same
    exact NameRules.not_ofSchemas found
  · exact silent_text _

theorem meets_fail (fault : Fault) : (fail fault).Meets settings (some fault) := fun _ _ => .inl rfl

/-- What is silent may follow. -/
theorem Meets.append (meets : first.Meets settings expected) (silent : second.Silent settings) :
    (first ++ second).Meets settings expected := by
  intro session outside
  show ((first.runGuarded settings _ session).andThen _).fault = expected ∨ _ ∧
    ∀ fault ∈ ((first.runGuarded settings _ session).andThen _).fault, _
  unfold Outcome.andThen
  rcases meets session outside with same | ⟨rfl, quiet⟩
  · cases expected with
    | some fault => simp [same]
    | none => exact .inr ⟨rfl, by simpa [same] using silent _⟩
  · refine .inr ⟨rfl, ?_⟩
    cases ended : (first.runGuarded settings (fun _ => none) session).fault with
    | some fault => simpa [ended] using quiet
    | none => simpa [ended] using silent _

/-- What is wrong with a name does not tell of the schemas. -/
theorem meets_reference (name : String) : (reference name).Meets settings none := by
  unfold reference
  split
  next fault found =>
    have refuses : (unlessBound name fault).Meets settings none := by
      intro session outside
      refine .inr ⟨rfl, ?_⟩
      simpa [runGuarded, run, outside] using NameRules.not_ofSchemas found
    exact refuses.append (silent_text _)
  · exact fun _ _ => .inl rfl

variable (meets : base.Meets settings expected)

include meets

/-- A text may come before. -/
theorem Meets.text_append (sql : String) : (text sql ++ base).Meets settings expected :=
  fun session outside => meets (session.write sql) outside

theorem Meets.nested : (nested base).Meets settings expected :=
  fun session outside => meets { session with depth := session.depth + 1 } outside

/-- A field is looked up before what follows. -/
theorem Meets.known_append (validate : settings.validate = true) (table field : String) :
    (known table field ++ base).Meets settings
      ((settings.catalog.unknownFault? table field).or expected) := by
  intro session outside
  have asks : ((known table field).runGuarded settings (fun _ => none) session) =
      { session, fault := settings.catalog.unknownFault? table field } := by
    simp [runGuarded, run, validate, outside]
  show (((known table field).runGuarded settings _ session).andThen _).fault = _ ∨ _ ∧
    ∀ fault ∈ (((known table field).runGuarded settings _ session).andThen _).fault, _
  rw [asks]
  cases settings.catalog.unknownFault? table field with
  | some fault => exact .inl rfl
  | none => exact meets session outside

theorem Meets.elementAt (dialect : Dialect) (index : Int) :
    (dialect.elementAt base index).Meets settings expected := by
  cases dialect with
  | postgresql | duckdb | bigquery => exact meets.append (silent_number _ _ _)
  | mysql | sqlite => exact (meets.text_append _).append (silent_number _ _ _)

theorem Meets.jsonSteps (context : Context) (fields : List String) :
    (Convert.jsonSteps context base fields).Meets settings expected := by
  have jsonField {base : Fragment} (meets : base.Meets settings expected) (field : String)
      (final : Bool) :
      (context.dialect.jsonField base field final).Meets settings expected := by
    cases context.dialect with
    | postgresql | duckdb | mysql => exact meets.append (silent_text _)
    | sqlite | bigquery => exact (meets.text_append _).append (silent_text _)
  induction fields generalizing base with
  | nil => exact meets
  | cons field rest ih =>
    cases rest with
    | nil => exact jsonField meets field true
    | cons next rest => exact ih (jsonField meets field false)

end Fragment

/-! ## Accesses -/

namespace Tree.Accesses

variable {tree : Tree} {root : String} {steps : List Step}

/-- The name of an access is found along first children. -/
theorem rootName (accesses : tree.Accesses root steps) : tree.rootName = .ok (some root) := by
  induction accesses with
  | name => rfl
  | field _ _ ih | element _ _ ih => exact ih
  | wrapped _ around ih => rcases around with rfl | rfl <;> exact ih

/-- Below its wrappers an access without steps is a name. -/
theorem hasRule_operand (accesses : tree.Accesses root steps) :
    tree.operand.hasRule .ident = steps.isEmpty := by
  induction accesses with
  | name | field | element => rfl
  | wrapped _ around ih => rcases around with rfl | rfl <;> exact ih

/-- The walk to the first field ends at an element. -/
theorem firstField (accesses : tree.Accesses root steps) (name : String) :
    tree.firstField name = .ok (Step.asked name steps) := by
  induction accesses with
  | name | element => rfl
  | @field _ _ steps inner field ih =>
    rw [Tree.firstField, inner.hasRule_operand]
    cases steps with
    | nil => rfl
    | cons step rest => exact ih
  | wrapped _ around ih => rcases around with rfl | rfl <;> exact ih

end Tree.Accesses

/-- The first fault of the steps that are looked at. -/
def Step.firstFault? (catalog : Catalog) (table : String) (skips : Bool) (steps : List Step) :
    Option Fault :=
  (checks catalog table skips steps).findSome? (fault? catalog table)

/-- The first fault is that of the last step, or else one of those before it. -/
theorem Step.firstFault?_field (catalog : Catalog) (table name : String) (inner : List Step) :
    let asked := Step.asked name inner
    firstFault? catalog table false (.field name :: inner) =
      (catalog.unknownFault? table asked).or
      (firstFault? catalog table (catalog.isJson table asked) inner) := by
  intro asked
  have looked : fault? catalog table (.field asked) = catalog.unknownFault? table asked := rfl
  rw [firstFault?, checks, List.findSome?_cons, looked]
  cases catalog.unknownFault? table asked <;> rfl

/-- **An access ends with the first fault of the steps that are looked at.** So does what the fields
at its end are selected from, where these are not looked at. -/
theorem Settings.meets_access {settings : Settings} (validate : settings.validate = true)
    {tree : Tree} {root : String} {steps : List Step} (accesses : tree.Accesses root steps)
    (given : root ≠ "") :
    (settings.context.fragment tree).Meets settings
      (Step.firstFault? settings.catalog root false steps) ∧
      ∃ base fields, tree.fieldPath = .ok (base, fields) ∧
        (settings.context.fragment base).Meets settings
        (Step.firstFault? settings.catalog root true steps) := by
  let child := settings.context.child
  induction accesses with
  | name name =>
    have itself : (settings.context.fragment (.node .ident [.token name])).Meets settings none := by
      rw [Context.fragment_eq]
      exact Fragment.meets_reference name.text
    exact ⟨itself, _, _, rfl, itself⟩
  | @field object root steps inner field ih =>
    obtain ⟨objectMeets, base, fields, path, baseMeets⟩ := ih given
    have wholePath : (Tree.node .memberDot [object, .token field]).fieldPath =
        .ok (base, fields ++ [field.text]) := by
      rw [Tree.fieldPath, path]
      rfl
    refine ⟨?_, base, fields ++ [field.text], wholePath, baseMeets⟩
    have rooted : object.root? = .ok (some root) :=
      by simp [Tree.root?, inner.rootName, Except.map, given]
    rw [Context.fragment_eq, Step.firstFault?_field]
    show (Convert.selection settings.context child [object, .token field]).Meets settings _
    simp only [Convert.selection, rooted, Fragment.attempt_ok, Tree.nameText_token,
      inner.firstField]
    refine Fragment.Meets.known_append ?_ validate _ _
    show Fragment.Meets settings _ (if settings.catalog.isJson root _ then _ else _)
    cases settings.catalog.isJson root (Step.asked field.text steps) with
    | true =>
      obtain ⟨column, rest, columns⟩ : ∃ column rest, fields ++ [field.text] = column :: rest := by
        cases fields <;> exact ⟨_, _, rfl⟩
      simp only [Convert.jsonPath, wholePath, Fragment.attempt_ok, columns, if_true]
      exact (baseMeets.nested.append (Fragment.silent_text _)).jsonSteps _ _
    | false =>
      exact (objectMeets.nested.append (Fragment.silent_text _)).append
        (Fragment.silent_fieldName _)
  | @element object index root steps number inner isNumber ih =>
    have itself : (settings.context.fragment (.node .memberIndex [object, index])).Meets settings
        (Step.firstFault? settings.catalog root false (.element number :: steps)) := by
      have noString : index.stringLiteral? = none := by
        obtain ⟨isGiven, isInt⟩ := Option.filter_eq_some_iff.mp isNumber
        simp_all [Tree.stringLiteral?, Token.isString]
      rw [Context.fragment_eq]
      show (Convert.indexing settings.context child [object, index]).Meets settings _
      simp only [Convert.indexing, noString, isNumber, Step.firstFault?, Step.checks,
        List.findSome?_cons, Step.fault?]
      cases readInteger .decimal number.text with
      | error fault => exact Fragment.meets_fail fault
      | ok position =>
        simp only [Fragment.attempt_ok, Convert.fixedElement]
        by_cases negative : position < 0
        · simp only [if_pos negative]
          exact Fragment.meets_fail _
        · by_cases large : indexLimit < position
          · simp only [if_neg negative, if_pos large]
            exact Fragment.meets_fail _
          · simp only [if_neg negative, if_neg large]
            exact (ih given).1.nested.elementAt _ _
    exact ⟨itself, _, _, rfl, itself⟩
  | @wrapped rule only root steps inner around ih =>
    obtain ⟨onlyMeets, base, fields, path, baseMeets⟩ := ih given
    have isLevel : rule.isLevel := by rcases around with rfl | rfl <;> rfl
    rw [settings.context.fragment_level rule isLevel]
    refine ⟨onlyMeets.nested, base, fields, ?_, baseMeets⟩
    rcases around with rfl | rfl <;> exact path

/-- The first fault tells of the schemas if it is that of a field. -/
theorem Step.ofSchemas_firstFault? {catalog : Catalog} {table : String} {steps : List Step} :
    (∃ fault, steps.findSome? (fault? catalog table) = some fault ∧ fault.OfSchemas) ↔
      ∃ name, steps.find? (fun step => (step.fault? catalog table).isSome) =
      some (.field name) := by
  induction steps with
  | nil => simp
  | cons step rest ih =>
    rw [List.findSome?_cons, List.find?_cons]
    cases found : step.fault? catalog table with
    | none => exact ih
    | some fault => simpa using ofSchemas_iff found

/-- **Which accesses validation refuses.** Take an access to a first field of a table and on from
there, and settings that ask for validation. The first field is looked up, but it is not the only
one: behind an element, selections look up their own fields in the table. Where the limits allow it,
the conversion is refused for the schemas exactly if the first step that fails, of those that are
looked at from the end of the access on, is a field and not the number of an element. -/
theorem Settings.convertTree_access (settings : Settings) {root first : String} {tree : Tree}
    {later : List Step} (validate : settings.validate = true) (schemas : settings.catalog ≠ [])
    (accesses : tree.Accesses root (later ++ [.field first])) (given : root ≠ "") :
    let looked := Step.checks settings.catalog root false (later ++ [.field first])
    let ends (holds : Fault → Prop) :=
      ∃ fault, settings.convertTree tree.underLevels = .error fault ∧ holds fault
    .field first ∈ looked ∧
      (ends (·.isLimit) ∨
        (ends Fault.OfSchemas ↔
          ∃ name, looked.find? (fun step => (step.fault? settings.catalog root).isSome) =
          some (.field name))) := by
  intro looked ends
  have valid : settings.fault? = none := by simp [fault?, schemas]
  have ended (fault : Fault) : settings.convertTree tree.underLevels = .error fault ↔
      (settings.visit .fresh tree.underLevels).fault = some fault := by
    rw [convertTree_eq_error, valid]
    simp
  refine ⟨Step.first_mem_checks _ _ _ _ (by simp), ?_⟩
  rcases (settings.visit_limits .fresh tree.underLevels).2.1 settings.maxDepth settings.maxLength
    with free | ⟨limit, -⟩
  · right
    have meets : (settings.context.fragment tree.underLevels).Meets settings
        (looked.findSome? (Step.fault? settings.catalog root)) := by
      rw [Context.fragment_underLevels]
      exact (meets_access validate accesses
        given).1.nested.nested.nested.nested.nested.nested.nested
    have same : settings.visit .fresh tree.underLevels =
        settings.visitUnlimited .fresh tree.underLevels := free
    rw [← Step.ofSchemas_firstFault?]
    simp only [ends, ended, same]
    rcases meets .fresh rfl with found | ⟨none, silent⟩
    · rw [← found]
      rfl
    · rw [none]
      refine iff_of_false ?_ (by simp)
      rintro ⟨fault, found, ofSchemas⟩
      exact silent fault found ofSchemas
  · left
    have passed : (settings.visit .fresh tree.underLevels).fault.any Fault.isLimit = true := limit
    cases found : (settings.visit .fresh tree.underLevels).fault with
    | none => simp [found] at passed
    | some fault => exact ⟨fault, (ended fault).mpr found, by simpa [found] using passed⟩

/-- An access whose field behind an element is looked up in the table, and not found there. -/
theorem Settings.convertTree_access_behind :
    let wrapped (inner : Tree) : Tree := .node .member [inner]
    let select (object : Tree) (field : String) : Tree :=
      wrapped (.node .memberDot [object, .token ⟨.ident, field⟩])
    let root := wrapped (.node .primary [.node .ident [.token ⟨.ident, "r"⟩]])
    let number : Token := ⟨.int, "0"⟩
    let tree :=
      select (wrapped (.node .memberIndex [select root "items", .loneLiteral number])) "price"
    let settings : Settings := { catalog := [("r", ⟨[{ name := "items" }]⟩)], validate := true }
    tree.Accesses "r" [.field "price", .element number, .field "items"] ∧
      ∃ fault, settings.convertTree tree.underLevels = .error fault ∧ fault.OfSchemas := by
  intro wrapped select root number tree settings
  have start : root.Accesses "r" [] := .wrapped (.wrapped (.name _) (.inr rfl)) (.inl rfl)
  have items : (select root "items").Accesses "r" [.field "items"] :=
    .wrapped (.field start ⟨.ident, "items"⟩) (.inl rfl)
  have accesses : tree.Accesses "r" ([.field "price", .element number] ++ [.field "items"]) :=
    .wrapped (.field (.wrapped (.element items rfl) (.inl rfl)) ⟨.ident, "price"⟩) (.inl rfl)
  obtain ⟨-, ⟨fault, ended, limit⟩ | refused⟩ :=
    settings.convertTree_access rfl (by simp [settings]) accesses (by decide)
  · have unknown : settings.convertTree tree.underLevels = .error (.unknownField "r" "price") :=
      convertTree_eq_error.mpr (.inr ⟨rfl, by decide +kernel⟩)
    obtain rfl : .unknownField "r" "price" = fault := Except.error.inj (unknown.symm.trans ended)
    simp [Fault.isLimit, Fault.faultClass] at limit
  · exact ⟨accesses, refused.mpr ⟨"price", by decide⟩⟩

/-- The table has the first field of the access, which is refused for the field behind the
element. -/
theorem Settings.convert_access_refused :
    let schema : Schema := ⟨[{ name := "items" }]⟩
    let settings : Settings := { catalog := [("r", schema)], validate := true }
    (schema.find? "items").isSome ∧
      settings.convert "r.items[0].price" = .error (.fault (.unknownField "r" "price")) ∧
      (settings.withValidation false).convert "r.items[0].price" = .ok "r.items[1].price" := by
  decide +kernel

end CelWhere
