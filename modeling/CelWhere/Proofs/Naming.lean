import CelWhere.Proofs.Scope
import CelWhere.Proofs.Surface.NullByte

/-! # Names that are written

Names of columns, tables and fields are written as they stand, without quotes. Some of them are
checked by rules that all dialects share: plain fields and keys always, names unless they are
variables. Names with a leading dot and JSON columns are not checked. The rules that a dialect has
of its own differ from the shared ones in their reserved words, so of the names that are checked a
dialect refuses those that are reserved words of its own.

* `NameCheck` — when a name is checked;
* `Context.WritesName` — the names that a node writes, and when they are checked;
* `Fragment.infix_of_mem_texts` — fixed texts stand in what is written;
* `Dialect.nameFault?_eq_none_iff` — what a dialect asks of a name that follows the shared rules. -/

namespace CelWhere

/-- When a name is checked. -/
inductive NameCheck
  /-- Wherever it is written. -/
  | always
  /-- Where it is no variable. -/
  | unlessVariable
  /-- Nowhere. -/
  | never
  deriving DecidableEq, Repr

/-- Whether a name is checked where some variables are bound around it. -/
def NameCheck.covers (around : List String) (name : String) : NameCheck → Bool
  | .always => true
  | .unlessVariable => !around.contains name
  | .never => false

/-- A node writes a name by itself, which is checked in some cases. -/
inductive Context.WritesName (context : Context) : Tree → String → NameCheck → Prop
  /-- A name. -/
  | reference (leaf : Token) : WritesName context (.node .ident [.token leaf]) leaf.text
    .unlessVariable
  /-- A name with a leading dot. -/
  | absolute (leaf : Token) : WritesName context (.node .dotIdent [.token leaf]) leaf.text .never
  /-- A field that is not selected out of a JSON value. -/
  | field (object : Tree) (leaf : Token)
    (isPlain : context.catalog.isJsonPath [object, .token leaf] = .ok false) :
    WritesName context (.node .memberDot [object, .token leaf]) leaf.text .always
  /-- A string that selects an element. -/
  | key (object index : Tree) {token : Token} (isString : index.stringLiteral? = some token) :
    WritesName context (.node .memberIndex [object, index]) token.unquoted .always
  /-- The JSON column that a path of selections goes through. -/
  | column {children : List Tree} {root : Tree} {column : String} {rest : List String}
    (isJson : context.catalog.isJsonPath children = .ok true)
    (path : (Tree.node .memberDot children).fieldPath = .ok (root, column :: rest)) :
    WritesName context (.node .memberDot children) column .never
  /-- The JSON column of a path that is tested for presence. -/
  | presence {value : Tree} {children : List Tree} {root : Tree} {column : String}
    {rest : List String}
    (isJson : Convert.presenceTest context.catalog value = .ok (.jsonPath children))
    (path : (Tree.node .memberDot children).fieldPath = .ok (root, column :: rest)) :
    WritesName context (.node .identArg [.token ⟨.ident, "has"⟩, .node .exprList [value]]) column
      .never

/-! ## Fixed texts -/

namespace Fragment

/-- What fills a gap is a part of the whole. -/
theorem Gap.mem_parts_fill (gap : Gap) (content : Fragment) :
    content ∈ (gap.fill content).parts := by
  induction gap with
  | here => exact self_mem_parts content
  | before gap second ih => exact mem_parts_append.mpr (.inr (.inl ih))
  | behind first gap ih => exact mem_parts_append.mpr (.inr (.inr ih))
  | nested gap ih | comprehension gap ih | binding name gap ih =>
    exact .tail _ ih

/-- Fixed texts stand in what is written. -/
theorem infix_of_mem_texts {settings : Settings} {session : Session} {fragment : Fragment}
    {sql : String} (succeeds : (fragment.run settings session).fault = none)
    (member : sql ∈ fragment.texts) :
    sql.toList <:+: (fragment.run settings session).session.text.toList := by
  obtain ⟨between, ran⟩ := includes_of_mem_parts (mem_texts.mp member) settings session succeeds
  have written := ran.stays.text
  simp only [run, Session.write_text, String.toList_append] at written
  exact (List.suffix_append _ _).isInfix.trans written.isInfix

end Fragment

/-! ## The rules of dialects -/

/-- The rules of a dialect are no stricter than the shared ones, apart from the reserved words. -/
theorem Dialect.nameFault?_eq_none_iff (dialect : Dialect) {name : String}
    (valid : columnNameFault? name = none) :
    dialect.nameFault? name = none ↔ lowerName name ∉ dialect.nameRules.reserved := by
  obtain ⟨given, short, named, -⟩ := NameRules.fault?_eq_none.mp valid
  have fits : ∀ limit ∈ dialect.nameRules.limit, name.length ≤ limit := by
    have atMost : name.length ≤ 63 := short 63 rfl
    intro limit isLimit
    cases dialect with
    | postgresql | mysql | bigquery =>
      obtain rfl := Option.some.inj isLimit
      omega
    | sqlite | duckdb => cases isLimit
  rw [nameFault?, NameRules.fault?_eq_none]
  exact ⟨fun accepted => accepted.2.2.2, fun free => ⟨given, fits, named, free⟩⟩

/-! ## Names of nodes -/

namespace Convert

open Fragment

variable {context : Context} {child : Tree → Fragment} {sql : String}

/-- What a JSON value is selected out of stands in the selection. -/
theorem mem_texts_jsonField (dialect : Dialect) {base : Fragment} (member : sql ∈ base.texts)
    (field : String) (final : Bool) : sql ∈ (dialect.jsonField base field final).texts := by
  cases dialect with
  | postgresql | duckdb | mysql => exact mem_texts_append.mpr (.inl member)
  | sqlite | bigquery => exact mem_texts_append.mpr (.inl (mem_texts_append.mpr (.inr member)))

theorem mem_texts_jsonSteps {base : Fragment} (member : sql ∈ base.texts) (fields : List String) :
    sql ∈ (jsonSteps context base fields).texts := by
  induction fields generalizing base with
  | nil => exact member
  | cons field rest ih =>
    cases rest with
    | nil => exact mem_texts_jsonField _ member field true
    | cons second rest => exact ih (mem_texts_jsonField _ member field false)

/-- A path through a JSON column has the name of the column. -/
theorem mem_texts_jsonPath {children : List Tree} {root : Tree} {column : String}
    {rest : List String}
    (path : (Tree.node .memberDot children).fieldPath = .ok (root, column :: rest)) :
    "." ++ column ∈ (jsonPath context child children).texts := by
  rw [jsonPath, path]
  exact mem_texts_jsonSteps (mem_texts_append.mpr (.inr (List.mem_singleton_self _))) rest

/-- A selection goes through a JSON column, or it selects a field, after a check perhaps. -/
theorem selection_eq {object field : Tree} {rest : List Tree} {json : Bool}
    (found : context.catalog.isJsonPath (object :: field :: rest) = .ok json) :
    ∃ gap : Gap, selection context child (object :: field :: rest) =
      gap.fill (if json then jsonPath context child (object :: field :: rest)
        else child object ++ "." ++ fieldName field.nameText) := by
  simp only [Catalog.isJsonPath] at found
  cases rooted : object.root? with
  | error fault => simp [rooted] at found
  | ok root =>
    cases root with
    | none =>
      obtain rfl : false = json := by simpa [rooted] using found
      exact ⟨.here, by simp only [selection, rooted, attempt_ok]; rfl⟩
    | some table =>
      simp only [rooted] at found
      cases first : object.firstField field.nameText with
      | error fault => simp [first, Except.map] at found
      | ok column =>
        obtain rfl : context.catalog.isJson table column = json :=
          by simpa [first, Except.map] using found
        exact ⟨.behind (.known table column) .here,
          by simp only [selection, rooted, first, attempt_ok]; rfl⟩

end Convert

namespace Context

open Fragment

variable (context : Context)

/-- The conversion of the selection of a field. -/
theorem fragment_memberDot (children : List Tree) :
    context.fragment (.node .memberDot children) =
      Convert.selection context context.child children := by
  rw [fragment_eq]
  rfl

/-- The conversion of the selection of an element. -/
theorem fragment_memberIndex (children : List Tree) :
    context.fragment (.node .memberIndex children) =
      Convert.indexing context context.child children := by
  rw [fragment_eq]
  rfl

/-- The conversion of a test for presence. -/
theorem fragment_has (value : Tree) :
    context.fragment (.node .identArg [.token ⟨.ident, "has"⟩, .node .exprList [value]]) =
      Convert.presence context context.child [value] := by
  rw [fragment_eq]
  rfl

namespace WritesName

variable {context : Context} {part : Tree} {name : String}

/-- A name is written as a reference. -/
theorem fragment_eq_reference (writes : context.WritesName part name .unlessVariable) :
    context.fragment part = CelWhere.reference name := by
  cases writes with
  | reference leaf =>
    rw [Context.fragment_eq]
    rfl

/-- A plain selection checks the name of its field. -/
theorem fieldName_mem_parts {object : Tree} {leaf : Token}
    (isPlain : context.catalog.isJsonPath [object, .token leaf] = .ok false) :
    fieldName leaf.text ∈ (context.fragment (.node .memberDot [object, .token leaf])).parts := by
  obtain ⟨gap, selected⟩ := Convert.selection_eq isPlain
  rw [context.fragment_memberDot, selected]
  exact parts_subset (gap.mem_parts_fill _) (mem_parts_append.mpr (.inr (.inr (self_mem_parts _))))

/-- A name that is always checked is refused if it is not valid. -/
theorem fail_mem_parts (writes : context.WritesName part name .always) {fault : Fault}
    (invalid : columnNameFault? name = some fault) :
    .fail fault ∈ (context.fragment part).parts := by
  cases writes with
  | field object leaf isPlain =>
    have refused : fieldName leaf.text = .fail fault := by rw [fieldName, invalid]
    rw [← refused]
    exact fieldName_mem_parts isPlain
  | @key object index token isString =>
    rw [context.fragment_memberIndex]
    simp only [Convert.indexing, isString, invalid]
    exact self_mem_parts _

/-- A name that is not refused is written, perhaps behind a dot. -/
theorem mem_texts {check : NameCheck} (writes : context.WritesName part name check)
    (valid : check = .always → columnNameFault? name = none) :
    name ∈ (context.fragment part).texts ∨ "." ++ name ∈ (context.fragment part).texts := by
  cases writes with
  | reference leaf =>
    rw [(WritesName.reference leaf).fragment_eq_reference, CelWhere.reference]
    split
    · exact .inl (mem_texts_append.mpr (.inr (List.mem_singleton_self _)))
    · exact .inl (List.mem_singleton_self _)
  | absolute leaf =>
    rw [Context.fragment_eq]
    exact .inr (List.mem_singleton_self _)
  | field object leaf isPlain =>
    have accepted : fieldName leaf.text = .text leaf.text := by rw [fieldName, valid rfl]
    rw [Fragment.mem_texts, ← accepted]
    exact .inl (fieldName_mem_parts isPlain)
  | @key object index token isString =>
    rw [context.fragment_memberIndex]
    simp only [Convert.indexing, isString, valid rfl]
    exact .inr (mem_texts_append.mpr (.inr (List.mem_singleton_self _)))
  | @column children root _ rest isJson path =>
    rw [context.fragment_memberDot]
    rcases children with _ | ⟨object, _ | ⟨field, others⟩⟩
    · simp [Catalog.isJsonPath] at isJson
    · simp only [Catalog.isJsonPath] at isJson
      split at isJson <;> simp at isJson
    · obtain ⟨gap, selected⟩ := Convert.selection_eq isJson
      rw [if_pos rfl] at selected
      rw [selected, Fragment.mem_texts, Fragment.mem_texts]
      exact .inr (parts_subset (gap.mem_parts_fill _)
        (Fragment.mem_texts.mp (Convert.mem_texts_jsonPath path)))
  | presence isJson path =>
    rw [context.fragment_has]
    simp only [Convert.presence, isJson, attempt_ok]
    exact .inr (mem_texts_append.mpr (.inl (Convert.mem_texts_jsonPath path)))

end WritesName

end Context

/-! ## Conversions -/

namespace Settings

open Fragment

variable {settings : Settings} {tree part : Tree} {gap : Gap} {name : String} {check : NameCheck}

/-- A name that is checked where it stands follows the shared rules if the conversion succeeds. -/
theorem columnNameFault?_of_covers (succeeds : (settings.visit .fresh tree).fault = none)
    (stands : settings.context.fragment tree = gap.fill (settings.context.fragment part))
    (writes : settings.context.WritesName part name check)
    (covered : check.covers gap.around name) :
    columnNameFault? name = none := by
  rw [visit, stands] at succeeds
  cases invalid : columnNameFault? name with
  | none => rfl
  | some fault =>
    exfalso
    cases check with
    | always =>
      exact fail_not_mem_parts succeeds fault
        (parts_subset (gap.mem_parts_fill _) (writes.fail_mem_parts invalid))
    | unlessVariable =>
      have free : name ∉ gap.around := by simpa [NameCheck.covers] using covered
      -- No variable is bound at the start, so at this place the check is made.
      have refused : (gap.fill (settings.context.fragment part)).run settings .fresh =
          (gap.fill (.fail fault)).run settings .fresh := by
        have atStart : name ∈ Session.fresh.scope ↔ False := by simp [Session.fresh]
        refine gap.run_fill free (fun session unbound => ?_) .fresh atStart
        have outside : name ∉ session.scope := by simpa using unbound
        rw [writes.fragment_eq_reference, CelWhere.reference, invalid]
        show (Fragment.append (.unlessBound name fault) (.text name)).run settings session = _
        simp [run, outside, Outcome.andThen]
      rw [refused] at succeeds
      exact fail_not_mem_parts succeeds fault (gap.mem_parts_fill _)
    | never => simp [NameCheck.covers] at covered

/-- **Names that are written.** Wherever a node of an expression that is converted writes a name,
the name stands in the condition, whether literals are written out or bound. If it is checked there,
it follows the rules that all dialects share, and the dialect accepts it exactly if it is not one of
the reserved words of the dialect. -/
theorem convertTree_names (settings : Settings) {tree part : Tree} {condition : Condition}
    {gap : Gap} {name : String} {check : NameCheck}
    (converted : settings.convertTree tree = .ok condition)
    (stands : settings.context.fragment tree = gap.fill (settings.context.fragment part))
    (writes : settings.context.WritesName part name check) :
    name.toList <:+: condition.sql.toList ∧
      (check.covers gap.around name → columnNameFault? name = none ∧
        (settings.dialect.nameFault? name = none ↔
          lowerName name ∉ settings.dialect.nameRules.reserved)) := by
  obtain ⟨-, succeeds, written, -⟩ := convertTree_eq_ok.mp converted
  have valid (covered : check.covers gap.around name) : columnNameFault? name = none :=
    columnNameFault?_of_covers succeeds stands writes covered
  refine ⟨?_, fun covered => ⟨valid covered,
    settings.dialect.nameFault?_eq_none_iff (valid covered)⟩⟩
  -- What the node writes is a part of what the whole tree writes.
  have inside {own : String} (member : own ∈ (settings.context.fragment part).texts) :
      own.toList <:+: condition.sql.toList := by
    rw [← written]
    refine infix_of_mem_texts succeeds ?_
    rw [Fragment.mem_texts] at member ⊢
    rw [stands]
    exact parts_subset (gap.mem_parts_fill _) member
  rcases writes.mem_texts (by rintro rfl; exact valid rfl) with alone | behindDot
  · exact inside alone
  · have suffix : name.toList <:+ ("." ++ name).toList := by
      rw [String.toList_append]
      exact List.suffix_append _ _
    exact suffix.isInfix.trans (inside behindDot)

/-- A name in a comprehension that is not the variable of it. -/
theorem convertTree_names_comprehension :
    let settings : Settings := { dialect := .mysql, mode := .parameterized }
    let name (text : String) : Tree := .node .ident [.token ⟨.ident, text⟩]
    let tree := (Comprehension.any (name "l") (name "x") (name "ready")).tree
    ∃ condition, ∃ gap : Gap, settings.convertTree tree = .ok condition ∧
      settings.context.fragment tree = gap.fill (settings.context.fragment (name "ready")) ∧
      gap.around = ["x"] ∧
      settings.context.WritesName (name "ready") "ready" .unlessVariable ∧
      "ready".toList <:+: condition.sql.toList ∧ columnNameFault? "ready" = none ∧
      (Dialect.mysql.nameFault? "ready" = none ↔
        lowerName "ready" ∉ Dialect.mysql.nameRules.reserved) := by
  intro settings name tree
  obtain ⟨body, bodied, writes⟩ :=
    Comprehension.fragment_tree settings.context (.any (name "l") (name "x") (name "ready"))
      (rfl : (name "x").identName = .ok "x")
  obtain ⟨gap, filled, free, -⟩ := writes.gap
    (rfl : _ = [settings.context.fragment (name "l")] ++ settings.context.fragment
      (name "ready") :: [])
  have stands : settings.context.fragment tree =
      (Gap.comprehension (.binding "x" gap)).fill (settings.context.fragment (name "ready")) := by
    rw [bodied, filled]
    rfl
  have around : (Gap.comprehension (.binding "x" gap)).around = ["x"] := by
    show "x" :: gap.around = ["x"]
    rw [free]
  have isWritten : settings.context.WritesName (name "ready") "ready" .unlessVariable :=
    .reference ⟨.ident, "ready"⟩
  have succeeds : (settings.convertTree tree).toOption.isSome := by decide +kernel
  cases converted : settings.convertTree tree with
  | error fault => simp [converted, Except.toOption] at succeeds
  | ok condition =>
    obtain ⟨inside, checked⟩ := convertTree_names settings converted stands isWritten
    have covered : NameCheck.covers (Gap.comprehension (.binding "x" gap)).around "ready"
        .unlessVariable := by
      rw [around]
      decide
    exact ⟨condition, _, rfl, stands, around, isWritten, inside, checked covered⟩

/-- Names that the dialect refuses are written: reserved words of its own, and also shared ones with
a leading dot, as a JSON column, and as the source of a comprehension whose variable has that
name. -/
theorem refused_names_written :
    ({ dialect := .mysql } : Settings).convert "rank == 1" = .ok "rank = 1" ∧
    Dialect.mysql.nameFault? "rank" = some (.reservedName "rank" "MySQL") ∧
    ({ dialect := .sqlite } : Settings).convert "t.key == 1" = .ok "t.key = 1" ∧
    Dialect.sqlite.nameFault? "key" = some (.reservedName "key" "SQLite") ∧
    ({ dialect := .duckdb } : Settings).convert "lateral == 1" = .ok "lateral = 1" ∧
    Dialect.duckdb.nameFault? "lateral" = some (.reservedName "lateral" "DuckDB") ∧
    ({ dialect := .bigquery } : Settings).convert "t[\"hash\"] == 1" = .ok "t.hash = 1" ∧
    Dialect.bigquery.nameFault? "hash" = some (.reservedName "hash" "BigQuery") ∧
    ({} : Settings).convert ".select == 1" = .ok ".select = 1" ∧
    ({ catalog := [("t", ⟨[{ name := "select", isJson := true }]⟩)] } : Settings).convert
    "t.select.a == 1" =
      .ok "(t.select->>'a')::numeric = 1" ∧
    ({} : Settings).convert "select.exists(select, true)" =
      .ok "EXISTS (SELECT 1 FROM UNNEST(select) AS select WHERE TRUE)" ∧
    Dialect.postgresql.nameFault? "select" = some (.reservedName "select" "SQL") := by
  refine ⟨?_, ?_, ?_, ?_, ?_, ?_, ?_, ?_, ?_, ?_, ?_, ?_⟩
  all_goals decide +kernel

end Settings

end CelWhere
