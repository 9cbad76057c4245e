import CelWhere.Proofs.Alignment
import CelWhere.Proofs.Lexical.Basic

/-! # Where null bytes come from

A run writes the fixed texts of its fragment, and literals that have been looked through for null
bytes. So a null byte comes from a fixed text, and the fixed texts that can have one are the format
of a formatted string and the literal of the unit of an interval, which are not looked through.

* `Tree.unchecked?` — the texts of these calls;
* `Fragment.null_mem_run` — the null bytes of a run are those of the fixed texts. -/

namespace CelWhere

variable {value : Literal}

/-! ## Literals -/

namespace Literal

/-- A literal whose text has no null bytes. -/
def NullFree : Literal → Prop
  | .string value => '\x00' ∉ value.toList
  | .float text _ => '\x00' ∉ text.toList
  | .int _ | .bytes _ => True

/-- The literals of tokens have no null bytes: strings are looked through, and numbers are spelled
without them. -/
theorem nullFree_of_literalOf {token : Token} (wellFormed : token.WellFormed)
    (made : literalOf token = .literal value) :
    value.NullFree := by
  cases value with
  | int | bytes => trivial
  | float text number =>
    obtain ⟨rfl, -⟩ := isFrom_of_literalOf made
    intro member
    exact absurd (wellFormed.2 _ member) (by decide)
  | string value => exact (isFrom_of_literalOf made).2

/-- Such a literal is written without null bytes. -/
theorem NullFree.inlineText {dialect : Dialect} {text : String} (nullFree : value.NullFree)
    (written : value.inlineText dialect = .ok text) : '\x00' ∉ text.toList := by
  cases value with
  | int number =>
    obtain rfl := inlineText_int written
    exact (Surface.isNumeral_toText number).null_not_mem
  | float source number =>
    obtain rfl := Except.ok.inj written
    exact nullFree
  | string value =>
    obtain rfl := Except.ok.inj written
    have quoted : '\x00' ∈ (dialect.stringLiteral value).toList ↔ '\x00' ∈ value.toList := by
      simp [Dialect.stringLiteral, Surface.null_mem_escapeString]
    exact fun member => nullFree (quoted.mp member)
  | bytes value =>
    obtain rfl := inlineText_bytes written
    exact Surface.null_not_mem_bytesLiteral value

end Literal

/-- Placeholders have no null bytes. -/
theorem Dialect.null_not_mem_placeholder (dialect : Dialect) (index : Int) :
    '\x00' ∉ (dialect.placeholder index).toList := by
  have number : '\x00' ∉ (Integer.toText index).toList :=
    (Surface.isNumeral_toText index).null_not_mem
  cases dialect <;> simp [placeholder, number]

/-! ## Runs -/

namespace Fragment

variable {fragment : Fragment} {session : Session}

/-- The parts of a part are parts. -/
theorem parts_subset {part : Fragment} (member : part ∈ fragment.parts) :
    part.parts ⊆ fragment.parts := by
  induction fragment with
  | append first second firstIh secondIh =>
    rcases mem_parts_append.mp member with rfl | inFirst | inSecond
    · exact List.Subset.refl _
    · intro inner within
      exact mem_parts_append.mpr (.inr (.inl (firstIh inFirst within)))
    · intro inner within
      exact mem_parts_append.mpr (.inr (.inr (secondIh inSecond within)))
  | nested body ih | comprehension body ih | binding name body ih =>
    rcases List.mem_cons.mp member with rfl | below
    · exact List.Subset.refl _
    · exact List.subset_cons_of_subset _ (ih below)
  | text | literal | unlessBound | known | fail =>
    obtain rfl := List.mem_singleton.mp member
    exact List.Subset.refl _

/-- The fixed texts of a fragment are its parts that are fixed texts. -/
theorem mem_texts {sql : String} : sql ∈ fragment.texts ↔ .text sql ∈ fragment.parts := by
  induction fragment with
  | append first second firstIh secondIh =>
    simp only [texts, parts, List.mem_append, List.mem_cons, firstIh, secondIh, reduceCtorEq,
      false_or]
  | nested body ih | comprehension body ih | binding name body ih =>
    simp [texts, parts, ih]
  | text | literal | unlessBound | known | fail => simp [texts, parts]

variable {settings : Settings}

/-- A run that succeeds has no part that always fails. -/
theorem fail_not_mem_parts (succeeds : (fragment.run settings session).fault = none)
    (fault : Fault) :
    .fail fault ∉ fragment.parts := by
  intro member
  obtain ⟨between, ran⟩ := includes_of_mem_parts member settings session succeeds
  simpa [run] using ran.succeeds

/-- **The null bytes of a run.** What a run writes has null bytes exactly if one of the fixed texts
has, where the literals have none. -/
theorem null_mem_run (clean : fragment.EachLiteral Literal.NullFree)
    (succeeds : (fragment.run settings session).fault = none) :
    '\x00' ∈ (fragment.run settings session).session.text.toList ↔
      '\x00' ∈ session.text.toList ∨ ∃ sql ∈ fragment.texts, '\x00' ∈ sql.toList := by
  induction fragment generalizing session with
  | text sql => simp [run, texts]
  | literal value =>
    have nullFree : value.NullFree := clean value (by simp [literals])
    simp only [run] at succeeds ⊢
    split
    · simp [Session.bind, texts, settings.dialect.null_not_mem_placeholder]
    next mode =>
      cases written : value.inlineText settings.dialect with
      | error fault => simp [mode, written] at succeeds
      | ok spelling => simp [texts, nullFree.inlineText written]
  | append first second firstIh secondIh =>
    obtain ⟨firstClean, secondClean⟩ := (eachLiteral_append first second).mp clean
    simp only [run, Outcome.andThen] at succeeds ⊢
    cases firstFault : (first.run settings session).fault with
    | some fault => simp [firstFault] at succeeds
    | none =>
      simp only [firstFault] at succeeds ⊢
      rw [secondIh secondClean succeeds, firstIh firstClean firstFault, or_assoc, texts]
      simp only [List.mem_append, or_and_right, exists_or]
  | nested body ih =>
    simp only [run] at succeeds ⊢
    split at succeeds
    · simp at succeeds
    · exact ih clean succeeds
  | comprehension body ih =>
    simp only [run] at succeeds ⊢
    split at succeeds
    · simp at succeeds
    next limit =>
      rw [if_neg limit]
      exact ih clean succeeds
  | binding name body ih => exact ih clean succeeds
  | unlessBound | known => simp [run, texts]
  | fail fault => simp [run] at succeeds

/-- The parameters that a run binds are literals of the fragment. -/
theorem mem_parameters_run (fragment : Fragment)
    (bound : value ∈ (fragment.run settings session).session.parameters) :
    value ∈ session.parameters ∨ value ∈ fragment.literals := by
  induction fragment generalizing session with
  | text sql => exact .inl bound
  | literal found =>
    simp only [run] at bound
    split at bound
    · simpa [Session.bind, literals] using bound
    · split at bound
      · exact .inl bound
      · exact .inl bound
  | append first second firstIh secondIh =>
    simp only [run, Outcome.andThen] at bound
    simp only [literals, List.mem_append]
    split at bound
    · rcases secondIh bound with earlier | found
      · exact (firstIh earlier).imp_right .inl
      · exact .inr (.inr found)
    · exact (firstIh bound).imp_right .inl
  | nested body ih =>
    simp only [run] at bound
    split at bound
    · exact .inl bound
    · have found := ih bound
      exact found
  | comprehension body ih =>
    simp only [run] at bound
    split at bound
    · exact .inl bound
    · have found := ih bound
      exact found
  | binding name body ih =>
    have found := ih bound
    exact found
  | unlessBound | known | fail => exact .inl bound

end Fragment

/-! ## Calls -/

/-- The text that a call writes unchecked brings its null bytes into a fixed text, unless the call
always fails. -/
theorem Context.null_mem_texts (context : Context) {part : Tree} {text : String}
    (unchecked : part.unchecked? = some text) (hasNull : '\x00' ∈ text.toList) :
    (∃ fault, .fail fault ∈ (context.fragment part).parts) ∨
      ∃ sql ∈ (context.fragment part).texts, '\x00' ∈ sql.toList := by
  unfold Tree.unchecked? at unchecked
  split at unchecked
  next object name list =>
    obtain ⟨isFormat, found⟩ := Option.ite_none_right_eq_some.mp unchecked
    obtain ⟨token, literal, rfl⟩ := Option.map_eq_some_iff.mp found
    have converted : context.fragment
        (.node .memberDotArg [object, .token name, .node .exprList [list]]) =
        Convert.formatCall context context.child object [list] := by
      rw [Context.fragment_eq]
      show Convert.callMethod context _ object name.text [list] = _
      rw [isFormat]
      rfl
    rw [converted]
    simp only [Convert.formatCall, literal]
    split
    next specifier _ => exact .inl ⟨_, Fragment.self_mem_parts _⟩
    · -- The format is the first of the texts in the brackets.
      refine .inr ⟨_, Fragment.mem_texts_append.mpr (.inl (Fragment.mem_texts_append.mpr (.inl
        (Fragment.mem_texts_append.mpr (.inr (List.mem_singleton_self _)))))), ?_⟩
      simp [Dialect.stringLiteral, Surface.null_mem_escapeString, Surface.null_mem_plainFormat,
        hasNull]
  next name value unit =>
    obtain ⟨isInterval, found⟩ := Option.ite_none_right_eq_some.mp unchecked
    obtain ⟨token, literal, rfl⟩ := Option.map_eq_some_iff.mp found
    have converted : context.fragment (.node .identArg [.token name, .node .exprList [value, unit]])
        =
        context.dialect.interval (.nested (context.fragment value)) token.text := by
      rw [Context.fragment_eq]
      show Convert.callFunction context context.child name.text [value, unit] = _
      rw [isInterval]
      show Fragment.attempt (Convert.intervalUnit unit) _ = _
      simp only [Convert.intervalUnit, literal, Fragment.attempt_ok]
    rw [converted]
    -- The unit stands behind the value, in SQLite in the singular.
    cases context.dialect with
    | postgresql | mysql | duckdb | bigquery =>
      exact .inr ⟨_, Fragment.mem_texts_append.mpr (.inr (List.mem_singleton_self _)),
        by simp [hasNull]⟩
    | sqlite =>
      refine .inr ⟨_, Fragment.mem_texts_append.mpr (.inr (List.mem_singleton_self _)), ?_⟩
      simp [Surface.null_mem_modifierUnit, hasNull]
  · simp at unchecked

/-! ## Conversions -/

namespace Settings

/-- **Where null bytes come from.** The condition of an expression has a null byte exactly if a call
that is written for it has one in a text that is not looked through: in the format of a formatted
string, or in the literal of the unit of an interval. The strings that are bound as parameters have
no null bytes. -/
theorem convertTree_nullBytes (settings : Settings) {tree : Tree} {condition : Condition}
    (expression : tree.IsExpression) (converted : settings.convertTree tree = .ok condition) :
    ('\x00' ∈ condition.sql.toList ↔
      ∃ part, settings.context.Writes tree part ∧ ∃ text ∈ part.unchecked?, '\x00' ∈ text.toList) ∧
    ∀ value, .string value ∈ condition.parameters → '\x00' ∉ value.toList := by
  obtain ⟨-, succeeds, written, bound⟩ := convertTree_eq_ok.mp converted
  have literals : (settings.context.fragment tree).EachLiteral Literal.NullFree := by
    intro value member
    obtain ⟨token, among, made⟩ := settings.context.literals_of_tokens tree value member
    exact Literal.nullFree_of_literalOf (expression.1 _ (Tree.token_mem_parts among)) made
  have clean := (Surface.Source.sound ⟨settings.context, tree, expression.1⟩ expression.2).clean
  have run := Fragment.null_mem_run literals succeeds
  constructor
  · rw [← written]
    constructor
    · intro hasNull
      rcases run.mp hasNull with atStart | ⟨sql, member, within⟩
      · simp [Session.fresh] at atStart
      · obtain excused | ⟨_, among, part, isPart, rfl, bears⟩ := clean sql member within
        · exact excused.elim
        · exact ⟨part, ⟨isPart, among⟩, bears⟩
    · rintro ⟨part, ⟨-, among⟩, text, unchecked, hasNull⟩
      refine run.mpr (.inr ?_)
      rcases settings.context.null_mem_texts unchecked hasNull with
        ⟨fault, failing⟩ | ⟨sql, member, within⟩
      · -- The whole run would fail with the call.
        exact absurd (Fragment.parts_subset among failing)
          (Fragment.fail_not_mem_parts succeeds fault)
      · exact ⟨sql, Fragment.mem_texts.mpr (Fragment.parts_subset among
          (Fragment.mem_texts.mp member)), within⟩
  · intro value member
    rw [← bound] at member
    rcases Fragment.mem_parameters_run _ member with earlier | found
    · simp [Session.fresh] at earlier
    · exact literals _ found

/-- The arguments of a replacement are written, one of them with the null byte of its format; those
of a call that removes blanks are not. -/
theorem convertTree_nullBytes_argument :
    let settings : Settings := { dialect := .mysql }
    let written := "a.replace(\"b\", \"c\\x00\".format([d])) == e"
    let ignored := "a.trim(\"c\\x00\".format([d])) == e"
    (∃ tree condition, parse? written = some tree ∧ tree.IsExpression ∧
      settings.convertTree tree = .ok condition ∧
      condition.sql = "REPLACE(a, 'b', FORMAT('c\x00', d)) = e" ∧
      ∃ part, settings.context.Writes tree part ∧ ∃ text ∈ part.unchecked?, '\x00' ∈ text.toList) ∧
    ∃ tree condition, parse? ignored = some tree ∧ tree.IsExpression ∧
    settings.convertTree tree = .ok condition ∧
      condition.sql = "TRIM(a) = e" ∧
      (∃ part ∈ tree.parts, ∃ text ∈ part.unchecked?, '\x00' ∈ text.toList) ∧
      ∀ part, settings.context.Writes tree part →
      ∀ text ∈ part.unchecked?, '\x00' ∉ text.toList := by
  intro settings written ignored
  have oneConverted : (settings.convert written).toOption =
      some "REPLACE(a, 'b', FORMAT('c\x00', d)) = e" := by
    decide +kernel
  have twoConverted : (settings.convert ignored).toOption = some "TRIM(a) = e" := by decide +kernel
  have twoBears : ∀ tree ∈ parse? ignored, ∃ part ∈ tree.parts, ∃ text ∈ part.unchecked?,
      '\x00' ∈ text.toList := by
    decide +kernel
  obtain ⟨one, oneCondition, oneParsed, oneTreeConverted, oneSql⟩ := convert_toOption oneConverted
  obtain ⟨two, twoCondition, twoParsed, twoTreeConverted, twoSql⟩ := convert_toOption twoConverted
  have oneExpression := parse?_isExpression oneParsed
  have twoExpression := parse?_isExpression twoParsed
  have oneNull := (convertTree_nullBytes settings oneExpression oneTreeConverted).1
  have twoNull := (convertTree_nullBytes settings twoExpression twoTreeConverted).1
  rw [oneSql] at oneNull
  rw [twoSql] at twoNull
  refine ⟨⟨one, oneCondition, oneParsed, oneExpression, oneTreeConverted, oneSql,
    oneNull.mp (by decide)⟩,
    two, twoCondition, twoParsed, twoExpression, twoTreeConverted, twoSql,
    twoBears two twoParsed, ?_⟩
  intro part writes text unchecked hasNull
  exact absurd (twoNull.mpr ⟨part, writes, text, unchecked, hasNull⟩) (by decide)

/-- Conditions with a null byte, out of a format and out of the unit of an interval. -/
theorem null_mem_convert_format :
    ({} : Settings).convert "\"a\\x00b\".format([])" = .ok "FORMAT('a\x00b')" ∧
    ({} : Settings).convert "interval(1, \"d\x00\")" = .ok "INTERVAL 1 \"d\x00\"" ∧
    '\x00' ∈ "FORMAT('a\x00b')".toList ∧ '\x00' ∈ "INTERVAL 1 \"d\x00\"".toList := by
  refine ⟨?_, ?_, ?_, ?_⟩
  · decide +kernel
  · decide +kernel
  · decide
  · decide

end Settings

end CelWhere
