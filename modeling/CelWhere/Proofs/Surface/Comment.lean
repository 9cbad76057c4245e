import CelWhere.Proofs.Alignment
import CelWhere.Proofs.Lexical.Basic

/-! # Comments in conditions

Two minus signs, or a slash and an asterisk, open a comment outside of quoted regions. No construct
writes such an opener by itself, and where one construct ends with a character of an opener, the
next one does not start with the other. The one exception is a minus sign: it stands right before
its operand, which may start with another one. So a condition opens no block comment, and has two
minus signs side by side exactly if a minus sign is written before another. They count as an opener
in all dialects, although MySQL asks for a blank behind them.

* `Surface.Fits.outside?` — a text whose marks fit closes its quoted regions. -/

namespace CelWhere

/-- Where quotes are doubled and backslashes escape nothing, all strings are quoted as complete
literals. -/
theorem Tree.wellQuoted_of_standard {dialect : Dialect} (standard : dialect ∈ Dialect.standard)
    (tree : Tree) :
    tree.WellQuoted dialect := by
  intro quotation subject string token _ _
  cases dialect with
  | postgresql | sqlite | duckdb => cases quotation <;> trivial
  | mysql | bigquery => exact absurd standard (by decide)

/-- A text whose marks fit a profile and that ends outside closes all its quoted regions. -/
theorem Surface.Fits.outside? {dialect : Dialect} {profile : Surface.Profile} {text : List Char}
    (fits : Surface.Fits dialect profile (Surface.Place.outside.marks dialect text))
    (finish : Surface.Place.outside.finish dialect text = .outside) :
    Surface.outside? dialect text = some (Surface.Place.outside.marks dialect text) := by
  unfold Surface.outside?
  cases doubles : Quoting.doubles dialect with
  | true => simp [finish]
  | false => simp [finish, fits.apart doubles]

namespace Settings

open Surface

/-- **Comments are opened by minus signs only.** Take an expression without a call of `interval`,
whose strings are quoted as complete literals. The condition that it is converted to, with its
literals written out, closes its quoted regions. Outside of them it opens no block comment, and two
minus signs stand side by side exactly if a minus sign is written before an operand whose text
starts with one. -/
theorem convertTree_comments (settings : Settings) {tree : Tree} {condition : Condition}
    (inline : settings.mode = .inline) (expression : tree.IsExpression)
    (noInterval : ∀ part ∈ tree.parts, part.calls "interval" = false)
    (wellQuoted : tree.WellQuoted settings.dialect)
    (converted : settings.convertTree tree = .ok condition) :
    ∃ marks, outside? settings.dialect condition.sql.toList = some marks ∧
      meets (some '/') (some '*') marks = false ∧
      (meets (some '-') (some '-') marks = true ↔
        ∃ part, settings.context.Writes tree part ∧ ∃ operand ∈ part.negated?, ∃ rest,
          (settings.context.fragment operand).inlined? settings.dialect = some ('-' :: rest)) := by
  have sound := Source.sound ⟨settings.context, tree, expression.1⟩ expression.2
  obtain ⟨finish, fits, dashes⟩ :=
    sound.calm ⟨wellQuoted, noInterval⟩ _ (inlined?_of_convertTree inline converted)
  refine ⟨_, fits.outside? finish, fits.block, ?_⟩
  rw [dashes]
  constructor
  · rintro ⟨_, among, part, isPart, rfl, doubles⟩
    exact ⟨part, ⟨isPart, among⟩, doubles⟩
  · rintro ⟨part, ⟨isPart, among⟩, doubles⟩
    exact ⟨_, among, part, isPart, rfl, doubles⟩

/-- Signs before a name, before brackets and before a number that has a sign of its own, beside a
pattern that has the openers of comments in its quotes. -/
theorem convertTree_comments_signs :
    let settings : Settings := { dialect := .duckdb }
    let text := "-x - -(-y) == z ? a.startsWith(\"--/*\") : - -2"
    let sql := "CASE WHEN -x - -(-y) = z THEN a LIKE '--/*%' ESCAPE '\\' ELSE --2 END"
    ∃ tree condition, parse? text = some tree ∧ tree.IsExpression ∧
      (∀ part ∈ tree.parts, part.calls "interval" = false) ∧ tree.WellQuoted .duckdb ∧
      settings.convertTree tree = .ok condition ∧ condition.sql = sql ∧
      (∃ marks, outside? .duckdb sql.toList = some marks ∧
        meets (some '/') (some '*') marks = false) ∧
      ∃ part, settings.context.Writes tree part ∧ ∃ operand ∈ part.negated?, ∃ rest,
        (settings.context.fragment operand).inlined? .duckdb = some ('-' :: rest) := by
  intro settings text sql
  have converted : (settings.convert text).toOption = some sql := by decide +kernel
  have inLanguage : ∀ tree ∈ parse? text, ∀ part ∈ tree.parts, part.calls "interval" = false :=
    by decide +kernel
  have doubled : ∀ marks ∈ outside? .duckdb sql.toList, meets (some '-') (some '-') marks = true :=
    by decide +kernel
  obtain ⟨tree, condition, parsed, treeConverted, sameSql⟩ := convert_toOption converted
  have expression := parse?_isExpression parsed
  have noInterval := inLanguage tree parsed
  have wellQuoted : tree.WellQuoted .duckdb := Tree.wellQuoted_of_standard (by decide) tree
  obtain ⟨marks, found, block, dashes⟩ :=
    convertTree_comments settings rfl expression noInterval wellQuoted treeConverted
  rw [sameSql] at found
  exact ⟨tree, condition, parsed, expression, noInterval, wellQuoted, treeConverted, sameSql,
    ⟨marks, found, block⟩, dashes.mp (doubled marks found)⟩

/-- Conditions with two minus signs side by side outside of quoted regions: a sign before another
one, and a string of MySQL whose backslash escapes the first of two quotes, so that the other one
closes the region. -/
theorem comment_opened_by_signs :
    ({} : Settings).convert "- -x" = .ok "--x" ∧
    meets (some '-') (some '-') (Place.outside.marks .postgresql "--x".toList) = true ∧
    ({ dialect := .mysql } : Settings).convert "x == \"\\\\'-- \"" = .ok "x = '\\''-- '" ∧
    meets (some '-') (some '-') (Place.outside.marks .mysql "x = '\\''-- '".toList) = true := by
  refine ⟨?_, ?_, ?_, ?_⟩
  · decide +kernel
  · decide
  · decide +kernel
  · decide

end Settings

end CelWhere
