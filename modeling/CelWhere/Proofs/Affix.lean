import CelWhere.Proofs.Decoding
import CelWhere.Proofs.Operand
import Mathlib.Data.List.Basic

/-! # Tests for the start and the end of a string

A test for the start or the end of a string is written as a comparison with a pattern, in which a
wildcard stands behind or before the text. The pattern passes two readers, that of string literals
and that of patterns, and what it matches then are the strings that start or end with the text.

* `likeItems?`, `likeMatches` — the parts of a pattern, and what they match;
* `likeItems?_escaped_append` — a text with its escapes stands for its characters;
* `Affix` — the two tests, what they ask of a string and the literals that are written for them;
* `escapeCharacter?` — the escape character that a clause behind the pattern declares. -/

namespace CelWhere

variable {rule : LiteralRule} (text subject : List Char)

/-! ## Matching -/

/-- The parts of a pattern. -/
inductive LikeItem
  /-- Any text. -/
  | text
  /-- Any character. -/
  | character
  /-- One certain character. -/
  | exactly (c : Char)
  deriving DecidableEq, Repr

/-- What a character of a pattern stands for by itself. -/
def LikeItem.ofChar (c : Char) : LikeItem :=
  if c = '%' then .text else if c = '_' then .character else .exactly c

/-- The parts of a pattern. The character behind the escape character stands for itself; a pattern
cannot end with the escape character. -/
def likeItems? (escape : Char) : List Char → Option (List LikeItem)
  | [] => some []
  | [c] => if c = escape then none else some [.ofChar c]
  | c :: next :: rest =>
    if c = escape then (likeItems? escape rest).map (.exactly next :: ·)
    else (likeItems? escape (next :: rest)).map (.ofChar c :: ·)

/-- Whether a test holds at some end of a text. -/
def anySuffix (test : List Char → Bool) : List Char → Bool
  | [] => test []
  | c :: rest => test (c :: rest) || anySuffix test rest

/-- Whether the parts of a pattern, one after the other, match a subject. -/
def likeMatches : List LikeItem → List Char → Bool
  | [], subject => subject.isEmpty
  | .text :: items, subject => anySuffix (likeMatches items) subject
  | .character :: items, _ :: rest => likeMatches items rest
  | .exactly c :: items, head :: rest => c = head && likeMatches items rest
  | _ :: _, [] => false

/-- The ends of a text are what stands behind something. -/
theorem anySuffix_iff {test : List Char → Bool} {text : List Char} :
    anySuffix test text = true ↔ ∃ suffix, suffix <:+ text ∧ test suffix = true := by
  induction text with
  | nil => simp [anySuffix]
  | cons c rest ih =>
    rw [anySuffix, Bool.or_eq_true, ih]
    constructor
    · rintro (whole | ⟨suffix, isSuffix, holds⟩)
      · exact ⟨c :: rest, List.suffix_refl _, whole⟩
      · exact ⟨suffix, isSuffix.trans (List.suffix_cons c rest), holds⟩
    · rintro ⟨suffix, isSuffix, holds⟩
      rcases List.suffix_cons_iff.mp isSuffix with rfl | later
      · exact .inl holds
      · exact .inr ⟨suffix, later, holds⟩

/-- Certain characters match themselves: a subject matches them with other parts behind them exactly
if it starts with them and the rest of it matches the other parts. -/
theorem likeMatches_exactly_append (items : List LikeItem) :
    likeMatches (text.map .exactly ++ items) subject = true ↔
      ∃ rest, subject = text ++ rest ∧ likeMatches items rest = true := by
  induction text generalizing subject with
  | nil => simp
  | cons c text ih =>
    cases subject with
    | nil => simp [likeMatches]
    | cons head behind =>
      rw [List.map_cons, List.cons_append, likeMatches, Bool.and_eq_true, decide_eq_true_eq, ih]
      constructor
      · rintro ⟨rfl, rest, rfl, later⟩
        exact ⟨rest, rfl, later⟩
      · rintro ⟨rest, same, later⟩
        obtain ⟨rfl, rfl⟩ := List.cons.inj same
        exact ⟨rfl, rest, rfl, later⟩

/-- Certain characters and any text behind them match what starts with the characters. -/
theorem likeMatches_start :
    likeMatches (text.map .exactly ++ [.text]) subject = true ↔ text <+: subject := by
  have anything : ∀ rest, likeMatches [.text] rest = true := by
    intro rest
    rw [likeMatches]
    exact anySuffix_iff.mpr ⟨[], List.nil_suffix, rfl⟩
  rw [likeMatches_exactly_append]
  constructor
  · rintro ⟨rest, rfl, -⟩
    exact List.prefix_append text rest
  · rintro ⟨rest, rfl⟩
    exact ⟨rest, rfl, anything rest⟩

/-- Certain characters and any text before them match what ends with the characters. -/
theorem likeMatches_finish :
    likeMatches (.text :: text.map .exactly) subject = true ↔ text <:+ subject := by
  have itself : ∀ suffix, likeMatches (text.map .exactly) suffix = true ↔ suffix = text := by
    intro suffix
    have alone := likeMatches_exactly_append text suffix []
    rw [List.append_nil] at alone
    simpa [likeMatches] using alone
  rw [likeMatches, anySuffix_iff]
  constructor
  · rintro ⟨suffix, isSuffix, matched⟩
    exact (itself suffix).mp matched ▸ isSuffix
  · intro isSuffix
    exact ⟨text, isSuffix, (itself text).mpr rfl⟩

/-! ## Escapes -/

/-- A text with a backslash before the characters that have a meaning in patterns. -/
def likeEscaped (text : List Char) : List Char :=
  text.flatMap fun c => if c = '\\' || c = '%' || c = '_' then ['\\', c] else [c]

/-- Other characters than the escape character stand for what they do by themselves. -/
theorem likeItems?_other {escape c : Char} (other : c ≠ escape) (pattern : List Char) :
    likeItems? escape (c :: pattern) = (likeItems? escape pattern).map (.ofChar c :: ·) := by
  cases pattern with
  | nil => simp [likeItems?, other]
  | cons next rest => rw [likeItems?, if_neg other]

/-- **A text with its escapes stands for its characters**, whatever pattern follows. -/
theorem likeItems?_escaped_append (text pattern : List Char) :
    likeItems? '\\' (likeEscaped text ++ pattern) =
      (likeItems? '\\' pattern).map (text.map .exactly ++ ·) := by
  induction text with
  | nil => simp [likeEscaped]
  | cons c text ih =>
    -- Both spellings of a character stand for it.
    have step : likeItems? '\\' (likeEscaped (c :: text) ++ pattern) =
        (likeItems? '\\' (likeEscaped text ++ pattern)).map (.exactly c :: ·) := by
      rw [likeEscaped, List.flatMap_cons, ← likeEscaped]
      split
      · show likeItems? '\\' ('\\' :: c :: (likeEscaped text ++ pattern)) = _
        rw [likeItems?, if_pos rfl]
      next plain =>
        simp only [Bool.or_eq_true, decide_eq_true_eq, not_or] at plain
        obtain ⟨⟨noBackslash, noPercent⟩, noUnderscore⟩ := plain
        show likeItems? '\\' (c :: (likeEscaped text ++ pattern)) = _
        rw [likeItems?_other noBackslash, LikeItem.ofChar, if_neg noPercent, if_neg noUnderscore]
    rw [step, ih, Option.map_map]
    rfl

/-! ## Patterns as they are written -/

/-- Replacing a single character is done character by character. -/
theorem Text.replaceAll_singleton (c : Char) (replacement text : List Char) :
    Text.replaceAll [c] replacement text = text.flatMap fun other => if other = c then replacement
      else [other] := by
  unfold Text.replaceAll
  induction text with
  | nil => rfl
  | cons head rest ih =>
    rw [Text.replaceFrom, List.flatMap_cons, ← ih]
    by_cases same : head = c
    · simp [same, List.isPrefixOf]
    · simp [same, Ne.symm same, List.isPrefixOf]

/-- A text with four replacements made one after the other: of backslashes, of the two wildcards and
of quotes. -/
def likeReplaced (text : List Char) : List Char :=
  let backslashes := Text.replaceAll ['\\'] ['\\', '\\'] text
  let percents := Text.replaceAll ['%'] ['\\', '%'] backslashes
  let underscores := Text.replaceAll ['_'] ['\\', '_'] percents
  Text.replaceAll ['\''] ['\'', '\''] underscores

/-- **The four replacements do not disturb each other**: each character of the text is replaced
once. -/
theorem likeReplaced_eq (text : List Char) : likeReplaced text = likePattern text := by
  unfold likeReplaced likePattern
  simp only [Text.replaceAll_singleton, List.flatMap_assoc]
  refine List.flatMap_congr fun c _ => ?_
  -- A backslash that one replacement brings in comes after the one that looks for backslashes.
  by_cases isBackslash : c = '\\'
  · simp [isBackslash]
  by_cases isPercent : c = '%'
  · simp [isPercent]
  by_cases isUnderscore : c = '_'
  · simp [isUnderscore]
  by_cases isQuote : c = '\''
  · simp [isQuote]
  simp [isBackslash, isPercent, isUnderscore, isQuote]

/-- Inside a literal with doubled quotes, a pattern stands for the text with its escapes. -/
theorem codes_likePattern (plain : rule.escapes = false) (doubles : rule.doubles = true)
    (text : List Char) :
    rule.Codes (likePattern text) (likeEscaped text) := by
  refine LiteralRule.codes_flatMap fun c _ => ?_
  have backslash : rule.Codes ['\\'] ['\\'] := LiteralRule.codes_plain (by decide) fun _ => plain
  split
  next special =>
    have noQuote : c ≠ '\'' := by
      rintro rfl
      simp at special
    exact backslash.append (LiteralRule.codes_plain noQuote fun _ => plain)
  · split
    next isQuote => exact isQuote ▸ LiteralRule.codes_doubled doubles
    next noQuote => exact LiteralRule.codes_plain noQuote fun _ => plain

/-- The escape character that the clause behind a pattern declares, as a literal of one character.
Behind the mark `E`, backslashes escape in the literal whatever the dialect. -/
def escapeCharacter? (rule : LiteralRule) (clause : List Char) : Option Char :=
  let declared :=
    match clause.drop 8 with
    | 'E' :: literal => { rule with escapes := true }.denoted? literal
    | literal => rule.denoted? literal
  if " ESCAPE ".toList.isPrefixOf clause then
    match declared with
    | some [c] => some c
    | _ => none
  else none

/-! ## The two tests -/

/-- What a string is tested for. -/
inductive Affix
  /-- A text at its start. -/
  | start
  /-- A text at its end. -/
  | finish
  deriving DecidableEq, Repr

namespace Affix

/-- The method that makes the test. -/
def method : Affix → String
  | .start => "startsWith"
  | .finish => "endsWith"

/-- The tree of the test of an object for what an argument says. -/
def tree (affix : Affix) (object argument : Tree) : Tree :=
  .node .memberDotArg [object, .token ⟨.ident, affix.method⟩, .node .exprList [argument]]

/-- A text is the start or the end of a subject. -/
def Of (text subject : List Char) : Affix → Prop
  | .start => text <+: subject
  | .finish => text <:+ subject

/-- The literal that is written for the pattern of the test: the text with its replacements, and a
wildcard. -/
def quoted (affix : Affix) (text : String) : String :=
  let replaced := String.ofList (likeReplaced text.toList)
  match affix with
  | .start => "'" ++ replaced ++ "%'"
  | .finish => "'%" ++ replaced ++ "'"

/-- The pattern that the literal of a test denotes. -/
def pattern (text : List Char) : Affix → List Char
  | .start => likeEscaped text ++ ['%']
  | .finish => '%' :: likeEscaped text

/-- The pattern of a test has parts, and they match the subjects that the test is about. -/
theorem exists_likeItems? (affix : Affix) (text : List Char) :
    ∃ items, likeItems? '\\' (affix.pattern text) = some items ∧
      ∀ subject, likeMatches items subject = true ↔ affix.Of text subject := by
  cases affix with
  | start =>
    refine ⟨text.map .exactly ++ [.text], ?_, likeMatches_start text⟩
    rw [pattern, likeItems?_escaped_append]
    rfl
  | finish =>
    refine ⟨.text :: text.map .exactly, ?_, likeMatches_finish text⟩
    have escaped := likeItems?_escaped_append text []
    rw [List.append_nil] at escaped
    rw [pattern, likeItems?_other (by decide), escaped]
    simp [likeItems?, LikeItem.ofChar]

/-- The literal of a test denotes its pattern. -/
theorem denoted?_quoted (plain : rule.escapes = false) (doubles : rule.doubles = true)
    (affix : Affix) (text : String) :
    rule.denoted? (affix.quoted text).toList = some (affix.pattern text.toList) := by
  have codes := codes_likePattern plain doubles text.toList
  have wildcard : rule.Codes ['%'] ['%'] := LiteralRule.codes_plain (by decide) fun _ => plain
  cases affix with
  | start => simpa [quoted, pattern, likeReplaced_eq] using (codes.append wildcard).denoted?
  | finish => simpa [quoted, pattern, likeReplaced_eq] using (wildcard.append codes).denoted?

end Affix

/-! ## Visits -/

namespace Settings

/-- A test writes the object, its literal and the clause for the escape character. -/
theorem visit_affix_eq (settings : Settings) (affix : Affix) {object argument : Tree}
    {token : Token} (session : Session) (given : argument.stringLiteral? = some token)
    (clean : '\x00' ∉ token.stringValue.toList) :
    settings.visit session (affix.tree object argument) =
      (settings.visitBelow session object).andThen fun after =>
        { session := after.write (" LIKE " ++ affix.quoted token.stringValue ++
          settings.dialect.likeEscape) } := by
  let child := settings.context.child
  have unchecked (next : Fragment) : withoutNull "LIKE patterns" token.stringValue next = next := by
    simp [withoutNull, nullByteFault?, clean]
  have converted : settings.context.fragment (affix.tree object argument) =
      (child object).append (.text (" LIKE " ++ affix.quoted token.stringValue)) ++
      settings.dialect.likeEscape := by
    rw [Context.fragment_eq]
    cases affix with
    | start =>
      show Convert.startsTest settings.context child object [argument] = _
      simp only [Convert.startsTest, Convert.affixTest, given, unchecked, Dialect.startsWith,
        Affix.quoted, likeReplaced_eq]
      rw [← String.append_assoc, ← String.append_assoc]
      rfl
    | finish =>
      show Convert.endsTest settings.context child object [argument] = _
      simp only [Convert.endsTest, Convert.affixTest, given, unchecked, Dialect.endsWith,
        Affix.quoted, likeReplaced_eq]
      rw [← String.append_assoc, ← String.append_assoc]
      rfl
  rw [visit, converted]
  show (((child object).run settings session).andThen _).andThen _ = _
  rw [Outcome.andThen_assoc]
  -- Two texts are written one after the other.
  show ((child object).run settings session).andThen
    (fun after => { session := (after.write _).write _ }) = _
  simp only [Session.write_write]
  rfl

/-- **Tests for the start and the end of a string.** In PostgreSQL, DuckDB and SQLite the test of an
object for a string without null bytes writes the object, a literal and the declaration of an escape
character. The literal denotes a pattern, the escape character is the backslash, and with it the
pattern matches exactly the subjects that start, or end, with the string. -/
theorem visit_affix (settings : Settings) (affix : Affix) {object argument : Tree} {token : Token}
    {value : String} (session : Session)
    (doubling : settings.dialect ∈ [Dialect.postgresql, .duckdb, .sqlite])
    (given : argument.stringLiteral? = some token) (denotes : token.stringValue = value)
    (clean : '\x00' ∉ value.toList) :
    settings.visit session (affix.tree object argument) =
        (settings.visitBelow session object).andThen (fun after =>
          { session := after.write (" LIKE " ++ affix.quoted value ++
            settings.dialect.likeEscape) }) ∧
      ∃ pattern escape items,
        settings.dialect.literalRule.denoted? (affix.quoted value).toList = some pattern ∧
        escapeCharacter? settings.dialect.literalRule settings.dialect.likeEscape.toList =
        some escape ∧
        escape = '\\' ∧ likeItems? escape pattern = some items ∧
        ∀ subject, likeMatches items subject = true ↔ affix.Of value.toList subject := by
  subst denotes
  refine ⟨settings.visit_affix_eq affix session given clean, ?_⟩
  obtain ⟨items, parts, matched⟩ := affix.exists_likeItems? token.stringValue.toList
  have declared : escapeCharacter? settings.dialect.literalRule settings.dialect.likeEscape.toList =
      some '\\' ∧
      settings.dialect.literalRule = ⟨false, true⟩ := by
    simp only [List.mem_cons, List.not_mem_nil, or_false] at doubling
    rcases doubling with isDialect | isDialect | isDialect
    · rw [isDialect]
      exact ⟨rfl, rfl⟩
    · rw [isDialect]
      exact ⟨rfl, rfl⟩
    · rw [isDialect]
      exact ⟨rfl, rfl⟩
  obtain ⟨character, rule⟩ := declared
  refine ⟨affix.pattern token.stringValue.toList, '\\', items, ?_, character, rfl, parts, matched⟩
  rw [rule]
  exact affix.denoted?_quoted rfl rfl _

/-- A string with both wildcards, a backslash and a quote at the start of another one. -/
theorem visit_affix_wildcards :
    let settings : Settings := { dialect := .postgresql }
    let object := Tree.node .ident [.token ⟨.ident, "name"⟩]
    let token : Token := ⟨.string, "\"50%_\\\\'s\""⟩
    let argument := Tree.node .literal [.token token]
    let outcome := settings.visit .fresh (Affix.start.tree object argument)
    token.stringValue = "50%_\\'s" ∧ outcome.fault = none ∧
      outcome.session.text = "name LIKE '50\\%\\_\\\\''s%' ESCAPE E'\\\\'" ∧
      ∃ pattern items, LiteralRule.denoted? ⟨false, true⟩ "'50\\%\\_\\\\''s%'".toList =
      some pattern ∧
        likeItems? '\\' pattern = some items ∧
        ∀ subject, likeMatches items subject = true ↔ "50%_\\'s".toList <+: subject := by
  intro settings object token argument outcome
  have denotes : token.stringValue = "50%_\\'s" := by decide +kernel
  have given : argument.stringLiteral? = some token := by rfl
  obtain ⟨visited, pattern, escape, items, denoted, -, rfl, parts, matched⟩ :=
    @visit_affix settings .start object argument token _ .fresh
      (by decide) given denotes (by decide)
  have below : settings.visitBelow .fresh object = { session := Session.fresh.write "name" } :=
    by rfl
  let behind := " LIKE " ++ Affix.start.quoted "50%_\\'s" ++ settings.dialect.likeEscape
  have written : outcome = { session := (Session.fresh.write "name").write behind } := by
    show settings.visit .fresh (Affix.start.tree object argument) = _
    rw [visited, below]
    rfl
  refine ⟨denotes, by rw [written], ?_, pattern, items, ?_, parts, matched⟩
  · rw [written]
    decide +kernel
  · rw [← denoted]
    rfl

end Settings

end CelWhere
