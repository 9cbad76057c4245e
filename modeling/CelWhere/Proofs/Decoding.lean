import CelWhere.Sql.Like
import CelWhere.Sql.Literal

/-! # String literals that are read back

A string literal of SQL denotes the string that is left when its quotes are taken off and what is
written for single characters is turned back into them. Dialects differ in what may be written: two
quotes for one, or a backslash before a character.

* `LiteralRule.denoted?` — the string that a literal denotes under a rule, if it is one complete
  literal;
* `LiteralRule.Codes` — texts that stand for others wherever they are written inside a literal;
* `Dialect.denoted?_stringLiteral` — the literals that dialects write for a string denote it. -/

namespace CelWhere

/-- What may be written inside a string literal. -/
structure LiteralRule where
  /-- Whether a backslash makes the character behind it stand for itself. -/
  escapes : Bool
  /-- Whether two quotes stand for one. -/
  doubles : Bool
  deriving DecidableEq, Repr

namespace LiteralRule

/-- What a literal denotes, read from behind its opening quote. The quote that closes it must be the
last character. -/
def inside? (rule : LiteralRule) : List Char → Option (List Char)
  | [] => none
  | [c] => if c = '\'' then some [] else none
  | c :: next :: rest =>
    if c = '\\' && rule.escapes then (rule.inside? rest).map (next :: ·)
    else if c = '\'' then
      if next = '\'' && rule.doubles then (rule.inside? rest).map ('\'' :: ·) else none
    else (rule.inside? (next :: rest)).map (c :: ·)

/-- The string that a literal denotes, if the text is one complete literal. -/
def denoted? (rule : LiteralRule) : List Char → Option (List Char)
  | '\'' :: rest => rule.inside? rest
  | _ => none

/-! ## Codes -/

/-- A text stands for another one wherever it is written inside a literal. -/
def Codes (rule : LiteralRule) (written image : List Char) : Prop :=
  ∀ rest, rule.inside? (written ++ rest) = (rule.inside? rest).map (image ++ ·)

variable {rule : LiteralRule}

theorem codes_nil : rule.Codes [] [] := by
  intro rest
  simp

/-- A character stands for itself, unless it is a quote or starts an escape. -/
theorem codes_plain {c : Char} (noQuote : c ≠ '\'') (noEscape : c = '\\' → rule.escapes = false) :
    rule.Codes [c] [c] := by
  intro rest
  cases rest with
  | nil => simp [inside?, noQuote]
  | cons next rest =>
    have starts : (c = '\\' && rule.escapes) = false := by simpa using noEscape
    simp [inside?, noQuote, starts]

/-- A character behind a backslash stands for itself where backslashes escape. -/
theorem codes_escaped (escapes : rule.escapes = true) (c : Char) : rule.Codes ['\\', c] [c] := by
  intro rest
  simp [inside?, escapes]

/-- Two quotes stand for one where quotes are doubled. -/
theorem codes_doubled (doubles : rule.doubles = true) : rule.Codes ['\'', '\''] ['\''] := by
  intro rest
  simp [inside?, doubles]

/-- Codes behind each other stand for what each of them stands for. -/
theorem Codes.append {first second one two : List Char} (left : rule.Codes first one)
    (right : rule.Codes second two) :
    rule.Codes (first ++ second) (one ++ two) := by
  intro rest
  rw [List.append_assoc, left, right, Option.map_map]
  have both : (one ++ ·) ∘ (two ++ ·) = (one ++ two ++ ·) := by
    funext image
    simp
  rw [both]

/-- A text that is written character by character stands for the images of its characters. -/
theorem codes_flatMap {text : List Char} {write image : Char → List Char}
    (each : ∀ c ∈ text, rule.Codes (write c) (image c)) :
    rule.Codes (text.flatMap write) (text.flatMap image) := by
  induction text with
  | nil => exact codes_nil
  | cons c rest ih =>
    rw [List.flatMap_cons, List.flatMap_cons]
    exact (each c (by simp)).append (ih fun other member => each other (by simp [member]))

/-- Codes between quotes are a literal. -/
theorem Codes.denoted? {written image : List Char} (codes : rule.Codes written image) :
    rule.denoted? ('\'' :: written ++ ['\'']) = some image := by
  show rule.inside? (written ++ ['\'']) = some image
  rw [codes]
  simp [inside?]

/-! ## Escaped texts -/

/-- The characters of a text with doubled quotes are codes where backslashes do not escape. -/
theorem codes_doubleQuotes (plain : rule.escapes = false) (doubles : rule.doubles = true)
    (text : List Char) : rule.Codes (doubleQuotes text) text := by
  have each : ∀ c ∈ text, rule.Codes (if c = '\'' then ['\'', '\''] else [c]) [c] := by
    intro c _
    split
    next isQuote => exact isQuote ▸ codes_doubled doubles
    next noQuote => exact codes_plain noQuote fun _ => plain
  simpa [doubleQuotes] using codes_flatMap each

/-- The characters of a text with escaped quotes and backslashes are codes where backslashes
escape. -/
theorem codes_backslashQuotes (escapes : rule.escapes = true) (text : List Char) :
    rule.Codes (backslashQuotes text) text := by
  have each : ∀ c ∈ text, rule.Codes (if c = '\\' || c = '\'' then ['\\', c] else [c]) [c] := by
    intro c _
    split
    · exact codes_escaped escapes c
    next plain =>
      simp only [Bool.or_eq_true, decide_eq_true_eq, not_or] at plain
      exact codes_plain plain.2 fun isBackslash => absurd isBackslash plain.1
  simpa [backslashQuotes] using codes_flatMap each

end LiteralRule

/-! ## What dialects write -/

namespace Dialect

/-- What may be written inside the string literals of a dialect. -/
def literalRule : Dialect → LiteralRule
  | .postgresql | .sqlite | .duckdb => ⟨false, true⟩
  | .mysql => ⟨true, true⟩
  | .bigquery => ⟨true, false⟩

/-- **Literals denote their strings**, except in MySQL, where backslashes are not escaped. -/
theorem denoted?_stringLiteral {dialect : Dialect} (other : dialect ≠ .mysql) (value : String) :
    dialect.literalRule.denoted? (dialect.stringLiteral value).toList = some value.toList := by
  have codes : dialect.literalRule.Codes (dialect.escapeString value).toList value.toList := by
    cases dialect with
    | mysql => exact absurd rfl other
    | bigquery =>
      show LiteralRule.Codes _ (String.ofList (backslashQuotes value.toList)).toList _
      rw [String.toList_ofList]
      exact LiteralRule.codes_backslashQuotes rfl _
    | postgresql | sqlite | duckdb =>
      show LiteralRule.Codes _ (String.ofList (doubleQuotes value.toList)).toList _
      rw [String.toList_ofList]
      exact LiteralRule.codes_doubleQuotes rfl rfl _
  simpa [stringLiteral] using codes.denoted?

end Dialect

end CelWhere
