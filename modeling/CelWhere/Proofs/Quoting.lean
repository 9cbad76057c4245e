import CelWhere.Convert.Locality.Basic
import CelWhere.Proofs.Lexical.Fragment
import CelWhere.Proofs.Regex.Screening

/-! # Quoting where a backslash escapes

In MySQL and BigQuery a backslash inside a string literal escapes the character behind it. In MySQL
a doubled quote is content, and in BigQuery any quote that is not escaped closes the literal. The
texts that are written between quotes for a string are one complete literal each, or not, depending
on the string:

* `behindLiteral?`, `IsLiteral` — reading a literal from its opening quote, and texts that are one
  literal;
* `EvenBackslashes` — no quote of a text, and not its end, stands behind an odd number of
  backslashes;
* `Quotation`, `Quotation.Safe` — the constructs that quote a string, and the strings for which each
  of them writes a complete literal. -/

namespace CelWhere.Quoting

variable {rest source : List Char} {converted : Regex.Converted} (doubling : Bool)
  {text : List Char}

/-! ## Reading literals -/

/-- Whether a doubled quote is content of a string literal. -/
def doubles : Dialect → Bool
  | .bigquery => false
  | _ => true

/-- What stands behind a literal that is read from behind its opening quote. A backslash escapes the
next character, and a quote closes the literal, unless it is doubled and this makes it content. -/
def behindLiteral? (doubling : Bool) : List Char → Option (List Char)
  | [] => none
  | [c] => if c = '\'' then some [] else none
  | c :: next :: rest =>
    if c = '\\' then behindLiteral? doubling rest
    else if c = '\'' then
      if doubling && next = '\'' then behindLiteral? doubling rest else some (next :: rest)
    else behindLiteral? doubling (next :: rest)

/-- A text is one complete string literal of a dialect: read from its opening quote it ends with its
last character, whatever follows it, unless this is a quote. -/
def IsLiteral (dialect : Dialect) (quoted : List Char) : Prop :=
  ∃ inside, quoted = '\'' :: inside ∧ ∀ rest, rest.head? ≠ some '\'' →
    behindLiteral? (doubles dialect) (inside ++ rest) = some rest

/-- Less stands behind a literal than is read. -/
theorem length_behindLiteral? {doubling : Bool} (found : behindLiteral? doubling text = some rest) :
    rest.length < text.length := by
  fun_induction behindLiteral? doubling text with
  | case1 => simp at found
  | case2 =>
    obtain rfl := Option.some.inj found
    simp
  | case3 => simp at found
  | case4 next tail ih =>
    have := ih found
    simp only [List.length_cons]
    omega
  | case5 next tail _ doubled ih =>
    have := ih found
    simp only [List.length_cons]
    omega
  | case6 next tail _ single =>
    obtain rfl := Option.some.inj found
    simp
  | case7 c next tail noBackslash noQuote ih =>
    have := ih found
    simp only [List.length_cons] at this ⊢
    omega

/-- A quote closes a literal if no quote follows it. -/
theorem behindLiteral?_quote (noQuote : rest.head? ≠ some '\'') :
    behindLiteral? doubling ('\'' :: rest) = some rest := by
  cases rest with
  | nil => rfl
  | cons next rest =>
    have single : next ≠ '\'' := by simpa using noQuote
    simp [behindLiteral?, single]

/-! ## Content -/

/-- A text that is content wherever it starts inside a literal. -/
def Content (doubling : Bool) (text : List Char) : Prop :=
  ∀ rest, behindLiteral? doubling (text ++ rest) = behindLiteral? doubling rest

/-- Other characters than backslashes and quotes are content. -/
theorem content_other {c : Char} (noBackslash : c ≠ '\\') (noQuote : c ≠ '\'') :
    Content doubling [c] := by
  intro rest
  cases rest with
  | nil => simp [behindLiteral?, noQuote]
  | cons next rest => simp [behindLiteral?, noBackslash, noQuote]

/-- An escaped character is content. -/
theorem content_escaped (c : Char) : Content doubling ['\\', c] := by
  intro rest
  simp [behindLiteral?]

/-- A doubled quote is content where doubling makes it so. -/
theorem content_doubled : Content true ['\'', '\''] := by
  intro rest
  simp [behindLiteral?]

/-- Content behind content is content. -/
theorem Content.append {doubling : Bool} {first second : List Char} (one : Content doubling first)
    (two : Content doubling second) : Content doubling (first ++ second) := by
  intro rest
  rw [List.append_assoc, one, two]

/-- A text is content if each of its characters is written as content. -/
theorem content_flatMap {doubling : Bool} {write : Char → List Char}
    (each : ∀ c ∈ text, Content doubling (write c)) : Content doubling (text.flatMap write) := by
  induction text with
  | nil => exact fun rest => rfl
  | cons c rest ih =>
    rw [List.flatMap_cons]
    exact (each c (by simp)).append (ih fun other member => each other (by simp [member]))

/-- A text without backslashes and quotes is content. -/
theorem content_plain {doubling : Bool} (plain : text.all fun c => c ≠ '\\' && c ≠ '\'') :
    Content doubling text := by
  have allowed : ∀ c ∈ text, c ≠ '\\' ∧ c ≠ '\'' := by simpa using plain
  have each :=
    content_flatMap fun c member => content_other doubling (allowed c member).1 (allowed c member).2
  simpa using each

/-- Content between quotes is one complete literal. -/
theorem isLiteral_of_content {dialect : Dialect} {inside : List Char}
    (content : Content (doubles dialect) inside) :
    IsLiteral dialect ('\'' :: inside ++ ['\'']) := by
  refine ⟨inside ++ ['\''], rfl, fun rest noQuote => ?_⟩
  rw [List.append_assoc, content]
  exact behindLiteral?_quote _ noQuote

/-! ## Backslashes before quotes -/

/-- Whether the character behind a text is escaped: an odd number of backslashes stands at the end
of the text. -/
def escapesNext (text : List Char) : Bool :=
  (text.reverse.takeWhile (· = '\\')).length % 2 = 1

/-- No quote of a text, and not its end, stands behind an odd number of backslashes. -/
def EvenBackslashes (text : List Char) : Prop :=
  ∀ before after, text = before ++ after → after.head?.all (· = '\'') → escapesNext before = false

/-- The same, character by character: the flag tells whether the next character is escaped. -/
def evenFrom : Bool → List Char → Bool
  | escaped, [] => !escaped
  | escaped, c :: rest => !(escaped && c = '\'') && evenFrom (c = '\\' && !escaped) rest

/-- A backslash escapes what follows it if it is not escaped itself. -/
theorem escapesNext_append (text : List Char) (c : Char) :
    escapesNext (text ++ [c]) = (c = '\\' && !escapesNext text) := by
  by_cases isBackslash : c = '\\'
  · have parity : ∀ count : Nat, decide ((count + 1) % 2 = 1) = !decide (count % 2 = 1) := by
      intro count
      rw [← decide_not, decide_eq_decide]
      omega
    simp [escapesNext, isBackslash, parity]
  · simp [escapesNext, isBackslash]

/-- Going through a text behind another one. -/
theorem evenFrom_escapesNext (earlier text : List Char) :
    evenFrom (escapesNext earlier) text = true ↔
      ∀ before after, text = before ++ after → after.head?.all (· = '\'') →
      escapesNext (earlier ++ before) = false := by
  -- The flag is the state in which the part before has left the reader.
  induction text generalizing earlier with
  | nil =>
    simp only [evenFrom, Bool.not_eq_true', List.nil_eq, List.append_eq_nil_iff]
    constructor
    · rintro even before after ⟨rfl, rfl⟩ -
      simpa using even
    · intro each
      simpa using each [] [] ⟨rfl, rfl⟩ rfl
  | cons c rest ih =>
    have later := ih (earlier ++ [c])
    rw [escapesNext_append] at later
    simp only [evenFrom, Bool.and_eq_true, later, List.append_assoc, List.singleton_append]
    constructor
    · rintro ⟨here, each⟩ before after same ends
      cases before with
      | nil =>
        obtain rfl : c :: rest = after := same
        have isQuote : c = '\'' := by simpa using ends
        simpa [isQuote] using here
      | cons head before =>
        obtain ⟨rfl, sameRest⟩ := List.cons.inj same
        exact each before after sameRest ends
    · intro each
      refine ⟨?_, fun before after same ends => each (c :: before) after (by simp [same]) ends⟩
      by_cases isQuote : c = '\''
      · simpa [isQuote] using each [] (c :: rest) rfl (by simp [isQuote])
      · simp [isQuote]

/-- Going through a whole text. -/
theorem evenFrom_iff : evenFrom false text = true ↔ EvenBackslashes text :=
  evenFrom_escapesNext [] text

instance (text : List Char) : Decidable (EvenBackslashes text) :=
  decidable_of_iff _ evenFrom_iff

/-! ## Quotes that are doubled -/

/-- Behind a single quote, texts with doubled quotes do not end where their quotes do. -/
theorem behindLiteral?_oddQuotes (text rest : List Char) :
    behindLiteral? true ('\'' :: (doubleQuotes text ++ '\'' :: rest)) ≠ some rest := by
  intro found
  -- With one quote before them the pairs are read as pairs of neighbours, until one quote is left.
  induction text with
  | nil =>
    have shorter : behindLiteral? true rest = some rest := by simpa [behindLiteral?] using found
    exact absurd (length_behindLiteral? shorter) (Nat.lt_irrefl _)
  | cons c text ih =>
    by_cases isQuote : c = '\''
    · subst isQuote
      refine ih ?_
      simpa [doubleQuotes, behindLiteral?] using found
    · -- The literal ends before the character, which leaves more than the rest.
      have early : c :: (doubleQuotes text ++ '\'' :: rest) = rest := by
        simpa [doubleQuotes, behindLiteral?, isQuote] using found
      have lengths := congrArg List.length early
      simp only [List.length_cons, List.length_append] at lengths
      omega

/-- **Doubled quotes under backslash escapes.** A text with its quotes doubled ends where its quotes
do exactly if no quote of it, and not its end, is escaped. -/
theorem behindLiteral?_doubleQuotes (noQuote : rest.head? ≠ some '\'') :
    ∀ text, behindLiteral? true (doubleQuotes text ++ '\'' :: rest) = some rest ↔
      evenFrom false text = true
  | [] => by simp [behindLiteral?_quote true noQuote, evenFrom]
  | c :: text => by
    by_cases isBackslash : c = '\\'
    · subst isBackslash
      cases text with
      | nil =>
        -- The backslash at the end escapes the closing quote.
        have unclosed : behindLiteral? true rest ≠ some rest := fun found =>
          absurd (length_behindLiteral? found) (Nat.lt_irrefl _)
        simpa [doubleQuotes, behindLiteral?, evenFrom] using unclosed
      | cons next text =>
        by_cases isQuote : next = '\''
        · -- The backslash escapes the first of the two quotes.
          subst isQuote
          have broken := behindLiteral?_oddQuotes text rest
          simpa [doubleQuotes, behindLiteral?, evenFrom] using broken
        · have later := behindLiteral?_doubleQuotes noQuote text
          simpa [doubleQuotes, behindLiteral?, evenFrom, isQuote] using later
    · have later := behindLiteral?_doubleQuotes noQuote text
      have content : Content true (if c = '\'' then ['\'', '\''] else [c]) := by
        split
        · exact content_doubled
        next noQuote => exact content_other true isBackslash noQuote
      show behindLiteral? true ((if c = '\'' then ['\'', '\''] else [c]) ++ doubleQuotes text ++
        '\'' :: rest) = _ ↔ _
      rw [List.append_assoc, content, later]
      simp [evenFrom, isBackslash]

/-- A string between quotes, with its own quotes doubled, is a complete literal of MySQL exactly if
its backslashes leave all quotes unescaped. -/
theorem isLiteral_doubleQuotes (text : List Char) :
    IsLiteral .mysql ('\'' :: doubleQuotes text ++ ['\'']) ↔ EvenBackslashes text := by
  rw [← evenFrom_iff]
  constructor
  · rintro ⟨inside, same, closes⟩
    obtain rfl : doubleQuotes text ++ ['\''] = inside := by simpa using same
    have alone := closes [] (by simp)
    rw [List.append_nil] at alone
    exact (behindLiteral?_doubleQuotes (by simp) text).mp alone
  · intro even
    refine ⟨doubleQuotes text ++ ['\''], rfl, fun rest noQuote => ?_⟩
    rw [List.append_assoc]
    exact (behindLiteral?_doubleQuotes noQuote text).mpr even

/-! ## Escaped quotes -/

/-- A text with a backslash before its backslashes and quotes is content. -/
theorem content_backslashQuotes (text : List Char) : Content doubling (backslashQuotes text) := by
  refine content_flatMap fun c _ => ?_
  split
  · exact content_escaped doubling c
  next plain =>
    simp only [Bool.or_eq_true, decide_eq_true_eq, not_or] at plain
    exact content_other doubling plain.1 plain.2

/-! ## Patterns -/

/-- A character of a pattern is content, unless it is a quote. -/
theorem content_likePattern_char {c : Char} (allowed : c = '\'' → doubling = true) :
    Content doubling (if c = '\\' || c = '%' || c = '_' then ['\\', c] else if c = '\''
      then ['\'', '\''] else [c]) := by
  split
  · exact content_escaped doubling c
  next plain =>
    simp only [Bool.or_eq_true, decide_eq_true_eq, not_or] at plain
    split
    next isQuote => exact allowed isQuote ▸ content_doubled
    next noQuote => exact content_other doubling plain.1.1 noQuote

/-- A pattern is content, unless it has a quote and doubling does not make it content. -/
theorem content_likePattern {doubling : Bool} (allowed : '\'' ∈ text → doubling = true) :
    Content doubling (likePattern text) :=
  content_flatMap fun _ member => content_likePattern_char doubling fun isQuote =>
    allowed (isQuote ▸ member)

/-- A pattern with a quote ends early where a doubled quote is no content. -/
theorem behindLiteral?_likePattern (hasQuote : '\'' ∈ text) :
    behindLiteral? false (likePattern text ++ rest) ≠ some [] := by
  intro found
  induction text with
  | nil => simp at hasQuote
  | cons c text ih =>
    by_cases isQuote : c = '\''
    · -- The first of the two quotes ends the literal, with the second one behind it.
      subst isQuote
      simp [likePattern, behindLiteral?] at found
    · have content := content_likePattern_char false (c := c) fun same => absurd same isQuote
      refine ih ?_ ?_
      · simpa [Ne.symm isQuote] using hasQuote
      · rwa [likePattern, List.flatMap_cons, List.append_assoc, content] at found

/-- A pattern between quotes, with plain text around it, is always a complete literal of MySQL. -/
theorem isLiteral_likePattern_mysql {before after : List Char} (text : List Char)
    (first : Content true before) (last : Content true after) :
    IsLiteral .mysql ('\'' :: (before ++ likePattern text ++ after) ++ ['\'']) :=
  isLiteral_of_content ((first.append (content_likePattern fun _ => rfl)).append last)

/-- A pattern between quotes, with plain text around it, is a complete literal of BigQuery exactly
if it has no quote. -/
theorem isLiteral_likePattern_bigquery {before after : List Char} (text : List Char)
    (first : Content false before) (last : Content false after) :
    IsLiteral .bigquery ('\'' :: (before ++ likePattern text ++ after) ++ ['\'']) ↔
      '\'' ∉ text := by
  constructor
  · rintro ⟨inside, same, closes⟩ hasQuote
    obtain rfl : before ++ likePattern text ++ after ++ ['\''] = inside := by simpa using same
    have alone : behindLiteral? false (before ++ likePattern text ++ after ++ ['\''] ++ []) =
        some [] :=
      closes [] (by simp)
    rw [List.append_nil, List.append_assoc, List.append_assoc, first] at alone
    exact behindLiteral?_likePattern hasQuote alone
  · intro noQuote
    exact isLiteral_of_content
      ((first.append (content_likePattern fun member => absurd member noQuote)).append last)

/-! ## Regular expressions -/

/-- Making groups capturing does not change what is escaped. -/
theorem evenFrom_captureAll (escaped : Bool) :
    ∀ pattern, evenFrom escaped (Regex.captureAll pattern) = evenFrom escaped pattern
  | [] => rfl
  | c :: rest => by
    by_cases opens : ['(', '?', ':'].isPrefixOf (c :: rest) = true
    · -- What is replaced has neither backslashes nor quotes.
      obtain ⟨tail, same⟩ := List.isPrefixOf_iff_prefix.mp opens
      obtain ⟨rfl, rfl⟩ : '(' = c ∧ '?' :: ':' :: tail = rest := by simpa using same
      have later := evenFrom_captureAll false tail
      simpa [Regex.captureAll, Text.replaceAll, Text.replaceFrom, evenFrom] using later
    · have later := evenFrom_captureAll (c = '\\' && !escaped) rest
      unfold Regex.captureAll Text.replaceAll at later ⊢
      rw [Text.replaceFrom, if_neg opens, evenFrom, evenFrom, later]

/-- Splitting off the flag for ignoring case does not change what is escaped. -/
theorem evenFrom_splitFlag (pattern : List Char) :
    evenFrom false (Regex.splitFlag pattern).1 = evenFrom false pattern := by
  unfold Regex.splitFlag
  split
  · simp [evenFrom]
  · rfl

/-- A pattern that passes the checks is the source without its flag. -/
theorem validate_pattern {checked : Regex.Converted} (valid : Regex.validate source = .ok checked) :
    checked.pattern = (Regex.splitFlag source).1 := by
  rw [(Regex.validate_eq_ok_iff.mp valid).2]

/-- The pattern that is accepted for MySQL and BigQuery. -/
theorem captured_pattern (accepted : Regex.captured source = .ok converted) :
    converted.pattern = Regex.captureAll (Regex.splitFlag source).1 := by
  unfold Regex.captured at accepted
  cases valid : Regex.validate source with
  | error fault => simp [valid, Except.map] at accepted
  | ok checked =>
    obtain rfl : { checked with pattern := Regex.captureAll checked.pattern } = converted := by
      simpa [valid, Except.map] using accepted
    rw [← validate_pattern valid]

/-- Bringing a pattern into the form of MySQL does not change what is escaped. -/
theorem evenBackslashes_captured (accepted : Regex.captured source = .ok converted) :
    EvenBackslashes converted.pattern ↔ EvenBackslashes source := by
  rw [captured_pattern accepted, ← evenFrom_iff, ← evenFrom_iff, evenFrom_captureAll,
    evenFrom_splitFlag]

/-! ## The constructs that quote a string -/

/-- The constructs that write a string between quotes. -/
inductive Quotation
  /-- A string literal. -/
  | literal
  /-- The pattern of a test for the start of a string. -/
  | startsWith
  /-- The pattern of a test for the end of a string. -/
  | endsWith
  /-- The regular expression of `matches`, called as a method. -/
  | matchesMethod
  /-- The regular expression of `matches`, called as a function. -/
  | matchesFunction
  deriving DecidableEq, Repr

namespace Quotation

open CelWhere.Convert

/-- The tree of a construct, with the tree of its subject and the tree and the token of its
string. -/
def tree (subject string : Tree) (token : Token) : Quotation → Tree
  | .literal => .node .literal [.token token]
  | .startsWith =>
    .node .memberDotArg [subject, .token ⟨.ident, "startsWith"⟩, .node .exprList [string]]
  | .endsWith =>
    .node .memberDotArg [subject, .token ⟨.ident, "endsWith"⟩, .node .exprList [string]]
  | .matchesMethod =>
    .node .memberDotArg [subject, .token ⟨.ident, "matches"⟩, .node .exprList [string]]
  | .matchesFunction =>
    .node .identArg [.token ⟨.ident, "matches"⟩, .node .exprList [subject, string]]

/-- What stands before the quoted text, given the text of the subject. -/
def before (dialect : Dialect) (subject : String) : Quotation → String
  | .literal => ""
  | .startsWith | .endsWith => subject ++ " LIKE "
  | .matchesMethod | .matchesFunction =>
    match dialect with
    | .bigquery => "REGEXP_CONTAINS(" ++ subject ++ ", "
    | _ => subject ++ " REGEXP "

/-- What stands behind the quoted text. -/
def after (dialect : Dialect) : Quotation → String
  | .literal => ""
  | .startsWith | .endsWith => dialect.likeEscape
  | .matchesMethod | .matchesFunction =>
    match dialect with
    | .bigquery => ")"
    | _ => ""

/-- The strings for which the quoted text is a complete literal. -/
def Safe : Dialect → Quotation → List Char → Prop
  | .mysql, .literal, value | .mysql, .matchesMethod, value | .mysql, .matchesFunction, value =>
    EvenBackslashes value
  | .bigquery, .startsWith, value | .bigquery, .endsWith, value => '\'' ∉ value
  | _, _, _ => True

/-! ## What the constructs write -/

section

variable {dialect : Dialect} {subject : Fragment} {subjectText : String} {text : List Char}

/-- A checked text goes on as it would without the check. -/
theorem inlined?_withoutNull {usage value : String} {next : Fragment}
    (written : (withoutNull usage value next).inlined? dialect = some text) :
    next.inlined? dialect = some text := by
  unfold withoutNull at written
  split at written
  · simp [Fragment.inlined?] at written
  · exact written

/-- A string literal is the escaped string between quotes. -/
theorem inlined?_literalOf {token : Token} (isString : token.isString)
    (written : (literalOf token).inlined? dialect = some text) :
    text = '\'' :: (dialect.escapeString token.stringValue).toList ++ ['\''] := by
  obtain ⟨kind, source⟩ := token
  have checked : (withoutNull "string literals" (Token.stringValue ⟨kind, source⟩)
      (.literal (.string (Token.stringValue ⟨kind, source⟩)))).inlined? dialect = some text := by
    rcases Bool.or_eq_true .. ▸ isString with single | several
    · obtain rfl : kind = .string := by simpa using single
      exact written
    · obtain rfl : kind = .multiline := by simpa using several
      exact written
  have same := inlined?_withoutNull checked
  simp only [Fragment.inlined?, Literal.inlineText, Except.toOption, Option.map_some,
    Option.some.injEq] at same
  rw [← same, Dialect.stringLiteral]
  simp

variable (subjectWritten : subject.inlined? dialect = some subjectText.toList)

include subjectWritten

/-- The test for the start of a string quotes its pattern with a wildcard behind it. -/
theorem inlined?_startsWith (value : String) :
    (dialect.startsWith subject value).inlined? dialect =
      some ((subjectText ++ " LIKE ").toList ++
        ('\'' :: ([] ++ likePattern value.toList ++ ['%']) ++ ['\'']) ++
        dialect.likeEscape.toList) := by
  show ((subject.append (.text _)).append (.text _)).inlined? dialect = _
  simp [Fragment.inlined?, subjectWritten]

/-- The test for the end of a string quotes its pattern with a wildcard before it. -/
theorem inlined?_endsWith (value : String) :
    (dialect.endsWith subject value).inlined? dialect =
      some ((subjectText ++ " LIKE ").toList ++
        ('\'' :: (['%'] ++ likePattern value.toList ++ []) ++ ['\'']) ++
        dialect.likeEscape.toList) := by
  show ((subject.append (.text _)).append (.text _)).inlined? dialect = _
  simp [Fragment.inlined?, subjectWritten]

end

section

variable {subject : Fragment} {subjectText : String}

/-- MySQL quotes the pattern of a regular expression as it stands. -/
theorem inlined?_regexMatch_mysql
    (subjectWritten : subject.inlined? .mysql = some subjectText.toList) (pattern : List Char)
    (caseInsensitive : Bool) :
    (Dialect.mysql.regexMatch subject (String.ofList pattern) caseInsensitive).inlined? .mysql =
      some ((subjectText ++ " REGEXP ").toList ++ ('\'' :: doubleQuotes pattern ++ ['\'']) ++
        "".toList) := by
  show ((subject.append (.text _)).append (.text _)).inlined? .mysql = _
  simp [Fragment.inlined?, subjectWritten, Dialect.escapeString]

/-- BigQuery quotes the pattern of a regular expression with the flag for ignoring case before
it. -/
theorem inlined?_regexMatch_bigquery
    (subjectWritten : subject.inlined? .bigquery = some subjectText.toList) (pattern : List Char)
    (caseInsensitive : Bool) :
    (Dialect.bigquery.regexMatch subject (String.ofList pattern) caseInsensitive).inlined? .bigquery
      =
      some (("REGEXP_CONTAINS(" ++ subjectText ++ ", ").toList ++
        ('\'' :: ((if caseInsensitive then "(?i)".toList else []) ++ backslashQuotes pattern) ++
          ['\'']) ++
        ")".toList) := by
  show ((((Fragment.text _).append subject).append (.text _)).append (.text _) |>.append
    (.text _)).inlined?
    .bigquery = _
  cases caseInsensitive <;> simp [Fragment.inlined?, subjectWritten, Dialect.escapeString]

end

/-! ## When the quoted text is one literal -/

variable {quotation : Quotation}

section

variable {dialect : Dialect} (escapes : dialect = .mysql ∨ dialect = .bigquery)

include escapes

/-- A string literal is complete in BigQuery, and in MySQL if its backslashes leave all quotes
unescaped. -/
theorem isLiteral_escapeString (value : String) :
    IsLiteral dialect ('\'' :: (dialect.escapeString value).toList ++ ['\'']) ↔
      Safe dialect .literal value.toList := by
  rcases escapes with rfl | rfl
  · simp only [Dialect.escapeString, String.toList_ofList, Safe]
    exact isLiteral_doubleQuotes _
  · simp only [Dialect.escapeString, String.toList_ofList, Safe]
    exact iff_of_true (isLiteral_of_content (content_backslashQuotes _ _)) trivial

/-- A pattern between quotes is complete in MySQL, and in BigQuery if it has no quote. -/
theorem isLiteral_likePattern (isLike : quotation = .startsWith ∨ quotation = .endsWith)
    {before after : List Char} (value : List Char) (first : ∀ doubling, Content doubling before)
    (last : ∀ doubling, Content doubling after) :
    IsLiteral dialect ('\'' :: (before ++ likePattern value ++ after) ++ ['\'']) ↔
      quotation.Safe dialect value := by
  rcases escapes with rfl | rfl
  · have safe : quotation.Safe .mysql value := by rcases isLike with rfl | rfl <;> exact trivial
    exact iff_of_true (isLiteral_likePattern_mysql value (first true) (last true)) safe
  · have safe : quotation.Safe .bigquery value ↔ '\'' ∉ value :=
      by rcases isLike with rfl | rfl <;> exact Iff.rfl
    rw [safe]
    exact isLiteral_likePattern_bigquery value (first false) (last false)

/-- The pattern of a regular expression is complete in BigQuery, and in MySQL if its backslashes
leave all quotes unescaped. -/
theorem isLiteral_regexMatch (isMatch : quotation = .matchesMethod ∨ quotation = .matchesFunction)
    {subject : Fragment} {subjectText value : String}
    (subjectWritten : subject.inlined? dialect = some subjectText.toList)
    (accepted : dialect.convertRegex value = .ok converted)
    (written : (dialect.regexMatch subject (String.ofList converted.pattern)
      converted.caseInsensitive).inlined? dialect = some text) :
    ∃ quoted, text = (quotation.before dialect subjectText).toList ++ quoted
      ++ (quotation.after dialect).toList ∧
      (IsLiteral dialect quoted ↔ quotation.Safe dialect value.toList) := by
  rcases escapes with rfl | rfl
  · rw [inlined?_regexMatch_mysql subjectWritten] at written
    obtain rfl := Option.some.inj written
    refine ⟨'\'' :: doubleQuotes converted.pattern ++ ['\''], ?_, ?_⟩
    · rcases isMatch with rfl | rfl <;> rfl
    · have safe : quotation.Safe .mysql value.toList ↔ EvenBackslashes value.toList := by
        rcases isMatch with rfl | rfl <;> exact Iff.rfl
      have captured : Regex.captured value.toList = .ok converted := accepted
      rw [safe, isLiteral_doubleQuotes]
      exact evenBackslashes_captured captured
  · rw [inlined?_regexMatch_bigquery subjectWritten] at written
    obtain rfl := Option.some.inj written
    have flag : Content false (if converted.caseInsensitive then "(?i)".toList else []) := by
      split
      · exact content_plain (by decide)
      · exact fun rest => rfl
    have content := flag.append (content_backslashQuotes false converted.pattern)
    refine ⟨_, ?_, iff_of_true (isLiteral_of_content content) ?_⟩
    · rcases isMatch with rfl | rfl <;> rfl
    · rcases isMatch with rfl | rfl <;> exact trivial

end

/-- The regular expression of a test, if its pattern is accepted. -/
theorem isLiteral_matchTest {context : Context} {child : Tree → Fragment} {subject : Tree}
    {token : Token} {subjectText : String}
    (escapes : context.dialect = .mysql ∨ context.dialect = .bigquery)
    (isMatch : quotation = .matchesMethod ∨ quotation = .matchesFunction)
    (subjectWritten : (child subject).inlined? context.dialect = some subjectText.toList)
    (written : (matchTest context child subject token).inlined? context.dialect = some text) :
    ∃ quoted, text = (quotation.before context.dialect subjectText).toList ++ quoted ++
        (quotation.after context.dialect).toList ∧
      (IsLiteral context.dialect quoted ↔
        quotation.Safe context.dialect token.stringValue.toList) := by
  unfold matchTest at written
  cases accepted : context.dialect.convertRegex token.stringValue with
  | error fault => simp [accepted, Fragment.inlined?] at written
  | ok converted =>
    rw [accepted, Fragment.attempt_ok] at written
    exact isLiteral_regexMatch escapes isMatch subjectWritten accepted written

/-- **When quoting is closed.** In MySQL and BigQuery the text that a construct quotes for a string
is one complete literal exactly for the safe strings: in MySQL, string literals and regular
expressions need backslashes that leave all quotes unescaped; in BigQuery, the patterns of `LIKE`
must not have quotes; all others are complete. What is written for the subject, wherever there is
one, is only named, to say where the quoted text stands. -/
theorem isLiteral_iff (quotation : Quotation) {context : Context} {subject string : Tree}
    {token : Token} {subjectText : String} {text : List Char}
    (escapes : context.dialect = .mysql ∨ context.dialect = .bigquery)
    (found : string.stringLiteral? = some token)
    (subjectWritten : (context.fragment subject).inlined? context.dialect = some subjectText.toList)
    (written : (context.fragment (quotation.tree subject string token)).inlined? context.dialect =
      some text) :
    ∃ quoted, text = (quotation.before context.dialect subjectText).toList ++ quoted ++
        (quotation.after context.dialect).toList ∧
      (IsLiteral context.dialect quoted ↔
        quotation.Safe context.dialect token.stringValue.toList) := by
  have wildcard : ∀ doubling, Content doubling ['%'] := fun doubling => content_plain (by decide)
  have nothing : ∀ doubling, Content doubling [] := fun doubling rest => rfl
  -- The conversion of a construct is one step over that of its parts.
  let child := context.child
  have childWritten : (child subject).inlined? context.dialect = some subjectText.toList :=
    subjectWritten
  rw [Context.fragment_eq] at written
  cases quotation with
  | literal =>
    have isString : token.isString := (Option.filter_eq_some_iff.mp found).2
    refine ⟨text, (List.append_nil _).symm, ?_⟩
    rw [inlined?_literalOf isString written]
    exact isLiteral_escapeString escapes token.stringValue
  | startsWith =>
    change (startsTest context child subject [string]).inlined? context.dialect =
      some text at written
    simp only [startsTest, affixTest, found] at written
    have same := inlined?_withoutNull written
    rw [inlined?_startsWith childWritten] at same
    obtain rfl := Option.some.inj same
    exact ⟨_, rfl, isLiteral_likePattern escapes (.inl rfl) _ nothing wildcard⟩
  | endsWith =>
    change (endsTest context child subject [string]).inlined? context.dialect = some text at written
    simp only [endsTest, affixTest, found] at written
    have same := inlined?_withoutNull written
    rw [inlined?_endsWith childWritten] at same
    obtain rfl := Option.some.inj same
    exact ⟨_, rfl, isLiteral_likePattern escapes (.inr rfl) _ wildcard nothing⟩
  | matchesMethod =>
    change (Convert.matchesMethod context child subject [string]).inlined? context.dialect =
      some text at written
    simp only [Convert.matchesMethod, found] at written
    exact isLiteral_matchTest escapes (.inl rfl) childWritten written
  | matchesFunction =>
    change (callFunction context child "matches" [subject, string]).inlined? context.dialect =
      some text at written
    simp only [callFunction, found] at written
    exact isLiteral_matchTest escapes (.inr rfl) childWritten written

/-- A regular expression with a quote and backslashes, of which none escapes the quote. -/
theorem isLiteral_iff_matches :
    let context : Context := ⟨.mysql, ({} : Settings).catalog⟩
    let subject := Tree.node .ident [.token ⟨.ident, "name"⟩]
    let token : Token := ⟨.string, "\"^\\\\d+(?:'s)$\""⟩
    let string := Tree.node .literal [.token token]
    token.stringValue = "^\\d+(?:'s)$" ∧ EvenBackslashes token.stringValue.toList ∧
      (context.fragment (Quotation.matchesMethod.tree subject string token)).inlined? .mysql =
        some "name REGEXP '^\\d+(''s)$'".toList ∧
      IsLiteral .mysql "'^\\d+(''s)$'".toList := by
  intro context subject token string
  have value : token.stringValue = "^\\d+(?:'s)$" := by decide +kernel
  have even : EvenBackslashes token.stringValue.toList := by
    rw [value]
    decide
  have found : string.stringLiteral? = some token := by rfl
  have subjectWritten : (context.fragment subject).inlined? context.dialect = some "name".toList :=
    by rfl
  have written : (context.fragment (Quotation.matchesMethod.tree subject string token)).inlined?
      context.dialect =
      some "name REGEXP '^\\d+(''s)$'".toList := by decide +kernel
  have escapes : context.dialect = .mysql ∨ context.dialect = .bigquery := .inl rfl
  obtain ⟨quoted, same, complete⟩ :=
    isLiteral_iff .matchesMethod escapes found subjectWritten written
  have around : "name REGEXP ".toList ++ "'^\\d+(''s)$'".toList = "name REGEXP ".toList ++ quoted :=
    same.trans (List.append_nil _)
  obtain rfl := List.append_cancel_left around
  exact ⟨value, even, written, complete.mpr even⟩

end Quotation

/-- A backslash at the end of a string escapes the closing quote that MySQL awaits, and a quote in a
pattern closes the literal of BigQuery early. -/
theorem not_isLiteral_backslash :
    (({ dialect := .mysql } : Settings).convert "x == \"\\\\\"").toOption = some "x = '\\'" ∧
      behindLiteral? (doubles .mysql) "\\'".toList = none ∧ ¬IsLiteral .mysql "'\\'".toList ∧
    (({ dialect := .bigquery } : Settings).convert "x.startsWith(\"it's\")").toOption =
    some "x LIKE 'it''s%'" ∧
      behindLiteral? (doubles .bigquery) "it''s%'".toList = some "'s%'".toList ∧
      ¬IsLiteral .bigquery "'it''s%'".toList := by
  refine ⟨by decide +kernel, rfl, ?_, by decide +kernel, rfl, ?_⟩
  · rintro ⟨inside, same, closes⟩
    obtain rfl : "\\'".toList = inside := by simpa using same
    simpa [behindLiteral?] using closes [] (by simp)
  · rintro ⟨inside, same, closes⟩
    obtain rfl : "it''s%'".toList = inside := by simpa using same
    simpa [behindLiteral?, doubles] using closes [] (by simp)

end CelWhere.Quoting
