import CelWhere.Proofs.Alignment
import CelWhere.Proofs.Decoding
import CelWhere.Proofs.Operand

/-! # Spellings of a string

A string can be spelled between one or three quotes of either sort, with escapes for what could not
stand there, or as it is behind the mark of raw strings. Every spelling passes two readers, one that
finds the end of the literal and one that takes off the quotes and turns escapes back, and what
comes out is the string.

* `Spelling` — the spellings of a string, and which strings the raw ones are for;
* `Spelling.stringValue_text` — the literal of a spelling denotes the string;
* `Quote.Passes` — texts that the reader of literals takes as they stand;
* `Spelling.string?_chars` — the whole text of a spelling is read as one literal. -/

namespace CelWhere

variable {inside : List Char} (capital : Bool) (c : Char)

/-! ## Quotes and spellings -/

/-- The quotes on both sides of a string literal. -/
structure Quote where
  /-- Whether they are double quotes. -/
  double : Bool
  /-- Whether there are three of them. -/
  triple : Bool
  deriving DecidableEq, Repr

namespace Quote

/-- The character of a quote. -/
def mark (quote : Quote) : Char :=
  if quote.double then '"' else '\''

/-- The quotes on one side. -/
def marks (quote : Quote) : List Char :=
  if quote.triple then [quote.mark, quote.mark, quote.mark] else [quote.mark]

/-- The kind of the literals between such quotes. Those between three quotes may go over several
lines. -/
def kind (quote : Quote) : TokenKind :=
  if quote.triple then .multiline else .string

end Quote

/-- What is written for a character between quotes: backslashes, quotes, line ends and tabs are
escaped. -/
def escapedChar (c : Char) : List Char :=
  if c = '\\' || isQuote c then ['\\', c]
  else if c = '\n' then ['\\', 'n']
  else if c = '\r' then ['\\', 'r']
  else if c = '\t' then ['\\', 't']
  else [c]

/-- How a string is spelled. -/
inductive Spelling
  /-- With escapes between quotes. -/
  | escaped (quote : Quote)
  /-- As it is between quotes, behind a small or a capital mark. -/
  | raw (capital : Bool) (quote : Quote)
  deriving DecidableEq, Repr

namespace Spelling

/-- The quotes of a spelling. -/
def quote : Spelling → Quote
  | .escaped quote => quote
  | .raw _ quote => quote

/-- The mark of raw strings, if the spelling has one. -/
def rawMark : Spelling → List Char
  | .escaped _ => []
  | .raw capital _ => [if capital then 'R' else 'r']

/-- What stands between the quotes. -/
def body (value : List Char) : Spelling → List Char
  | .escaped _ => value.flatMap escapedChar
  | .raw _ _ => value

/-- The characters of the spelling of a string. -/
def chars (spelling : Spelling) (value : List Char) : List Char :=
  spelling.rawMark ++ (spelling.quote.marks ++ (spelling.body value ++ spelling.quote.marks))

/-- The text of the spelling of a string. -/
def text (spelling : Spelling) (value : String) : String :=
  String.ofList (spelling.chars value.toList)

/-- Raw spellings are for strings without backslashes and quotes. -/
def Allows (value : List Char) : Spelling → Prop
  | .escaped _ => True
  | .raw _ _ => ∀ c ∈ value, c ≠ '\\' ∧ isQuote c = false

/-- A spelling keeps to its lines if it has three quotes or no line end inside. Escapes leave no
line end. -/
def KeepsLines (value : List Char) (spelling : Spelling) : Prop :=
  '\n' ∈ spelling.body value → spelling.quote.triple = true

@[simp] theorem quote_raw (quote : Quote) : (raw capital quote).quote = quote := rfl

@[simp] theorem body_raw (quote : Quote) (value : List Char) :
    (raw capital quote).body value = value :=
  rfl

end Spelling

/-! ## What a spelling denotes -/

/-- The first character that is written for a character is no quote. -/
theorem head?_escapedChar :
    ∃ first rest, escapedChar c = first :: rest ∧ isQuote first = false := by
  unfold escapedChar
  split
  · exact ⟨_, _, rfl, rfl⟩
  next plain =>
    simp only [Bool.or_eq_true, not_or, Bool.not_eq_true] at plain
    repeat' split
    all_goals first
      | exact ⟨_, _, rfl, rfl⟩
      | exact ⟨_, _, rfl, plain.2⟩

/-- What is written for a character stands for it. -/
theorem processFrom_escapedChar_append (rest : List Char) :
    processFrom 0 (escapedChar c ++ rest) = c :: processFrom 0 rest := by
  unfold escapedChar
  split
  next special =>
    simp only [isQuote, Bool.or_eq_true, decide_eq_true_eq] at special
    rcases special with rfl | rfl | rfl <;> rfl
  next plain =>
    split
    next isEnd => exact isEnd ▸ rfl
    split
    next isReturn => exact isReturn ▸ rfl
    split
    next isTab => exact isTab ▸ rfl
    simp only [Bool.or_eq_true, decide_eq_true_eq, not_or] at plain
    rw [List.singleton_append, processFrom, if_neg plain.1]

/-- Turning the escapes of a text back gives the text. -/
theorem processEscapes_escaped (value : List Char) :
    processEscapes (value.flatMap escapedChar) = value := by
  unfold processEscapes
  induction value with
  | nil => rfl
  | cons c rest ih =>
    rw [List.flatMap_cons, processFrom_escapedChar_append, ih]

/-- A text that starts with a quote is not raw. -/
theorem isRawText_of_isQuote {c : Char} (quotes : isQuote c = true) (rest : List Char) :
    isRawText (c :: rest) = false := by
  cases rest with
  | nil => rfl
  | cons next behind =>
    simp only [isQuote, Bool.or_eq_true, decide_eq_true_eq] at quotes
    rcases quotes with rfl | rfl <;> rfl

/-- A text that starts with the mark of raw strings and a quote is raw. -/
theorem isRawText_of_rawMark {c : Char} (quotes : isQuote c = true) (rest : List Char) :
    isRawText ((if capital then 'R' else 'r') :: c :: rest) = true := by
  simp only [isQuote, Bool.or_eq_true, decide_eq_true_eq] at quotes
  cases capital <;> rcases quotes with rfl | rfl <;> rfl

namespace Quote

variable (quote : Quote)

/-- The character of a quote is one of the two quotes. -/
theorem isQuote_mark : isQuote quote.mark = true := by
  unfold mark
  split <;> rfl

/-- There are one or three quotes on each side. -/
theorem marks_eq :
    quote.marks = quote.mark :: (if quote.triple then [quote.mark, quote.mark] else []) := by
  unfold marks
  split <;> rfl

/-- Three quotes are told from one: no three quotes start a text with one quote and something else
behind it. -/
theorem isPrefixOf_single (single : quote.triple = false)
    (starts : ∀ c ∈ inside.head?, isQuote c = false) (c : Char) (quotes : isQuote c = true) :
    [c, c, c].isPrefixOf (quote.marks ++ (inside ++ quote.marks)) = false := by
  rw [marks, if_neg (by simp [single])]
  cases inside with
  | nil => simp [List.isPrefixOf]
  | cons first rest =>
    have other : c ≠ first := by
      rintro rfl
      simp [starts c (by simp)] at quotes
    simp [List.isPrefixOf, other]

/-- The quotes on both sides of a text that starts with no quote are taken off. -/
theorem dropQuotes_marks (starts : ∀ c ∈ inside.head?, isQuote c = false) :
    dropQuotes (quote.marks ++ (inside ++ quote.marks)) = inside := by
  have trimmed : Text.trimEnds quote.marks.length (quote.marks ++ (inside ++ quote.marks)) =
      inside := by
    have kept : (quote.marks ++ (inside ++ quote.marks)).length - 2 * quote.marks.length =
        inside.length := by
      simp only [List.length_append]
      omega
    rw [Text.trimEnds, kept, List.drop_left, List.take_left]
  unfold dropQuotes
  cases several : quote.triple with
  | true =>
    have three : quote.marks = [quote.mark, quote.mark, quote.mark] := by rw [marks, if_pos several]
    rw [if_pos]
    · simpa [three] using trimmed
    · rw [three, mark]
      cases quote.double <;> simp [List.isPrefixOf]
  | false =>
    have one : quote.marks = [quote.mark] := by rw [marks, if_neg (by simp [several])]
    have noThree := quote.isPrefixOf_single several starts
    rw [if_neg, if_pos]
    · simpa [one] using trimmed
    · rw [one, mark]
      cases quote.double <;> simp [List.isPrefixOf]
    · simp [noThree '"' rfl, noThree '\'' rfl]

end Quote

namespace Spelling

variable {spelling : Spelling} {value : List Char}

/-- What stands between the quotes does not start with a quote. -/
theorem head?_body (allowed : spelling.Allows value) :
    ∀ c ∈ (spelling.body value).head?, isQuote c = false := by
  intro c isHead
  cases value with
  | nil => cases spelling <;> simp [body] at isHead
  | cons head rest =>
    cases spelling with
    | escaped quote =>
      obtain ⟨first, behind, written, noQuote⟩ := head?_escapedChar head
      obtain rfl : first = c := by simpa [body, written] using isHead
      exact noQuote
    | raw capital quote =>
      obtain rfl : head = c := by simpa [body] using isHead
      exact (allowed head (by simp)).2

/-- The quotes of a spelling are taken off, and a raw spelling is told by its mark and the quote
behind it. -/
theorem stripQuotes_chars (allowed : spelling.Allows value) :
    stripQuotes (spelling.chars value) = spelling.body value ∧
      isRawText (spelling.chars value) = !spelling.rawMark.isEmpty := by
  have unquoted := spelling.quote.dropQuotes_marks (head?_body allowed)
  have isMark := spelling.quote.isQuote_mark
  unfold stripQuotes chars
  -- All that matters behind the mark of raw strings is that a quote comes there.
  rw [spelling.quote.marks_eq, List.cons_append] at unquoted ⊢
  cases spelling with
  | escaped quote =>
    rw [rawMark, List.nil_append, isRawText_of_isQuote isMark]
    exact ⟨unquoted, rfl⟩
  | raw capital quote =>
    rw [rawMark, List.singleton_append, isRawText_of_rawMark capital isMark]
    exact ⟨unquoted, rfl⟩

/-- **The literal of a spelling denotes the string.** -/
theorem stringValue_text {value : String} (allowed : spelling.Allows value.toList)
    (kind : TokenKind) :
    (Token.mk kind (spelling.text value)).stringValue = value := by
  obtain ⟨stripped, isRaw⟩ := stripQuotes_chars allowed
  unfold Token.stringValue
  simp only [text, String.toList_ofList, stripped, isRaw]
  cases spelling with
  | escaped quote =>
    show String.ofList (processEscapes (value.toList.flatMap escapedChar)) = value
    rw [processEscapes_escaped, String.ofList_toList]
  | raw capital quote => exact String.ofList_toList

end Spelling

/-! ## Reading a spelling -/

namespace Quote

open Lexer

variable {quote : Quote}

/-- Whether the quotes of a literal come in a text where the literal can still be closed. -/
def Closes (quote : Quote) (after : List Char) : Prop :=
  canClose quote.marks quote.triple after = true

/-- A text between quotes is read as it stands wherever the literal can be closed behind it. -/
def Passes (quote : Quote) (written : List Char) : Prop :=
  ∀ after, quote.Closes after → quote.Closes (written ++ after) ∧
    stringBody? quote.marks quote.triple (written ++ after) =
      (stringBody? quote.marks quote.triple after).map fun read => (written ++ read.1, read.2)

/-- A literal that can be closed behind a character can be closed, unless the character ends its
line. -/
theorem Closes.cons {c : Char} {after : List Char} (closes : quote.Closes after)
    (onLine : c = '\n' → quote.triple = true) : quote.Closes (c :: after) := by
  unfold Closes canClose at *
  cases several : quote.triple with
  | true =>
    simp only [several, if_pos] at closes ⊢
    simp [Text.occurs, closes]
  | false =>
    have noEnd : c ≠ '\n' := fun isEnd => by simp [onLine isEnd] at several
    simp only [several, Bool.false_eq_true, if_false] at closes ⊢
    rw [List.takeWhile_cons_of_pos (by simp [noEnd]), Text.occurs, closes, Bool.or_true]

/-- A literal can be closed only where something is left. -/
theorem Closes.exists_cons {after : List Char} (closes : quote.Closes after) :
    ∃ next rest, after = next :: rest := by
  cases after with
  | nil => simp [Closes, canClose, Text.occurs, marks_eq] at closes
  | cons next rest => exact ⟨next, rest, rfl⟩

/-- Quotes close a literal. -/
theorem closes_marks : quote.Closes quote.marks := by
  obtain ⟨double, triple⟩ := quote
  revert double triple
  unfold Closes
  decide

/-- Other characters do not start the closing quotes. -/
theorem isPrefixOf_marks {c : Char} (noQuote : isQuote c = false) (rest : List Char) :
    quote.marks.isPrefixOf (c :: rest) = false := by
  have other : quote.mark ≠ c := by
    rintro rfl
    simp [isQuote_mark] at noQuote
  simp [marks_eq, List.isPrefixOf, other]

/-- A character that is neither a quote nor a backslash is read as it stands, unless it ends the
line; there the literal is not closed. -/
theorem stringBody?_plain {c : Char} (noQuote : isQuote c = false) (noBackslash : c ≠ '\\')
    (next : Char) (rest : List Char) :
    stringBody? quote.marks quote.triple (c :: next :: rest) =
      if c = '\n' && !quote.triple then none
      else (stringBody? quote.marks quote.triple (next :: rest)).map fun read =>
        (c :: read.1, read.2) := by
  rw [stringBody?, isPrefixOf_marks noQuote]
  simp [noBackslash]

/-- Plain characters pass that do not end the line. -/
theorem passes_plain {c : Char} (noQuote : isQuote c = false) (noBackslash : c ≠ '\\')
    (onLine : c = '\n' → quote.triple = true) : quote.Passes [c] := by
  intro after closes
  refine ⟨closes.cons onLine, ?_⟩
  obtain ⟨next, rest, rfl⟩ := closes.exists_cons
  have inLine : (c = '\n' && !quote.triple) = false := by simpa using onLine
  rw [List.singleton_append, stringBody?_plain noQuote noBackslash, inLine]
  rfl

/-- A backslash before a letter is read as it stands. -/
theorem passes_letter {c : Char} (noQuote : isQuote c = false) (noBackslash : c ≠ '\\')
    (noEnd : c ≠ '\n') :
    quote.Passes ['\\', c] := by
  intro after closes
  obtain ⟨letterCloses, letter⟩ :=
    passes_plain noQuote noBackslash (fun isEnd => absurd isEnd noEnd) after closes
  refine ⟨letterCloses.cons (by simp), ?_⟩
  simp only [isQuote, Bool.or_eq_false_iff, decide_eq_false_iff_not] at noQuote
  show stringBody? _ _ ('\\' :: c :: after) = _
  rw [stringBody?, isPrefixOf_marks (by decide)]
  simp only [List.singleton_append] at letter
  simp [noQuote, noBackslash, letter, Function.comp_def]

/-- A backslash before a quote or a backslash is read together with it. -/
theorem passes_pair {c : Char} (special : c = '\\' ∨ isQuote c = true) :
    quote.Passes ['\\', c] := by
  intro after closes
  have onLine : c = '\n' → quote.triple = true := by
    rintro rfl
    simp [isQuote] at special
  refine ⟨(closes.cons onLine).cons (by simp), ?_⟩
  show stringBody? _ _ ('\\' :: c :: after) = _
  have isPair : (c = '"' || c = '\'' || c = '\\') = true := by
    rcases special with rfl | quotes
    · rfl
    · rw [← isQuote, quotes, Bool.true_or]
  unfold Closes at closes
  rw [stringBody?, isPrefixOf_marks (by decide)]
  simp [isPair, closes]

/-- Two texts that pass do so behind each other. -/
theorem Passes.append {first second : List Char} (one : quote.Passes first)
    (two : quote.Passes second) :
    quote.Passes (first ++ second) := by
  intro after closes
  obtain ⟨secondCloses, secondRead⟩ := two after closes
  obtain ⟨wholeCloses, wholeRead⟩ := one _ secondCloses
  rw [List.append_assoc]
  refine ⟨wholeCloses, ?_⟩
  rw [wholeRead, secondRead, Option.map_map]
  simp [Function.comp_def]

/-- Texts that pass do so behind each other. -/
theorem passes_flatMap {α : Type} {values : List α} {write : α → List Char}
    (each : ∀ value ∈ values, quote.Passes (write value)) :
    quote.Passes (values.flatMap write) := by
  induction values with
  | nil => exact fun after closes => ⟨closes, by simp⟩
  | cons value rest ih =>
    rw [List.flatMap_cons]
    exact (each value (.head _)).append (ih fun other member => each other (.tail _ member))

/-- What passes is read up to the closing quotes. -/
theorem Passes.stringBody? {written : List Char} (passes : quote.Passes written) :
    stringBody? quote.marks quote.triple (written ++ quote.marks) =
      some (written ++ quote.marks, []) := by
  have closed : Lexer.stringBody? quote.marks quote.triple quote.marks =
      some (quote.marks, []) := by
    obtain ⟨double, triple⟩ := quote
    cases double <;> cases triple <;> rfl
  rw [(passes _ closes_marks).2, closed]
  rfl

/-- What is written for a character passes. -/
theorem passes_escapedChar : quote.Passes (escapedChar c) := by
  unfold escapedChar
  split
  next special => exact passes_pair (by simpa using special)
  next plain =>
    simp only [Bool.or_eq_true, decide_eq_true_eq, not_or, Bool.not_eq_true] at plain
    split
    · exact passes_letter rfl (by decide) (by decide)
    next noEnd =>
      split
      · exact passes_letter rfl (by decide) (by decide)
      split
      · exact passes_letter rfl (by decide) (by decide)
      exact passes_plain plain.2 plain.1 fun isEnd => absurd isEnd noEnd

/-- A text between quotes, perhaps behind the mark of raw strings, is tried with its own quotes:
three quotes are tried first and do not start a text between single ones. -/
theorem string?_of_splitRaw (quote : Quote) {text before : List Char}
    (split : splitRaw text = (before, quote.marks ++ (inside ++ quote.marks)))
    (starts : ∀ c ∈ inside.head?, isQuote c = false)
    (closed : quote.triple = true → (quotedBy? quote.kind quote.marks quote.triple text).isSome) :
    string? text = quotedBy? quote.kind quote.marks quote.triple text := by
  have other : ∀ {kind quotes lines}, quotes.isPrefixOf (quote.marks ++ (inside ++ quote.marks)) =
      false →
      quotedBy? kind quotes lines text = none := by
    intro kind quotes lines noPrefix
    simp [quotedBy?, split, noPrefix]
  unfold string?
  obtain ⟨double, triple⟩ := quote
  cases triple with
  | true =>
    obtain ⟨read, found⟩ := Option.isSome_iff_exists.mp (closed rfl)
    rw [found]
    cases double with
    | true =>
      have first : quotedBy? .multiline ['"', '"', '"'] true text = some read := found
      rw [first, Option.some_or]
    | false =>
      have second : quotedBy? .multiline ['\'', '\'', '\''] true text = some read := found
      rw [other (by simp [marks, mark, List.isPrefixOf]), second, Option.none_or, Option.some_or]
  | false =>
    have noThree := isPrefixOf_single ⟨double, false⟩ rfl starts
    rw [other (noThree '"' rfl), other (noThree '\'' rfl), Option.none_or, Option.none_or]
    -- One quote of the other sort is tried in vain, before or behind.
    cases double with
    | true =>
      rw [@other .string ['\''] false (by simp [marks, mark, List.isPrefixOf]), Option.or_none]
      rfl
    | false =>
      rw [@other .string ['"'] false (by simp [marks, mark, List.isPrefixOf]), Option.none_or]
      rfl

end Quote

namespace Spelling

open Lexer

variable {spelling : Spelling} {value : List Char}

/-- Where a spelling keeps to its lines, what stands between its quotes passes. -/
theorem passes_body (allowed : spelling.Allows value) (keeps : spelling.KeepsLines value) :
    spelling.quote.Passes (spelling.body value) := by
  cases spelling with
  | escaped quote => exact Quote.passes_flatMap fun c _ => Quote.passes_escapedChar c
  | raw capital quote =>
    have each : ∀ c ∈ value, quote.Passes [c] := by
      intro c member
      obtain ⟨noBackslash, noQuote⟩ := allowed c member
      exact Quote.passes_plain noQuote noBackslash fun isEnd => keeps (isEnd ▸ member)
    have whole := Quote.passes_flatMap each
    rwa [List.flatMap_singleton'] at whole

/-- The mark of raw strings is split off. -/
theorem splitRaw_chars (spelling : Spelling) (value : List Char) :
    splitRaw (spelling.chars value) =
      (spelling.rawMark, spelling.quote.marks ++
        (spelling.body value ++ spelling.quote.marks)) := by
  unfold chars
  rw [spelling.quote.marks_eq, List.cons_append]
  cases spelling with
  | escaped quote =>
    obtain ⟨double, triple⟩ := quote
    cases double <;> rfl
  | raw capital quote => cases capital <;> rfl

/-- With its own quotes, a spelling is read as far as what stands between them is. -/
theorem quotedBy?_chars (spelling : Spelling) (value : List Char) :
    quotedBy? spelling.quote.kind spelling.quote.marks spelling.quote.triple
      (spelling.chars value) =
      (stringBody? spelling.quote.marks spelling.quote.triple
          (spelling.body value ++ spelling.quote.marks)).map fun read =>
        (⟨spelling.quote.kind, String.ofList (spelling.rawMark ++ spelling.quote.marks ++ read.1)⟩,
          read.2) := by
  simp [quotedBy?, splitRaw_chars]

/-- **A spelling is read as one literal**, where it keeps to its lines. -/
theorem string?_chars (allowed : spelling.Allows value) (keeps : spelling.KeepsLines value) :
    string? (spelling.chars value) =
      some (⟨spelling.quote.kind, String.ofList (spelling.chars value)⟩, []) := by
  have own := quotedBy?_chars spelling value
  rw [(passes_body allowed keeps).stringBody?] at own
  rw [spelling.quote.string?_of_splitRaw (splitRaw_chars spelling value) (head?_body allowed)
    (by simp [own]), own]
  simp [chars]

/-- A raw text with a line end is not closed by one quote. -/
theorem stringBody?_eq_none {quote : Quote} (single : quote.triple = false) (given : '\n' ∈ value)
    (plain : ∀ c ∈ value, c ≠ '\\' ∧ isQuote c = false) :
    stringBody? quote.marks quote.triple (value ++ quote.marks) = none := by
  induction value with
  | nil => simp at given
  | cons c rest ih =>
    obtain ⟨noBackslash, noQuote⟩ := plain c (by simp)
    obtain ⟨next, behind, follows⟩ : ∃ next behind, rest ++ quote.marks = next :: behind := by
      cases rest with
      | nil => exact ⟨_, _, quote.marks_eq⟩
      | cons next rest => exact ⟨_, _, List.cons_append⟩
    rw [List.cons_append, follows, Quote.stringBody?_plain noQuote noBackslash, ← follows]
    by_cases isEnd : c = '\n'
    · simp [isEnd, single]
    · -- The line end comes later.
      have later : '\n' ∈ rest := by simpa [Ne.symm isEnd] using given
      rw [ih later fun other member => plain other (by simp [member])]
      simp [isEnd]

/-- Escapes leave no line end, so a spelling that does not keep to its lines is raw. -/
theorem keepsLines_escaped (quote : Quote) (value : List Char) :
    (escaped quote).KeepsLines value := by
  intro given
  obtain ⟨c, -, inChar⟩ := List.mem_flatMap.mp given
  have noEnd : '\n' ∉ escapedChar c := by
    unfold escapedChar
    split
    next special =>
      rintro isEnd
      obtain rfl : '\n' = c := by simpa using isEnd
      simp [isQuote] at special
    · split
      · decide
      next other =>
        repeat' split
        · decide
        · decide
        · simpa using Ne.symm other
  exact absurd inChar noEnd

/-- The first character of a spelling starts an operand, and not that of bytes. -/
theorem chars_eq_cons (spelling : Spelling) (value : List Char) :
    ∃ c rest, spelling.chars value = c :: rest ∧ isOperandStart c ∧ bytes? (c :: rest) = none := by
  unfold chars
  rw [spelling.quote.marks_eq, List.cons_append]
  cases spelling with
  | escaped quote =>
    refine ⟨_, _, rfl, ?_⟩
    obtain ⟨double, triple⟩ := quote
    cases double <;> exact ⟨rfl, rfl⟩
  | raw capital quote =>
    refine ⟨_, _, rfl, ?_⟩
    cases capital <;> exact ⟨rfl, rfl⟩

/-- **The text of a spelling is an expression of one literal**, where the spelling keeps to its
lines. -/
theorem parse?_text {value : String} (allowed : spelling.Allows value.toList)
    (keeps : spelling.KeepsLines value.toList) :
    parse? (spelling.text value) =
      some (.loneLiteral ⟨spelling.quote.kind, spelling.text value⟩) := by
  obtain ⟨c, rest, starts, isStart, noBytes⟩ := chars_eq_cons spelling value.toList
  have operand : operand? (spelling.chars value.toList) =
      some (⟨spelling.quote.kind, spelling.text value⟩, []) := by
    rw [operand?, starts, noBytes, ← starts, string?_chars allowed keeps]
    rfl
  have noName : spelling.quote.kind ≠ .ident := by
    unfold Quote.kind
    split <;> simp
  rw [starts] at operand
  rw [← Parser.parse?_of_operand? isStart operand noName, text, starts]

/-- A quote goes on with no expression. -/
theorem stops_of_isQuote {c : Char} (quotes : isQuote c = true) (rest : List Char) :
    Stops (c :: rest) ∧ punctuation? '(' (c :: rest) = none ∧ skip (c :: rest) = c :: rest := by
  simp only [isQuote, Bool.or_eq_true, decide_eq_true_eq] at quotes
  rcases quotes with rfl | rfl <;> exact ⟨⟨rfl, rfl⟩, rfl, rfl⟩

/-- No literal is read where a raw spelling does not keep to its lines. -/
theorem string?_eq_none {capital : Bool} {quote : Quote}
    (allowed : (raw capital quote).Allows value) (leaves : ¬(raw capital quote).KeepsLines value) :
    string? ((raw capital quote).chars value) = none := by
  obtain ⟨given, notTriple⟩ := Classical.not_imp.mp leaves
  rw [body_raw] at given
  have single : quote.triple = false := by simpa using notTriple
  have own := quotedBy?_chars (raw capital quote) value
  rw [body_raw, quote_raw, stringBody?_eq_none single given allowed, Option.map_none] at own
  rw [quote.string?_of_splitRaw (splitRaw_chars (raw capital quote) value) (head?_body allowed)
    (by simp [single]), own]

/-- The mark of raw strings is a name, if the quote behind it starts no literal. -/
theorem operand?_rawMark (quote : Quote) {rest : List Char} :
    let mark := if capital then 'R' else 'r'
    string? (mark :: quote.mark :: rest) = none →
      operand? (mark :: quote.mark :: rest) =
      some (⟨.ident, String.ofList [mark]⟩, quote.mark :: rest) := by
  intro mark noString
  have noBytes : bytes? (mark :: quote.mark :: rest) = none := by
    cases capital <;> rfl
  have noNumber : number? (mark :: quote.mark :: rest) = none := by
    cases capital <;> rfl
  have word : word? (mark :: quote.mark :: rest) =
      some (String.ofList [mark], quote.mark :: rest) := by
    obtain ⟨double, triple⟩ := quote
    cases capital <;> cases double <;> rfl
  have isName : wordToken (String.ofList [mark]) = ⟨.ident, String.ofList [mark]⟩ := by
    cases capital <;> rfl
  rw [operand?, noBytes, noString, noNumber, word, Option.none_or, Option.none_or, Option.none_or,
    Option.map_some]
  show some (wordToken (String.ofList [mark]), quote.mark :: rest) = _
  rw [isName]

/-- **A spelling that does not keep to its lines is not read**: the mark of raw strings is taken for
a name, and the quote behind it goes on with no expression. -/
theorem parse?_eq_none {value : String} (allowed : spelling.Allows value.toList)
    (leaves : ¬spelling.KeepsLines value.toList) : parse? (spelling.text value) = none := by
  cases spelling with
  | escaped quote => exact absurd (keepsLines_escaped quote value.toList) leaves
  | raw capital quote =>
    have noString := string?_eq_none allowed leaves
    let mark := if capital then 'R' else 'r'
    obtain ⟨rest, spelled⟩ : ∃ rest, (raw capital quote).chars value.toList =
        mark :: quote.mark :: rest :=
      ⟨_, by rw [chars, quote_raw, quote.marks_eq]; rfl⟩
    rw [spelled] at noString
    have read := operand?_rawMark capital quote noString
    obtain ⟨stops, noCall, noSkip⟩ := stops_of_isQuote quote.isQuote_mark rest
    have member : Parser.member (20 * ((quote.mark :: rest).length + 1) + 8)
        (mark :: quote.mark :: rest) =
        some (.node .member [.node .primary [.node .ident [.token ⟨.ident, String.ofList [mark]⟩]]],
          quote.mark :: rest) := by
      rw [Parser.member, Parser.primary_of_name read rfl noCall]
      obtain ⟨double, triple⟩ := quote
      cases double <;> rfl
    have starts : isOperandStart mark := by
      cases capital <;> rfl
    unfold parse?
    rw [text, String.toList_ofList, spelled, Parser.parseChars?_of_member starts stops member,
      noSkip]
    rfl

end Spelling

/-! ## Converting a spelling -/

/-- The literal of a spelling is a slot for the string. -/
theorem Context.fragment_spelling (context : Context) {spelling : Spelling} {value : String}
    {kind : TokenKind} (isString : kind ∈ [TokenKind.string, .multiline])
    (allowed : spelling.Allows value.toList) (clean : '\x00' ∉ value.toList) :
    context.fragment (.node .literal [.token ⟨kind, spelling.text value⟩]) =
      .literal (.string value) := by
  have denotes := Spelling.stringValue_text allowed kind
  rw [Context.fragment_eq]
  show literalOf ⟨kind, spelling.text value⟩ = _
  simp only [List.mem_cons, List.not_mem_nil, or_false] at isString
  rcases isString with rfl | rfl <;> simp [literalOf, denotes, withoutNull, nullByteFault?, clean]

namespace Settings

/-- **String literals survive.** A string without null bytes that is spelled in any of the ways is
converted to itself.

Where its literal stands in a tree, the string is bound as one more parameter; and where literals
are written out, the text that is written denotes the string, except in MySQL. A raw spelling that
has a line end between single quotes is no expression. All others are, and as an expression of its
own the literal is converted to a placeholder with the string as its only parameter, or to a text
that denotes the string, if the nine levels above it are allowed. -/
theorem convert_spelling (settings : Settings) (spelling : Spelling) (value : String)
    (allowed : spelling.Allows value.toList) (clean : '\x00' ∉ value.toList) :
    let bound : Settings := { settings with mode := .parameterized }
    let inline : Settings := { settings with mode := .inline }
    let sql := settings.dialect.stringLiteral value
    (settings.dialect ≠ .mysql → settings.dialect.literalRule.denoted? sql.toList =
      some value.toList) ∧
    (∀ kind ∈ [TokenKind.string, .multiline], ∀ session,
      let literal := Tree.node .literal [.token ⟨kind, spelling.text value⟩]
      bound.visit session literal = { session := session.bind settings.dialect (.string value) } ∧
      inline.visit session literal = { session := session.write sql }) ∧
    (¬spelling.KeepsLines value.toList → parse? (spelling.text value) = none) ∧
    (spelling.KeepsLines value.toList → settings.fault? = none → 9 ≤ settings.maxDepth →
      0 ≤ settings.maxLength → settings.convertParameterized (spelling.text value) =
      .ok ⟨settings.dialect.placeholder 1, #[.string value]⟩ ∧
      settings.convert (spelling.text value) = .ok sql) := by
  intro bound inline sql
  refine ⟨fun other => Dialect.denoted?_stringLiteral other value, ?_,
    Spelling.parse?_eq_none allowed, ?_⟩
  · intro kind isString session literal
    have converted : settings.context.fragment literal = .literal (.string value) :=
      settings.context.fragment_spelling isString allowed clean
    constructor
    · show (settings.context.fragment literal).run bound session = _
      rw [converted]
      rfl
    · show (settings.context.fragment literal).run inline session = _
      rw [converted]
      rfl
  · intro keeps valid deep long
    have read := Spelling.parse?_text allowed keeps
    have isString : spelling.quote.kind ∈ [TokenKind.string, .multiline] := by
      unfold Quote.kind
      split <;> simp
    have converted := settings.context.fragment_spelling isString allowed clean
    constructor
    · refine convertIn_eq_ok read (convertTree_eq_ok.mpr ⟨valid, ?_⟩)
      rw [bound.visit_loneLiteral converted deep long]
      exact ⟨rfl, rfl, rfl⟩
    · have inlined : inline.convertTree (.loneLiteral ⟨spelling.quote.kind, spelling.text value⟩) =
          .ok ⟨sql, #[]⟩ := by
        refine convertTree_eq_ok.mpr ⟨valid, ?_⟩
        rw [inline.visit_loneLiteral converted deep long]
        exact ⟨rfl, rfl, rfl⟩
      rw [convert, convertIn_eq_ok read inlined]
      rfl

/-- A string with quotes of both sorts, a line end and a backslash, spelled with escapes and
converted for BigQuery. -/
theorem convert_spelling_escaped :
    let settings : Settings := { dialect := .bigquery }
    let value := "it's a \"path\":\nC:\\new"
    let text := "'it\\'s a \\\"path\\\":\\nC:\\\\new'"
    let sql := "'it\\'s a \"path\":\nC:\\\\new'"
    (Spelling.escaped ⟨false, false⟩).text value = text ∧
      settings.convertParameterized text = .ok ⟨"@p1", #[.string value]⟩ ∧
      settings.convert text = .ok sql ∧
      LiteralRule.denoted? ⟨true, false⟩ sql.toList = some value.toList := by
  intro settings value text sql
  have spelled : (Spelling.escaped ⟨false, false⟩).text value = text := by decide +kernel
  have written : settings.dialect.stringLiteral value = sql := by decide +kernel
  obtain ⟨denotes, -, -, converted⟩ :=
    convert_spelling settings (.escaped ⟨false, false⟩) value trivial (by decide +kernel)
  obtain ⟨bound, inlined⟩ := converted (Spelling.keepsLines_escaped _ _) rfl (by decide) (by decide)
  rw [spelled] at bound inlined
  rw [written] at inlined denotes
  exact ⟨spelled, bound, inlined, denotes (by decide)⟩

end Settings

end CelWhere
