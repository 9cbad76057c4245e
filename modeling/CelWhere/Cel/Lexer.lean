import CelWhere.Cel.Tree
import CelWhere.Text.Digit
import CelWhere.Text.Search

/-! # Tokens of an expression text

What a token is depends on where it stands: where an operand may start, a minus before digits
belongs to the number; after an operand it is an operator, and the word `in` is read even if letters
follow it; after a dot every word is a name. Each reader takes the text at a token and returns the
token and the rest.

A string literal ends at the first closing quote that is not part of an escape pair. A backslash and
the character after it are a pair only if the literal can still be closed behind them, so that a
literal may end in a lone backslash. -/

namespace CelWhere.Lexer

/-! ## Blanks and comments -/

/-- Blank characters between tokens. -/
def isSpace (c : Char) : Bool :=
  c = ' ' || c = '\t' || c = '\n' || c = '\r' || c.toNat = 12

/-- Drops blanks and comments; the flag tells whether the text starts inside a comment, which ends
with its line. -/
def skipFrom : Bool → List Char → List Char
  | _, [] => []
  | true, head :: rest => skipFrom (head ≠ '\n') rest
  | false, head :: rest =>
    if isSpace head then skipFrom false rest
    else if head = '/' && rest.head? = some '/' then skipFrom true rest
    else head :: rest

/-- Drops the blanks and comments at the start of a text. -/
def skip (text : List Char) : List Char :=
  skipFrom false text

/-- Drops blanks and comments and then a punctuation character, if it comes next. -/
def punctuation? (mark : Char) (text : List Char) : Option (List Char) :=
  match skip text with
  | head :: rest => if head = mark then some rest else none
  | [] => none

/-! ## Words -/

/-- Characters that start a name. -/
def isNameStart (c : Char) : Bool :=
  c = '_' || ('a' ≤ c && c ≤ 'z') || ('A' ≤ c && c ≤ 'Z')

/-- Characters that continue a name. -/
def isNameChar (c : Char) : Bool :=
  isNameStart c || Text.isPlainDigit c

/-- Reads a word. -/
def word? (text : List Char) : Option (String × List Char) :=
  match text with
  | head :: _ =>
    if isNameStart head then some (String.ofList (text.takeWhile isNameChar),
      text.dropWhile isNameChar)
    else none
  | [] => none

/-- Reads the name of a field, a method or a function behind a dot; the truth values are no
names. -/
def name? (text : List Char) : Option (Token × List Char) :=
  match word? (skip text) with
  | some (word, rest) =>
    if word = "true" || word = "false" then none else some (⟨.ident, word⟩, rest)
  | none => none

/-- The token of a word where an operand starts: a truth value, the null literal or a name. -/
def wordToken (word : String) : Token :=
  if word = "true" || word = "false" then ⟨.bool, word⟩
  else if word = "null" then ⟨.null, word⟩
  else ⟨.ident, word⟩

/-! ## Numbers -/

/-- Digits of base sixteen. -/
def isHexDigit (c : Char) : Bool :=
  Text.isPlainDigit c || ('a' ≤ c && c ≤ 'f') || ('A' ≤ c && c ≤ 'F')

/-- Splits the minus sign off a number. -/
def splitMinus : List Char → List Char × List Char
  | '-' :: rest => (['-'], rest)
  | text => ([], text)

/-- Reads an exponent: a letter, perhaps a sign, and digits. -/
def exponent? : List Char → Option (List Char × List Char)
  | mark :: rest =>
    if mark = 'e' || mark = 'E' then
      let (sign, body) :=
        match rest with
        | '+' :: body => (['+'], body)
        | '-' :: body => (['-'], body)
        | body => ([], body)
      let digits := body.takeWhile Text.isPlainDigit
      if digits.isEmpty then none
      else some (mark :: sign ++ digits, body.dropWhile Text.isPlainDigit)
    else none
  | [] => none

/-- Reads a number with a point or an exponent. -/
def float? (text : List Char) : Option (Token × List Char) :=
  let (minus, body) := splitMinus text
  let whole := body.takeWhile Text.isPlainDigit
  let token (chars : List Char) : Token := ⟨.float, String.ofList (minus ++ chars)⟩
  match body.dropWhile Text.isPlainDigit with
  | '.' :: rest =>
    let fraction := rest.takeWhile Text.isPlainDigit
    let after := rest.dropWhile Text.isPlainDigit
    if whole.isEmpty && fraction.isEmpty then none
    else
      match exponent? after with
      | some (power, after) => some (token (whole ++ '.' :: fraction ++ power), after)
      | none => some (token (whole ++ '.' :: fraction), after)
  | after =>
    if whole.isEmpty then none
    else (exponent? after).map fun (power, after) => (token (whole ++ power), after)

/-- Reads the digits of an integer, which may be marked as base sixteen. -/
def integer? (text : List Char) : Option (List Char × List Char) :=
  let (minus, body) := splitMinus text
  let plain :=
    let digits := body.takeWhile Text.isPlainDigit
    if digits.isEmpty then none else some (minus ++ digits, body.dropWhile Text.isPlainDigit)
  match body with
  | '0' :: 'x' :: rest =>
    let digits := rest.takeWhile isHexDigit
    if digits.isEmpty then plain
      else some (minus ++ '0' :: 'x' :: digits, rest.dropWhile isHexDigit)
  | _ => plain

/-- Reads a number literal: one with a point or exponent if there is one, else an integer with or
without the mark of unsigned ones. -/
def number? (text : List Char) : Option (Token × List Char) :=
  match float? text with
  | some found => some found
  | none =>
    match integer? text with
    | some (digits, 'u' :: rest) => some (⟨.uint, String.ofList (digits ++ ['u'])⟩, rest)
    | some (digits, 'U' :: rest) => some (⟨.uint, String.ofList (digits ++ ['U'])⟩, rest)
    | some (digits, rest) => some (⟨.int, String.ofList digits⟩, rest)
    | none => none

/-! ## Strings -/

/-- Whether a literal can be closed in a text: its closing quotes occur, before the end of the line
if it must end there. -/
def canClose (closing : List Char) (lines : Bool) (text : List Char) : Bool :=
  Text.occurs closing (if lines then text else text.takeWhile (· ≠ '\n'))

/-- Reads the inside of a string literal with its closing quotes; the flag tells whether it may hold
line ends. -/
def stringBody? (closing : List Char) (lines : Bool) : List Char → Option (List Char × List Char)
  | [] => none
  | head :: rest =>
    if closing.isPrefixOf (head :: rest) then some (closing, (head :: rest).drop closing.length)
    else if head = '\n' && !lines then none
    else
      match rest with
      | [] => none
      | escaped :: after =>
        if head = '\\' && (escaped = '"' || escaped = '\'' || escaped = '\\') &&
          canClose closing lines after
        then (stringBody? closing lines after).map fun (body, tail) =>
          (head :: escaped :: body, tail)
        else (stringBody? closing lines (escaped :: after)).map fun (body, tail) =>
          (head :: body, tail)

/-- Splits the mark of raw strings off a literal. -/
def splitRaw : List Char → List Char × List Char
  | 'r' :: rest => (['r'], rest)
  | 'R' :: rest => (['R'], rest)
  | text => ([], text)

/-- Reads a string literal that opens and closes with the given quotes. -/
def quotedBy? (kind : TokenKind) (quotes : List Char) (lines : Bool) (text : List Char) :
    Option (Token × List Char) :=
  let (mark, body) := splitRaw text
  if quotes.isPrefixOf body then
    (stringBody? quotes lines (body.drop quotes.length)).map fun (inside, rest) =>
      (⟨kind, String.ofList (mark ++ quotes ++ inside)⟩, rest)
  else none

/-- Reads a string literal, between triple quotes if it can be read so. -/
def string? (text : List Char) : Option (Token × List Char) :=
  (quotedBy? .multiline ['"', '"', '"'] true text).or <|
  (quotedBy? .multiline ['\'', '\'', '\''] true text).or <|
  (quotedBy? .string ['"'] false text).or <|
  quotedBy? .string ['\''] false text

/-- Reads a bytes literal. -/
def bytes? : List Char → Option (Token × List Char)
  | mark :: rest =>
    if mark = 'b' || mark = 'B' then
      (string? rest).map fun (token, after) => (⟨.bytes, mark.toString ++ token.text⟩, after)
    else none
  | [] => none

/-! ## Operands and operators -/

/-- Reads the token with which an operand starts: a literal or a name. -/
def operand? (text : List Char) : Option (Token × List Char) :=
  (bytes? text).or <| (string? text).or <| (number? text).or <|
    (word? text).map fun (word, rest) => (wordToken word, rest)

/-- The operators between two operands. -/
inductive Operator
  /-- The disjunction `||`. -/
  | or
  /-- The conjunction `&&`. -/
  | and
  /-- The comparison `<`. -/
  | lt
  /-- The comparison `<=`. -/
  | le
  /-- The comparison `>`. -/
  | gt
  /-- The comparison `>=`. -/
  | ge
  /-- The comparison `==`. -/
  | eq
  /-- The comparison `!=`. -/
  | ne
  /-- The membership test `in`. -/
  | isIn
  /-- The sum `+`. -/
  | add
  /-- The difference `-`. -/
  | sub
  /-- The product `*`. -/
  | mul
  /-- The quotient `/`. -/
  | div
  /-- The remainder `%`. -/
  | mod
  deriving DecidableEq, Repr

/-- Reads an operator, the longest one that fits. -/
def operator? (text : List Char) : Option (Operator × List Char) :=
  match skip text with
  | '|' :: '|' :: rest => some (.or, rest)
  | '&' :: '&' :: rest => some (.and, rest)
  | '<' :: '=' :: rest => some (.le, rest)
  | '>' :: '=' :: rest => some (.ge, rest)
  | '=' :: '=' :: rest => some (.eq, rest)
  | '!' :: '=' :: rest => some (.ne, rest)
  | 'i' :: 'n' :: rest => some (.isIn, rest)
  | '<' :: rest => some (.lt, rest)
  | '>' :: rest => some (.gt, rest)
  | '+' :: rest => some (.add, rest)
  | '-' :: rest => some (.sub, rest)
  | '*' :: rest => some (.mul, rest)
  | '/' :: rest => some (.div, rest)
  | '%' :: rest => some (.mod, rest)
  | _ => none

end CelWhere.Lexer
