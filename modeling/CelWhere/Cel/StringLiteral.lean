import CelWhere.Cel.Tree
import CelWhere.Number.Integer
import CelWhere.Text.Search

/-! # The values of string and bytes literals

The quotes and the mark of raw strings are taken off the text of a literal. In a string that is not
raw, escapes stand for characters; a backslash that starts no escape stands for itself. A bytes
literal denotes the encoding of the text between its quotes, escapes included. -/

namespace CelWhere

/-- Whether the text of a literal is marked as raw. -/
def isRawText : List Char → Bool
  | mark :: quote :: _ => (mark = 'r' || mark = 'R') && (quote = '"' || quote = '\'')
  | _ => false

/-- Takes the quotes off a text, if it starts with quotes. -/
def dropQuotes (text : List Char) : List Char :=
  if ['"', '"', '"'].isPrefixOf text || ['\'', '\'', '\''].isPrefixOf text then Text.trimEnds 3 text
  else if ['"'].isPrefixOf text || ['\''].isPrefixOf text then Text.trimEnds 1 text
  else text

/-- Takes the quotes and the mark of raw strings off the text of a literal. -/
def stripQuotes (text : List Char) : List Char :=
  dropQuotes (if isRawText text then text.drop 1 else text)

/-- The character whose code is written in base sixteen, if there is one. Codes that are kept for
surrogates give the replacement character. -/
def charOfHex? (digits : List Char) : Option Char :=
  match Integer.read .hexadecimal digits with
  | .ok (.ofNat code) => some (if 0xd800 ≤ code && code < 0xe000 then '�' else Char.ofNat code)
  | _ => none

/-- The character that a single escaped character stands for. -/
def simpleEscape? : Char → Option Char
  | 'n' => some '\n'
  | 't' => some '\t'
  | 'r' => some '\r'
  | '\\' => some '\\'
  | '\'' => some '\''
  | '"' => some '"'
  | '0' => some '\x00'
  | _ => none

/-- The escape at the start of the text behind a backslash, if there is one: the character that it
stands for, and how many characters of the text belong to it. -/
def escapeCode? : List Char → Option (Char × Nat)
  | 'x' :: first :: second :: _ => (charOfHex? [first, second]).map (·, 3)
  | 'u' :: first :: second :: third :: fourth :: _ =>
    (charOfHex? [first, second, third, fourth]).map (·, 5)
  | escaped :: _ => (simpleEscape? escaped).map (·, 1)
  | [] => none

/-- Replaces the escapes of a text; the first number is how many characters still belong to the last
escape and are dropped. -/
def processFrom : Nat → List Char → List Char
  | _, [] => []
  | skip + 1, _ :: rest => processFrom skip rest
  | 0, head :: rest =>
    if head = '\\' then
      match escapeCode? rest with
      | some (c, taken) => c :: processFrom taken rest
      | none => head :: processFrom 0 rest
    else head :: processFrom 0 rest

/-- Replaces the escapes of a text by what they stand for. A backslash that starts no escape stands
for itself. -/
def processEscapes (text : List Char) : List Char :=
  processFrom 0 text

/-- The value of a string literal. -/
def Token.stringValue (token : Token) : String :=
  let text := token.text.toList
  String.ofList (if isRawText text then stripQuotes text else processEscapes (stripQuotes text))

/-- The text between the quotes of a string literal. -/
def Token.unquoted (token : Token) : String :=
  String.ofList (stripQuotes token.text.toList)

/-- The value of a bytes literal. -/
def Token.bytesValue (token : Token) : List UInt8 :=
  (String.ofList (dropQuotes (token.text.toList.drop 1))).toUTF8.toList

end CelWhere
