import CelWhere.Text.PrintTable

/-! # Quoting of texts in messages

A text is shown between quotes, with escapes for what could not be seen otherwise: single quotes are
the rule, and double quotes are taken for a text that holds single quotes but no double ones. -/

namespace CelWhere.Text

/-- The hexadecimal digit of a value below sixteen, in lower case. -/
def hexDigit (value : Nat) : Char :=
  if value < 10 then Char.ofNat ('0'.toNat + value) else Char.ofNat ('a'.toNat + (value - 10))

/-- A number below 256 as two hexadecimal digits. -/
def hexPair (value : Nat) : List Char :=
  [hexDigit (value / 16), hexDigit (value % 16)]

/-- The quote that surrounds a text: a single one, unless the text holds single quotes and no double
ones. -/
def chosenQuote (text : List Char) : Char :=
  if text.contains '\'' && !text.contains '"' then '"' else '\''

/-- A character shown by its code, with as many digits as the code needs: two, four or eight. -/
def codeEscape (c : Char) : List Char :=
  let lower := hexPair (c.toNat % 0x100)
  let middle := hexPair (c.toNat / 0x100 % 0x100)
  if c.toNat < 0x100 then '\\' :: 'x' :: lower
  else if c.toNat < 0x10000 then '\\' :: 'u' :: (middle ++ lower)
  else '\\' :: 'U' :: '0' :: '0' :: (hexPair (c.toNat / 0x10000) ++ middle ++ lower)

/-- One character of a quoted text. -/
def quotedChar (quote c : Char) : List Char :=
  if c == quote || c == '\\' then ['\\', c]
  else if c == '\n' then ['\\', 'n']
  else if c == '\r' then ['\\', 'r']
  else if c == '\t' then ['\\', 't']
  else if isPrintable c then [c]
  else codeEscape c

/-- The quoted form of a text, as characters. -/
def quotedChars (text : List Char) : List Char :=
  let quote := chosenQuote text
  quote :: text.flatMap (quotedChar quote) ++ [quote]

/-- The quoted form of a text. -/
def quoted (text : String) : String :=
  String.ofList (quotedChars text.toList)

end CelWhere.Text
