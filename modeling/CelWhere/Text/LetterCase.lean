import CelWhere.Text.CaseTable

/-! # Upper and lower case

The case of a text is changed letter by letter; the letters of ASCII are looked at first. A capital
sigma at the end of a word has a lower case of its own. -/

namespace CelWhere.Text

/-- The range of a table that holds a code point. -/
def caseRange? (ranges : List CaseRange) (code : Nat) : Option CaseRange :=
  ranges.find? fun range =>
    range.first ≤ code && code ≤ range.last && (code - range.first) % range.stride = 0

/-- The other case of a character by the tables of single and of several characters. -/
def mapCase (ranges : List CaseRange) (expansions : List (Nat × List Nat)) (c : Char) : List Char :=
  match expansions.lookup c.toNat with
  | some codes => codes.map Char.ofNat
  | none =>
    match caseRange? ranges c.toNat with
    | some range => [Char.ofNat (c.toNat + range.shift).toNat]
    | none => [c]

/-- The upper case of a character. -/
def upperChar (c : Char) : List Char :=
  if c.toNat < 128 then [c.toUpper] else mapCase upperRanges upperExpansions c

/-- The lower case of a character by itself. -/
def lowerChar (c : Char) : List Char :=
  if c.toNat < 128 then [c.toLower] else mapCase lowerRanges lowerExpansions c

/-- Whether a character has two cases. -/
def hasCase (c : Char) : Bool :=
  upperChar c != [c] || lowerChar c != [c]

/-- The lower case of a text; the flag tells whether a letter with two cases stands before it. -/
def lowerFrom : Bool → List Char → List Char
  | _, [] => []
  | afterLetter, head :: rest =>
    (if head = 'Σ' && afterLetter && !rest.head?.any hasCase then ['ς'] else lowerChar head) ++
      lowerFrom (hasCase head) rest

/-- The upper case of a text. -/
def upper (text : String) : String :=
  String.ofList (text.toList.flatMap upperChar)

/-- The lower case of a text. -/
def lower (text : String) : String :=
  String.ofList (lowerFrom false text.toList)

end CelWhere.Text
