import CelWhere.Fault
import CelWhere.Limits
import CelWhere.Sql.Fragment
import CelWhere.Sql.Literal
import CelWhere.Text.Search

/-! # Regular expressions

A pattern of the expression language is checked and then brought into the form of a dialect.
Constructs that the databases lack are refused, and so are patterns that are too long, too deep or
dangerous to match. A leading `(?i)` asks for matching without regard to case and is taken off. -/

namespace CelWhere.Regex

/-- A pattern in the form of a dialect. -/
structure Converted where
  /-- The pattern. -/
  pattern : List Char
  /-- Whether case is ignored. -/
  caseInsensitive : Bool
  deriving DecidableEq, Repr

/-- Whether some place of the text is a group opener `(?` followed by one of the given
characters. -/
def opensWith (marks : List Char) : List Char → Bool
  | [] => false
  | head :: rest =>
    (match head, rest with
      | '(', '?' :: mark :: _ => marks.contains mark
      | _, _ => false) || opensWith marks rest

/-- Characters that repeat what stands before them. -/
def isQuantifier (c : Char) : Bool :=
  c = '+' || c = '*' || c = '?'

/-- Whether a group that ends in a repetition is itself repeated. The first argument tells whether a
group was opened since the last closing parenthesis and something stands in it; the second whether
the last character was a quantifier inside such a group. -/
def nestedQuantifierFrom : Bool → Bool → List Char → Bool
  | _, _, [] => false
  | opened, afterQuantifier, head :: rest =>
    if head = ')' then
      (afterQuantifier && rest.head?.any isQuantifier) || nestedQuantifierFrom false false rest
    else nestedQuantifierFrom (opened || head = '(') (opened && isQuantifier head) rest

/-- Whether a group that ends in a repetition is itself repeated. -/
def hasNestedQuantifier (pattern : List Char) : Bool :=
  nestedQuantifierFrom false false pattern

/-- The deepest nesting of parentheses, from a depth and a maximum reached so far. Closing
parentheses that close nothing lower the depth below zero. -/
def nestingFrom : Int → Nat → List Char → Nat
  | _, deepest, [] => deepest
  | depth, deepest, head :: rest =>
    if head = '(' then nestingFrom (depth + 1) (max deepest (depth + 1).toNat) rest
    else if head = ')' then nestingFrom (depth - 1) deepest rest
    else nestingFrom depth deepest rest

/-- The deepest nesting of parentheses. -/
def nesting (pattern : List Char) : Nat :=
  nestingFrom 0 0 pattern

/-- The number of capturing groups. -/
def groups (pattern : List Char) : Nat :=
  Text.occurrences ['('] pattern - Text.occurrences ['(', '?', ':'] pattern

/-- Splits the flag for ignoring case off a pattern. -/
def splitFlag : List Char → List Char × Bool
  | '(' :: '?' :: 'i' :: ')' :: rest => (rest, true)
  | pattern => (pattern, false)

/-- The checks of a pattern, one after the other. A pattern that passes them all loses its flag and
is finished. -/
def screen (finish : List Char → List Char) (source : List Char) : Except Fault Converted :=
  let (pattern, caseInsensitive) := splitFlag source
  let written := String.ofList source
  if lengthLimit < source.length then .error (.regex (.tooLong source.length))
  else if source.contains '\x00' then .error (.nullByte "regex patterns" written)
  else if opensWith ['!', '=', '<'] pattern then .error (.regex (.lookaround written))
  else if Text.occurs ['(', '?', 'P', '<'] pattern then .error (.regex (.namedCapture written))
  else if opensWith ['i', 'm', 's', 'x'] pattern then .error (.regex (.inlineFlag written))
  else if hasNestedQuantifier pattern then .error (.regex (.nestedQuantifier written))
  else if nestingLimit < nesting pattern then .error (.regex (.tooDeep (nesting pattern)))
  else if groupLimit < groups pattern then .error (.regex (.tooManyGroups (groups pattern)))
  else .ok { pattern := finish pattern, caseInsensitive }

/-- Checks a pattern and splits off its flag. -/
def validate (source : List Char) : Except Fault Converted :=
  screen id source

/-- However a pattern is finished, it is checked in the same way. -/
theorem screen_eq (finish : List Char → List Char) (source : List Char) :
    screen finish source =
      (validate source).map fun checked => { checked with pattern := finish checked.pattern } := by
  unfold validate screen
  dsimp only
  iterate 8
    split
    · rfl
  rfl

/-- The shorthands of character classes and boundaries with their POSIX forms, in the order in which
they are replaced. -/
def posixForms : List (List Char × List Char) :=
  [("\\d".toList, "[[:digit:]]".toList), ("\\D".toList, "[^[:digit:]]".toList),
    ("\\w".toList, "[[:alnum:]_]".toList), ("\\W".toList, "[^[:alnum:]_]".toList),
    ("\\s".toList, "[[:space:]]".toList), ("\\S".toList, "[^[:space:]]".toList),
    ("\\b".toList, "\\y".toList), ("\\B".toList, "\\Y".toList)]

/-- Replaces the shorthands by their POSIX forms. -/
def toPosix (pattern : List Char) : List Char :=
  posixForms.foldl (fun text (short, form) => Text.replaceAll short form text) pattern

/-- A pattern fails for a null byte or for what it is made of. -/
theorem fault_of_screen {finish : List Char → List Char} {source : List Char} {fault : Fault}
    (failed : screen finish source = .error fault) :
    fault = .nullByte "regex patterns" (String.ofList source) ∨ ∃ cause, fault = .regex cause := by
  unfold screen at failed
  dsimp only at failed
  -- One check after the other, each with a fault of its own.
  iterate 8
    split at failed
    · obtain rfl := Except.error.inj failed
      simp
  cases failed

/-- Makes all groups capturing. -/
def captureAll (pattern : List Char) : List Char :=
  Text.replaceAll ['(', '?', ':'] ['('] pattern

/-- A pattern for engines that know the POSIX classes only. -/
def posix (source : List Char) : Except Fault Converted :=
  screen (fun pattern => captureAll (toPosix pattern)) source

/-- A pattern that is checked before its groups are made capturing. -/
def captured (source : List Char) : Except Fault Converted :=
  (validate source).map fun checked => { checked with pattern := captureAll checked.pattern }

/-- A pattern for engines of the language that the patterns are written in. -/
def native (source : List Char) : Except Fault Converted :=
  captured source

/-- A pattern for the engine of MySQL, which knows the shorthands too. -/
def icu (source : List Char) : Except Fault Converted :=
  captured source

end CelWhere.Regex

namespace CelWhere.Dialect

/-- The form of a pattern in a dialect. -/
def convertRegex (dialect : Dialect) (source : String) : Except Fault Regex.Converted :=
  match dialect with
  | .postgresql => Regex.posix source.toList
  | .mysql => Regex.icu source.toList
  | .duckdb | .bigquery => Regex.native source.toList
  | .sqlite => .error (.sqliteLacks .regex)

/-- What a dialect does not take has a null byte, is refused for what it is made of, or meets a
dialect without regular expressions. -/
theorem fault_of_convertRegex {dialect : Dialect} {source : String} {fault : Fault}
    (failed : dialect.convertRegex source = .error fault) :
    fault = .sqliteLacks .regex ∨
      fault = .nullByte "regex patterns" (String.ofList source.toList) ∨
      ∃ cause, fault = .regex cause := by
  cases dialect with
  | postgresql =>
    simp only [convertRegex, Regex.posix] at failed
    exact .inr (Regex.fault_of_screen failed)
  | mysql | duckdb | bigquery =>
    simp only [convertRegex, Regex.icu, Regex.native, Regex.captured, ← Regex.screen_eq] at failed
    exact .inr (Regex.fault_of_screen failed)
  | sqlite => exact .inl (Except.error.inj failed).symm

/-- The test that a string matches a pattern. -/
def regexMatch (dialect : Dialect) (subject : Fragment) (pattern : String)
    (caseInsensitive : Bool) :
    Fragment :=
  let escaped := dialect.escapeString pattern
  match dialect with
  | .postgresql =>
    subject ++ (if caseInsensitive then " ~* " else " ~ ") ++ ("'" ++ escaped ++ "'" : String)
  | .mysql => subject ++ " REGEXP " ++ ("'" ++ escaped ++ "'" : String)
  | .sqlite => .fail (.sqliteLacks .regex)
  | .duckdb =>
    "regexp_matches(" ++ subject ++
      (", '" ++ escaped ++ (if caseInsensitive then "', 'i')" else "')") : String)
  | .bigquery =>
    "REGEXP_CONTAINS(" ++ subject ++ ", " ++
      ((if caseInsensitive then "'(?i)" else "'") ++ escaped ++ "'" : String) ++ ")"

end CelWhere.Dialect
