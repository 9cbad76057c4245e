/-! # Substrings of character lists

Finding, counting and replacing a pattern in a text, and cutting the quotes off a literal. A text is
a list of characters here, so that every function is a plain recursion on it. -/

namespace CelWhere.Text

/-- Whether the pattern occurs somewhere in the text. -/
def occurs (pattern : List Char) : List Char → Bool
  | [] => pattern.isEmpty
  | head :: rest => pattern.isPrefixOf (head :: rest) || occurs pattern rest

/-- How often the pattern occurs, counting from the left without overlap; the first argument is the
number of characters that still belong to the last occurrence. -/
def occurrencesFrom (pattern : List Char) : Nat → List Char → Nat
  | _, [] => 0
  | skip + 1, _ :: rest => occurrencesFrom pattern skip rest
  | 0, head :: rest =>
    if pattern.isPrefixOf (head :: rest) then
      occurrencesFrom pattern (pattern.length - 1) rest + 1
    else
      occurrencesFrom pattern 0 rest

/-- How often a non-empty pattern occurs, counting from the left without overlap. -/
def occurrences (pattern text : List Char) : Nat :=
  occurrencesFrom pattern 0 text

/-- Replaces the occurrences of the pattern; the first number is how many characters still belong to
the last occurrence and are dropped. -/
def replaceFrom (pattern replacement : List Char) : Nat → List Char → List Char
  | _, [] => []
  | skip + 1, _ :: rest => replaceFrom pattern replacement skip rest
  | 0, head :: rest =>
    if pattern.isPrefixOf (head :: rest) then
      replacement ++ replaceFrom pattern replacement (pattern.length - 1) rest
    else
      head :: replaceFrom pattern replacement 0 rest

/-- Replaces every occurrence of a non-empty pattern, from the left and without overlap. -/
def replaceAll (pattern replacement text : List Char) : List Char :=
  replaceFrom pattern replacement 0 text

/-- The text without its first and last `count` characters. -/
def trimEnds (count : Nat) (text : List Char) : List Char :=
  (text.drop count).take (text.length - 2 * count)

@[simp] theorem replaceAll_nil (pattern replacement : List Char) :
    replaceAll pattern replacement [] = [] := rfl

end CelWhere.Text
