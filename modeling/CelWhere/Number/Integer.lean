import CelWhere.Text.Digit

/-! # Reading and writing integers

An integer text may have blanks around it, a sign, a mark of its base, single underscores between
its digits, and digits of any script. Texts with more than `digitLimit` decimal digits are neither
read nor written. -/

namespace CelWhere

/-- How the base of an integer text is chosen. -/
inductive Radix
  /-- Base ten. -/
  | decimal
  /-- Base sixteen, with or without its mark. -/
  | hexadecimal
  /-- The base that the text marks, or ten; a text without mark that starts with a zero must be
  zero. -/
  | marked
  deriving DecidableEq, Repr

/-- The number that stands for a radix in messages. -/
def Radix.label : Radix → Nat
  | .decimal => 10
  | .hexadecimal => 16
  | .marked => 0

/-- Why an integer text cannot be read. -/
inductive IntegerFailure
  /-- The text is not an integer of its radix. -/
  | malformed
  /-- The text has more decimal digits than the limit. -/
  | tooLong (digits : Nat)
  deriving DecidableEq, Repr

namespace Integer

/-- The most decimal digits that an integer text may have. -/
def digitLimit : Nat := 4300

/-- The value of a list of digits, the most significant first. -/
def ofDigits (base : Nat) (digits : List Nat) : Nat :=
  digits.foldl (fun value digit => value * base + digit) 0

/-- Splits the sign off a text; the flag is set for a minus. -/
def splitSign : List Char → Bool × List Char
  | '+' :: rest => (false, rest)
  | '-' :: rest => (true, rest)
  | text => (false, text)

/-- Drops the one underscore that may follow a base mark. -/
def afterMark : List Char → List Char
  | '_' :: rest => rest
  | text => text

/-- The base of an unsigned text, the text without its mark, and whether only zero is allowed. -/
def splitBase : Radix → List Char → Nat × List Char × Bool
  | .decimal, text => (10, text, false)
  | .hexadecimal, '0' :: 'x' :: rest => (16, afterMark rest, false)
  | .hexadecimal, '0' :: 'X' :: rest => (16, afterMark rest, false)
  | .hexadecimal, text => (16, text, false)
  | .marked, '0' :: 'x' :: rest => (16, afterMark rest, false)
  | .marked, '0' :: 'X' :: rest => (16, afterMark rest, false)
  | .marked, '0' :: 'o' :: rest => (8, afterMark rest, false)
  | .marked, '0' :: 'O' :: rest => (8, afterMark rest, false)
  | .marked, '0' :: 'b' :: rest => (2, afterMark rest, false)
  | .marked, '0' :: 'B' :: rest => (2, afterMark rest, false)
  | .marked, text =>
    (10, text, match text with
      | first :: _ => first == '0'
      | [] => false)

/-- Reads digits with single underscores between them. The result is the digits and what follows
them; there is none if an underscore stands first, last or next to another. The flag tells whether a
digit was just read. -/
def readDigits (base : Nat) : Bool → List Char → Option (List Nat × List Char)
  | afterDigit, [] => if afterDigit then some ([], []) else none
  | afterDigit, head :: rest =>
    match Text.radixDigit? base head with
    | some digit => (readDigits base true rest).map fun (digits, after) => (digit :: digits, after)
    | none =>
      if head = '_' then
        if afterDigit then readDigits base false rest else none
      else if afterDigit then some ([], head :: rest) else none

/-- Reads an integer text. -/
def read (radix : Radix) (text : List Char) : Except IntegerFailure Int :=
  let (negative, unsigned) := splitSign ((text.map Text.plainChar).dropWhile Text.isBlank)
  let (base, body, onlyZero) := splitBase radix unsigned
  match readDigits base false body with
  | none => .error .malformed
  | some (digits, after) =>
    if base = 10 ∧ digitLimit < digits.length then
      .error (.tooLong digits.length)
    else
      let value := ofDigits base digits
      if (onlyZero && value != 0) || !after.all Text.isBlank then .error .malformed
      else .ok (if negative then -(value : Int) else value)

/-- The decimal digits of a natural number, the most significant first; the fuel bounds their
count. -/
def digitsOf : Nat → Nat → List Char → List Char
  | 0, _, tail => tail
  | fuel + 1, value, tail =>
    let tail := Char.ofNat ('0'.toNat + value % 10) :: tail
    if value < 10 then tail else digitsOf fuel (value / 10) tail

/-- The decimal digits of a natural number. -/
def natDigits (value : Nat) : List Char :=
  digitsOf (value.log2 + 1) value []

/-- The decimal text of an integer of any size. -/
def toText (value : Int) : String :=
  String.ofList (if value < 0 then '-' :: natDigits value.natAbs else natDigits value.natAbs)

/-- Whether an integer has too many digits to be written as a decimal text. -/
def tooLongToWrite (value : Int) : Bool :=
  digitLimit < (natDigits value.natAbs).length

end Integer

end CelWhere
