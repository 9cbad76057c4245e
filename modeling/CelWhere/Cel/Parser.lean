import CelWhere.Cel.Lexer

/-! # Reading expressions

The reader follows the grammar level by level. Binary operators associate to the left: the tree of
what was read so far becomes the left operand of the next operator of the same level. Every reader
takes a bound on the number of nested calls, which `parse?` derives from the length of the text. -/

namespace CelWhere.Parser

open Lexer

/-- The levels of binary operators, from the loosest to the tightest. -/
inductive Level
  /-- Disjunctions. -/
  | or
  /-- Conjunctions. -/
  | and
  /-- Comparisons and membership tests. -/
  | relation
  /-- Sums and differences. -/
  | addition
  /-- Products, quotients and remainders. -/
  | multiplication
  deriving DecidableEq, Repr

/-- The next tighter level, if there is one. -/
def Level.tighter? : Level → Option Level
  | .or => some .and
  | .and => some .relation
  | .relation => some .addition
  | .addition => some .multiplication
  | .multiplication => none

/-- The rule of a level. -/
def Level.rule : Level → Rule
  | .or => .conditionalOr
  | .and => .conditionalAnd
  | .relation => .relation
  | .addition => .addition
  | .multiplication => .multiplication

/-- The level of an operator, and the rule of its left operand if the grammar has one for it. -/
def placeOf : Lexer.Operator → Level × Option Rule
  | .or => (.or, none)
  | .and => (.and, none)
  | .lt => (.relation, some .relationLt)
  | .le => (.relation, some .relationLe)
  | .gt => (.relation, some .relationGt)
  | .ge => (.relation, some .relationGe)
  | .eq => (.relation, some .relationEq)
  | .ne => (.relation, some .relationNe)
  | .isIn => (.relation, some .relationIn)
  | .add => (.addition, some .additionAdd)
  | .sub => (.addition, some .additionSub)
  | .mul => (.multiplication, some .multiplicationMul)
  | .div => (.multiplication, some .multiplicationDiv)
  | .mod => (.multiplication, some .multiplicationMod)

/-- The tree of an operator with its two operands. -/
def join (operator : Lexer.Operator) (left right : Tree) : Tree :=
  let (level, wrapper) := placeOf operator
  match wrapper with
  | some rule => .node level.rule [.node rule [left], right]
  | none => .node level.rule [left, right]

/-- A tree and the text behind it. -/
abbrev Reading := Option (Tree × List Char)

mutual

/-- Reads a whole expression. -/
def expression : Nat → List Char → Reading
  | 0, _ => none
  | fuel + 1, text =>
    match binary fuel .or text with
    | none => none
    | some (condition, rest) =>
      match punctuation? '?' rest with
      | none => some (.node .expr [condition], rest)
      | some rest =>
        match binary fuel .or rest with
        | none => none
        | some (positive, rest) =>
          match punctuation? ':' rest with
          | none => none
          | some rest =>
            (expression fuel rest).map fun (negative, rest) =>
              (.node .expr [condition, positive, negative], rest)

/-- Reads the operands of one level and their operators. -/
def binary : Nat → Level → List Char → Reading
  | 0, _, _ => none
  | fuel + 1, level, text =>
    match operandOf fuel level text with
    | none => none
    | some (operand, rest) => binaryTail fuel level (.node level.rule [operand]) rest

/-- Reads an operand of a level: an expression of the next tighter level, or a signed operand. -/
def operandOf : Nat → Level → List Char → Reading
  | 0, _, _ => none
  | fuel + 1, level, text =>
    match level.tighter? with
    | some tighter => binary fuel tighter text
    | none => unary fuel text

/-- Reads further operators of a level behind its left operand. -/
def binaryTail : Nat → Level → Tree → List Char → Reading
  | 0, _, _, _ => none
  | fuel + 1, level, left, text =>
    match operator? text with
    | none => some (left, text)
    | some (operator, rest) =>
      if (placeOf operator).1 = level then
        match operandOf fuel level rest with
        | none => none
        | some (right, rest) => binaryTail fuel level (join operator left right) rest
      else some (left, text)

/-- Reads an operand with its signs; a minus before digits belongs to the number. -/
def unary : Nat → List Char → Reading
  | 0, _ => none
  | fuel + 1, text =>
    let start := skip text
    match start with
    | '!' :: rest =>
      (unary fuel rest).map fun (operand, rest) =>
        (.node .unary [.node .unaryNot [], operand], rest)
    | '-' :: rest =>
      if (number? start).isSome then
        (member fuel start).map fun (operand, rest) => (.node .unary [operand], rest)
      else
        (unary fuel rest).map fun (operand, rest) =>
          (.node .unary [.node .unaryNeg [], operand], rest)
    | _ => (member fuel start).map fun (operand, rest) => (.node .unary [operand], rest)

/-- Reads an operand with its selections. -/
def member : Nat → List Char → Reading
  | 0, _ => none
  | fuel + 1, text =>
    match primary fuel text with
    | none => none
    | some (operand, rest) => memberTail fuel (.node .member [operand]) rest

/-- Reads the selections behind an operand. -/
def memberTail : Nat → Tree → List Char → Reading
  | 0, _, _ => none
  | fuel + 1, object, text =>
    match skip text with
    | '.' :: rest =>
      match name? rest with
      | none => none
      | some (name, rest) =>
        match punctuation? '(' rest with
        | some inside =>
          match arguments fuel inside with
          | none => none
          | some (list, rest) =>
            memberTail fuel (.node .member [.node .memberDotArg (object :: .token name :: list)])
              rest
        | none => memberTail fuel (.node .member [.node .memberDot [object, .token name]]) rest
    | '[' :: rest =>
      match expression fuel rest with
      | none => none
      | some (index, rest) =>
        match punctuation? ']' rest with
        | none => none
        | some rest => memberTail fuel (.node .member [.node .memberIndex [object, index]]) rest
    | '{' :: rest =>
      match punctuation? '}' rest with
      | some rest => memberTail fuel (.node .member [.node .memberObject [object]]) rest
      | none =>
        match fields fuel rest with
        | none => none
        | some (children, rest) =>
          memberTail fuel (.node .member [.node .memberObject [object, .node .fieldInits children]])
            rest
    | _ => some (object, text)

/-- Reads an operand without selections. -/
def primary : Nat → List Char → Reading
  | 0, _ => none
  | fuel + 1, text =>
    match operand? text with
    | some (token, rest) =>
      if token.kind = .ident then
        match punctuation? '(' rest with
        | some inside =>
          (arguments fuel inside).map fun (list, rest) =>
            (.node .primary [.node .identArg (.token token :: list)], rest)
        | none => some (.node .primary [.node .ident [.token token]], rest)
      else some (.node .primary [.node .literal [.token token]], rest)
    | none =>
      match text with
      | '.' :: rest =>
        match name? rest with
        | none => none
        | some (name, rest) =>
          match punctuation? '(' rest with
          | some inside =>
            (arguments fuel inside).map fun (list, rest) =>
              (.node .primary [.node .dotIdentArg (.token name :: list)], rest)
          | none => some (.node .primary [.node .dotIdent [.token name]], rest)
      | '(' :: rest =>
        match expression fuel rest with
        | none => none
        | some (inner, rest) =>
          (punctuation? ')' rest).map fun rest => (.node .primary [.node .parenExpr [inner]], rest)
      | '[' :: rest =>
        match punctuation? ']' rest with
        | some rest => some (.node .primary [.node .listLit []], rest)
        | none =>
          match expressions fuel rest with
          | none => none
          | some (list, rest) =>
            (punctuation? ']' rest).map fun rest =>
              (.node .primary [.node .listLit [.node .exprList list]], rest)
      | '{' :: rest =>
        match punctuation? '}' rest with
        | some rest => some (.node .primary [.node .mapLit []], rest)
        | none =>
          (entries fuel rest).map fun (children, rest) =>
            (.node .primary [.node .mapLit [.node .mapInits children]], rest)
      | _ => none

/-- Reads the arguments of a call up to its closing parenthesis: no child, or one list. -/
def arguments : Nat → List Char → Option (List Tree × List Char)
  | 0, _ => none
  | fuel + 1, text =>
    match punctuation? ')' text with
    | some rest => some ([], rest)
    | none =>
      match expressions fuel text with
      | none => none
      | some (list, rest) => (punctuation? ')' rest).map fun rest => ([.node .exprList list], rest)

/-- Reads expressions divided by commas, at least one. -/
def expressions : Nat → List Char → Option (List Tree × List Char)
  | 0, _ => none
  | fuel + 1, text =>
    match expression fuel text with
    | none => none
    | some (first, rest) =>
      match punctuation? ',' rest with
      | none => some ([first], rest)
      | some rest => (expressions fuel rest).map fun (list, rest) => (first :: list, rest)

/-- Reads the entries of a map up to its closing brace: keys and values in turn. -/
def entries : Nat → List Char → Option (List Tree × List Char)
  | 0, _ => none
  | fuel + 1, text =>
    match expression fuel text with
    | none => none
    | some (key, rest) =>
      match punctuation? ':' rest with
      | none => none
      | some rest =>
        match expression fuel rest with
        | none => none
        | some (value, rest) =>
          match punctuation? ',' rest with
          | some rest => (entries fuel rest).map fun (list, rest) => (key :: value :: list, rest)
          | none => (punctuation? '}' rest).map fun rest => ([key, value], rest)

/-- Reads the fields of an object up to its closing brace: names and values in turn. -/
def fields : Nat → List Char → Option (List Tree × List Char)
  | 0, _ => none
  | fuel + 1, text =>
    match name? text with
    | none => none
    | some (name, rest) =>
      match punctuation? ':' rest with
      | none => none
      | some rest =>
        match expression fuel rest with
        | none => none
        | some (value, rest) =>
          match punctuation? ',' rest with
          | some rest =>
            (fields fuel rest).map fun (list, rest) => (.token name :: value :: list, rest)
          | none => (punctuation? '}' rest).map fun rest => ([.token name, value], rest)

end

/-- A bound on the nested calls that a text of a length can need: no reader goes through more than
twenty calls without taking a character. -/
def fuelFor (text : List Char) : Nat :=
  20 * (text.length + 1)

/-- The tree of an expression text, if the whole text is one expression. -/
def parseChars? (text : List Char) : Option Tree :=
  match expression (fuelFor text) text with
  | some (tree, rest) => if (skip rest).isEmpty then some tree else none
  | none => none

end CelWhere.Parser

/-- The tree of an expression text, if the whole text is one expression. -/
def CelWhere.parse? (text : String) : Option CelWhere.Tree :=
  Parser.parseChars? text.toList
