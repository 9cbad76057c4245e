import CelWhere.Text.Quoted

/-! # Syntax trees

A tree of the expression language is a token or a grammar rule with its children. Every rule that
was used is a node, also one with a single child, because depth is counted along these nodes. Trees
need not follow the grammar: rules and tokens outside it have names of their own. -/

namespace CelWhere

/-- The kinds of tokens. -/
inductive TokenKind
  /-- A name. -/
  | ident
  /-- A signed integer literal. -/
  | int
  /-- An unsigned integer literal, marked by a letter at its end. -/
  | uint
  /-- A literal with a point or an exponent. -/
  | float
  /-- A string literal on one line. -/
  | string
  /-- A string literal between triple quotes. -/
  | multiline
  /-- A bytes literal. -/
  | bytes
  /-- One of the two truth values. -/
  | bool
  /-- The null literal. -/
  | null
  /-- A kind outside the grammar. -/
  | other (name : String)
  deriving DecidableEq, Repr, Inhabited

namespace TokenKind

/-- The kinds of the grammar. -/
def all : List TokenKind :=
  [.ident, .int, .uint, .float, .string, .multiline, .bytes, .bool, .null]

/-- The name of a kind. -/
def name : TokenKind → String
  | .ident => "IDENT"
  | .int => "INT_LIT"
  | .uint => "UINT_LIT"
  | .float => "FLOAT_LIT"
  | .string => "STRING_LIT"
  | .multiline => "MLSTRING_LIT"
  | .bytes => "BYTES_LIT"
  | .bool => "BOOL_LIT"
  | .null => "NULL_LIT"
  | .other name => name

/-- The kind of a name. -/
def ofName (name : String) : TokenKind :=
  (all.find? (·.name = name)).getD (.other name)

end TokenKind

/-- A token: its kind and the text it was read from. -/
structure Token where
  /-- The kind of the token. -/
  kind : TokenKind
  /-- The text of the token as it stands in the expression. -/
  text : String
  deriving DecidableEq, Repr, Inhabited

namespace Token

/-- Whether the token is a string literal, on one line or more. -/
def isString (token : Token) : Bool :=
  token.kind = .string || token.kind = .multiline

/-- Whether the token is a number literal. -/
def isNumeric (token : Token) : Bool :=
  token.kind = .int || token.kind = .float || token.kind = .uint

/-- The token written out with its kind. -/
def describe (token : Token) : String :=
  "Token(" ++ Text.quoted token.kind.name ++ ", " ++ Text.quoted token.text ++ ")"

end Token

/-- The rules of the grammar. -/
inductive Rule
  /-- A whole expression, perhaps a choice. -/
  | expr
  /-- A disjunction. -/
  | conditionalOr
  /-- A conjunction. -/
  | conditionalAnd
  /-- A comparison or membership test. -/
  | relation
  /-- The left operand of `<`. -/
  | relationLt
  /-- The left operand of `<=`. -/
  | relationLe
  /-- The left operand of `>`. -/
  | relationGt
  /-- The left operand of `>=`. -/
  | relationGe
  /-- The left operand of `==`. -/
  | relationEq
  /-- The left operand of `!=`. -/
  | relationNe
  /-- The left operand of `in`. -/
  | relationIn
  /-- A sum or difference. -/
  | addition
  /-- The left operand of `+`. -/
  | additionAdd
  /-- The left operand of binary `-`. -/
  | additionSub
  /-- A product, quotient or remainder. -/
  | multiplication
  /-- The left operand of `*`. -/
  | multiplicationMul
  /-- The left operand of `/`. -/
  | multiplicationDiv
  /-- The left operand of `%`. -/
  | multiplicationMod
  /-- An operand with or without a sign. -/
  | unary
  /-- The sign `!`. -/
  | unaryNot
  /-- The sign `-`. -/
  | unaryNeg
  /-- An operand with its selections. -/
  | member
  /-- The selection of a field. -/
  | memberDot
  /-- The call of a method. -/
  | memberDotArg
  /-- The selection of an element. -/
  | memberIndex
  /-- The construction of an object. -/
  | memberObject
  /-- An operand without selections. -/
  | primary
  /-- The call of a function with a leading dot. -/
  | dotIdentArg
  /-- A name with a leading dot. -/
  | dotIdent
  /-- The call of a function. -/
  | identArg
  /-- A name. -/
  | ident
  /-- An expression in parentheses. -/
  | parenExpr
  /-- A list. -/
  | listLit
  /-- A map. -/
  | mapLit
  /-- The expressions of a list or of a call. -/
  | exprList
  /-- The fields of an object. -/
  | fieldInits
  /-- The entries of a map. -/
  | mapInits
  /-- A literal. -/
  | literal
  /-- A rule outside the grammar. -/
  | other (name : String)
  deriving DecidableEq, Repr, Inhabited

namespace Rule

/-- The rules of the grammar. -/
def all : List Rule :=
  [.expr, .conditionalOr, .conditionalAnd, .relation, .relationLt, .relationLe, .relationGt,
    .relationGe, .relationEq, .relationNe, .relationIn, .addition, .additionAdd, .additionSub,
    .multiplication, .multiplicationMul, .multiplicationDiv, .multiplicationMod, .unary, .unaryNot,
    .unaryNeg, .member, .memberDot, .memberDotArg, .memberIndex, .memberObject, .primary,
    .dotIdentArg, .dotIdent, .identArg, .ident, .parenExpr, .listLit, .mapLit, .exprList,
    .fieldInits, .mapInits, .literal]

/-- The name of a rule. -/
def name : Rule → String
  | .expr => "expr"
  | .conditionalOr => "conditionalor"
  | .conditionalAnd => "conditionaland"
  | .relation => "relation"
  | .relationLt => "relation_lt"
  | .relationLe => "relation_le"
  | .relationGt => "relation_gt"
  | .relationGe => "relation_ge"
  | .relationEq => "relation_eq"
  | .relationNe => "relation_ne"
  | .relationIn => "relation_in"
  | .addition => "addition"
  | .additionAdd => "addition_add"
  | .additionSub => "addition_sub"
  | .multiplication => "multiplication"
  | .multiplicationMul => "multiplication_mul"
  | .multiplicationDiv => "multiplication_div"
  | .multiplicationMod => "multiplication_mod"
  | .unary => "unary"
  | .unaryNot => "unary_not"
  | .unaryNeg => "unary_neg"
  | .member => "member"
  | .memberDot => "member_dot"
  | .memberDotArg => "member_dot_arg"
  | .memberIndex => "member_index"
  | .memberObject => "member_object"
  | .primary => "primary"
  | .dotIdentArg => "dot_ident_arg"
  | .dotIdent => "dot_ident"
  | .identArg => "ident_arg"
  | .ident => "ident"
  | .parenExpr => "paren_expr"
  | .listLit => "list_lit"
  | .mapLit => "map_lit"
  | .exprList => "exprlist"
  | .fieldInits => "fieldinits"
  | .mapInits => "mapinits"
  | .literal => "literal"
  | .other name => name

/-- The rule of a name. -/
def ofName (name : String) : Rule :=
  (all.find? (·.name = name)).getD (.other name)

/-- Whether the rule is a level of precedence, from the whole expression down to the bare
operand. -/
def isLevel : Rule → Bool
  | .expr | .conditionalOr | .conditionalAnd | .relation | .addition | .multiplication
  | .unary | .member
  | .primary => true
  | _ => false

end Rule

/-- A syntax tree. -/
inductive Tree
  /-- A token. -/
  | token (leaf : Token)
  /-- A rule with its children. -/
  | node (rule : Rule) (children : List Tree)
  deriving Repr, Inhabited

namespace Tree

mutual

/-- The height of a tree; a token has height one. -/
def height : Tree → Nat
  | .token _ => 1
  | .node _ children => heights children + 1

/-- The greatest height of the trees of a list. -/
def heights : List Tree → Nat
  | [] => 0
  | tree :: rest => max tree.height (heights rest)

end

mutual

/-- The tree written out with its rules and tokens. -/
def describe : Tree → String
  | .token leaf => leaf.describe
  | .node rule children => "Tree(" ++ Text.quoted rule.name ++ ", [" ++ describeAll children ++ "])"

/-- The trees of a list written out, divided by commas. -/
def describeAll : List Tree → String
  | [] => ""
  | [tree] => tree.describe
  | tree :: rest => tree.describe ++ ", " ++ describeAll rest

end

/-- The text of a tree that stands for a name: a token's own text, and any other tree written
out. -/
def nameText : Tree → String
  | .token leaf => leaf.text
  | tree => tree.describe

@[simp] theorem nameText_token (leaf : Token) : (Tree.token leaf).nameText = leaf.text := rfl

theorem height_pos (tree : Tree) : 0 < tree.height := by
  cases tree with
  | token _ => simp [height]
  | node _ _ => simp [height]

theorem height_le_heights {tree : Tree} {trees : List Tree} (member : tree ∈ trees) :
    tree.height ≤ heights trees := by
  induction trees with
  | nil => cases member
  | cons head rest ih =>
    rcases List.mem_cons.mp member with rfl | later
    · simp only [heights]
      omega
    · have := ih later
      simp only [heights]
      omega

end Tree

end CelWhere
