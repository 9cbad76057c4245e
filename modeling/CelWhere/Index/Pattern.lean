import CelWhere.Cel.Shape
import CelWhere.Index.Best
import CelWhere.Schema

/-! # Patterns

A pattern is a use of a column that an index would make faster. Patterns are found by walking over a
tree; of the patterns of one column the best is kept. -/

namespace CelWhere.Index

/-- The uses of a column that an index would make faster. -/
inductive PatternType
  /-- A comparison. -/
  | comparison
  /-- The selection of a part of a JSON value. -/
  | jsonAccess
  /-- A match against a regular expression. -/
  | regexMatch
  /-- A membership test. -/
  | arrayMembership
  /-- A comprehension over an array. -/
  | arrayComprehension
  /-- A comprehension over an array in a JSON value. -/
  | jsonArrayComprehension
  deriving DecidableEq, Repr, Inhabited

namespace PatternType

/-- All pattern types. -/
def all : List PatternType :=
  [.comparison, .jsonAccess, .regexMatch, .arrayMembership, .arrayComprehension,
    .jsonArrayComprehension]

/-- The name of a pattern type. -/
def name : PatternType → String
  | .comparison => "comparison"
  | .jsonAccess => "json_access"
  | .regexMatch => "regex_match"
  | .arrayMembership => "array_membership"
  | .arrayComprehension => "array_comprehension"
  | .jsonArrayComprehension => "json_array_comprehension"

/-- The pattern type of a name. -/
def ofName (name : String) : Except Fault PatternType :=
  match all.find? (·.name = name) with
  | some type => .ok type
  | none => .error (.unknownPatternType name)

/-- How special a pattern type is. -/
def priority : PatternType → Nat
  | .comparison => 1
  | .arrayMembership => 2
  | .regexMatch | .jsonAccess | .arrayComprehension | .jsonArrayComprehension => 3

end PatternType

/-- The use of a column. -/
structure Pattern where
  /-- The column. -/
  column : String
  /-- The use. -/
  type : PatternType
  /-- The table that the column seems to belong to; empty if none is seen. -/
  tableHint : String := ""
  deriving DecidableEq, Repr, Inhabited

/-- The patterns kept after others were found, one for each column. -/
def keepPatterns (found kept : List Pattern) : List Pattern :=
  keepBestOf Pattern.column (·.type.priority) found kept

/-! ## Patterns of a node -/

/-- The column that a tree stands for, seen through nodes with a single child. -/
def columnName : Tree → Except Fault (Option String)
  | .token leaf => .ok (if leaf.kind = .ident then some leaf.text else none)
  | .node .ident (child :: _) => .ok (some child.nameText)
  | .node .ident [] => .error .missingChild
  | .node .memberDot (_ :: field :: _) => .ok (some field.nameText)
  | .node .memberDot _ => .error .missingChild
  | .node _ [child] => columnName child
  | .node _ _ => .ok none

/-- The column that a tree stands for, if its name is not empty. -/
def column? (tree : Tree) : Except Fault (Option String) :=
  (columnName tree).map (·.filter (· ≠ ""))

/-- The pattern of a tree that stands for a column. -/
def columnPattern (type : PatternType) (tree : Tree) : Except Fault (List Pattern) := do
  match ← column? tree with
  | none => return []
  | some column =>
    let root ← tree.root?
    return [⟨column, type, root.getD ""⟩]

/-- The pattern of a comprehension over the elements of a tree. -/
def comprehensionPattern (catalog : Catalog) (source : Tree) : Except Fault (List Pattern) := do
  match ← column? source with
  | none => return []
  | some column =>
    match ← source.root? with
    | none => return [⟨column, .arrayComprehension, ""⟩]
    | some table =>
      let field ← source.firstField column
      let type := if catalog.isJson table field then .jsonArrayComprehension
        else .arrayComprehension
      return [⟨field, type, table⟩]

/-- The pattern of the selection of a field. -/
def selectionPattern (catalog : Catalog) : List Tree → Except Fault (List Pattern)
  | object :: field :: _ => do
    match ← object.root? with
    | none => return []
    | some table =>
      let first ← object.firstField field.nameText
      return if catalog.isJson table first then [⟨first, .jsonAccess, table⟩] else []
  | _ => .error .missingChild

/-- The methods that go through the elements of an array. -/
def comprehensionMethods : List String := ["all", "exists", "exists_one", "map", "filter"]

/-- The pattern of the call of a method. -/
def methodPattern (catalog : Catalog) : List Tree → Except Fault (List Pattern)
  | object :: method :: _ =>
    if method.nameText = "matches" then columnPattern .regexMatch object
    else if comprehensionMethods.contains method.nameText then comprehensionPattern catalog object
    else .ok []
  | _ => .error .missingChild

/-- The pattern of the call of a function. -/
def functionPattern : List Tree → Except Fault (List Pattern)
  | [] => .error .missingChild
  | _ :: .token _ :: _ => .error .missingArguments
  | function :: .node _ (subject :: _) :: _ =>
    if function.nameText = "matches" then columnPattern .regexMatch subject else .ok []
  | _ => .ok []

/-- The patterns of a comparison or membership test, in the order in which they are found. -/
def relationPatterns : List Tree → List (Except Fault (List Pattern))
  | [.node operator (left :: _), right] =>
    [columnPattern .comparison left, columnPattern .comparison right] ++
      (if operator = .relationIn then [columnPattern .arrayMembership left] else [])
  | [.node _ [], right] => [columnPattern .comparison right]
  | _ => []

/-- The patterns of a node by itself, in the order in which they are found. -/
def nodePatterns (catalog : Catalog) (rule : Rule) (children : List Tree) :
    List (Except Fault (List Pattern)) :=
  match rule with
  | .relation => relationPatterns children
  | .memberDot => [selectionPattern catalog children]
  | .memberDotArg => [methodPattern catalog children]
  | .identArg => [functionPattern children]
  | _ => []

/-- Whether the walk over a tree does not go below a rule. -/
def isClosed : Rule → Bool
  | .literal | .ident | .dotIdent | .memberObject | .unaryNot | .unaryNeg => true
  | _ => false

/-! ## Patterns of a tree -/

/-- What a walk has found before it ended, perhaps early by a fault. -/
structure Findings where
  /-- The patterns in the order in which they were found. -/
  patterns : List Pattern := []
  /-- The fault that ended the walk early. -/
  fault : Option Fault := none
  deriving Repr, Inhabited

namespace Findings

/-- Goes on unless the walk has ended. -/
def append (first second : Findings) : Findings :=
  match first.fault with
  | none => ⟨first.patterns ++ second.patterns, second.fault⟩
  | some _ => first

instance : Append Findings := ⟨append⟩

/-- The findings of one question. -/
def ofResult : Except Fault (List Pattern) → Findings
  | .ok patterns => ⟨patterns, none⟩
  | .error fault => ⟨[], some fault⟩

/-- The findings of questions one after the other. -/
def ofResults : List (Except Fault (List Pattern)) → Findings
  | [] => {}
  | result :: rest => ofResult result ++ ofResults rest

end Findings

mutual

/-- The patterns of a tree: those of a node, then those below it. -/
def findings (catalog : Catalog) : Tree → Findings
  | .token _ => {}
  | .node rule children =>
    Findings.ofResults (nodePatterns catalog rule children) ++
      (if isClosed rule then {} else findingsBelow catalog children)

/-- The patterns of trees one after the other. -/
def findingsBelow (catalog : Catalog) : List Tree → Findings
  | [] => {}
  | tree :: rest => findings catalog tree ++ findingsBelow catalog rest

end

/-- The patterns kept after the walk over a tree, and the fault that ended it early. -/
def collectPatterns (catalog : Catalog) (tree : Tree) (kept : List Pattern) :
    List Pattern × Option Fault :=
  let found := findings catalog tree
  (keepPatterns found.patterns kept, found.fault)

end CelWhere.Index
