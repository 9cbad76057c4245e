import CelWhere.Cel.Tree
import CelWhere.Fault

/-! # What an expression looks like

Questions about a tree that are answered by its form alone: whether it is a literal, a list or a
name under its levels of precedence, from which name a chain of selections starts, and whether it
has to do with times. Trees outside the grammar may lack a child that a question needs. -/

namespace CelWhere.Tree

/-! ## Looking through levels -/

/-- The token of a literal that a tree consists of, seen through nodes with a single child. -/
def literal? : Tree → Option Token
  | .node .literal (.token leaf :: _) => some leaf
  | .node .literal _ => none
  | .node _ [child] => child.literal?
  | _ => none

/-- The literal of a tree, if its token is not empty. -/
def givenLiteral? (tree : Tree) : Option Token :=
  tree.literal?.filter (·.text ≠ "")

/-- The string literal of a tree, if its token is not empty. -/
def stringLiteral? (tree : Tree) : Option Token :=
  tree.givenLiteral?.filter (·.isString)

/-- The integer literal of a tree, if its token is not empty. -/
def intLiteral? (tree : Tree) : Option Token :=
  tree.givenLiteral?.filter (·.kind = .int)

/-- Whether a tree is a number literal. -/
def isNumeric (tree : Tree) : Bool :=
  tree.literal?.any (·.isNumeric)

/-- The node of a rule that a tree consists of, seen through nodes with a single child: its
children. -/
def unwrap? (rule : Rule) : Tree → Option (List Tree)
  | .token _ => none
  | .node found children =>
    if found = rule then some children
    else
      match children with
      | [child] => child.unwrap? rule
      | _ => none

theorem unwrap?_heights {rule : Rule} {children : List Tree} :
    ∀ {tree : Tree}, tree.unwrap? rule = some children → heights children < tree.height
  | .token _, found => by simp [unwrap?] at found
  | .node inner below, found => by
    unfold unwrap? at found
    split at found
    · simp only [Option.some.injEq] at found
      subst found
      simp [height]
    · split at found
      next child =>
        have := unwrap?_heights found
        simp only [height, heights]
        omega
      · simp at found

/-- Whether a tree is a list. -/
def isList (tree : Tree) : Bool :=
  (tree.unwrap? .listLit).isSome

/-- The tree below the levels of precedence that have a single child. -/
def core : Tree → Tree
  | .node rule [child] => if rule.isLevel then child.core else .node rule [child]
  | tree => tree

/-- The tree below the selections that have a single child. -/
def operand : Tree → Tree
  | .node .member [child] => child.operand
  | .node .primary [child] => child.operand
  | tree => tree

/-- Whether a tree is a node of a rule. -/
def hasRule (rule : Rule) : Tree → Bool
  | .node found _ => found = rule
  | .token _ => false

mutual

/-- Whether a string literal occurs in a tree. -/
def containsString : Tree → Bool
  | .token leaf => leaf.isString
  | .node .literal (child :: _) =>
    match child with
    | .token leaf => leaf.isString
    | .node _ _ => false
  | .node _ children => anyContainsString children

/-- Whether a string literal occurs in some node of a list. -/
def anyContainsString : List Tree → Bool
  | [] => false
  | .token _ :: rest => anyContainsString rest
  | .node rule children :: rest =>
    (Tree.node rule children).containsString || anyContainsString rest

end

/-! ## Names -/

/-- The name from which a tree starts, going down along first children. -/
def rootName : Tree → Except Fault (Option String)
  | .token leaf => .ok (if leaf.kind = .ident then some leaf.text else none)
  | .node .ident (child :: _) => .ok (some child.nameText)
  | .node .ident [] => .error .missingChild
  | .node .memberDot [] => .error .missingChild
  | .node _ (child :: _) => child.rootName
  | .node _ [] => .ok none

/-- The name from which a tree starts, if it is not empty. -/
def root? (tree : Tree) : Except Fault (Option String) :=
  tree.rootName.map (·.filter (· ≠ ""))

/-- The field that is selected first, directly on a name; another text if there is none. -/
def firstField (fallback : String) : Tree → Except Fault String
  | .node .memberDot [] => .error .missingChild
  | .node .memberDot (child :: rest) =>
    if child.operand.hasRule .ident then
      match rest with
      | field :: _ => .ok field.nameText
      | [] => .error .missingChild
    else child.firstField fallback
  | .node _ [child] => child.firstField fallback
  | _ => .ok fallback

/-- The name that a tree consists of, seen through nodes with a single child; the rule of the whole
tree is for the message. -/
def nameFrom (whole : Rule) : Tree → Except Fault String
  | .token leaf => if leaf.kind = .ident then .ok leaf.text else .error .expectedNameToken
  | .node .ident (child :: _) => .ok child.nameText
  | .node .ident [] => .error .missingChild
  | .node _ [child] => child.nameFrom whole
  | .node _ _ => .error (.expectedName whole)

/-- The name that a tree consists of. -/
def identName : Tree → Except Fault String
  | .token leaf => (Tree.token leaf).nameFrom .expr
  | .node rule children => (Tree.node rule children).nameFrom rule

/-! ## Times -/

/-- The functions that make durations. -/
def durationFunctions : List String := ["duration", "interval"]

/-- The functions that make times or durations. -/
def temporalFunctions : List String :=
  ["duration", "interval", "timestamp", "date", "time", "datetime", "current_date",
    "current_datetime"]

/-- The names that stand for times. -/
def temporalNames : List String :=
  ["created_at", "updated_at", "birthday", "fixed_time", "scheduled_at"]

/-- The names that stand for timestamps in casts to integers. -/
def timestampNames : List String :=
  ["created_at", "updated_at", "timestamp", "ts"]

mutual

/-- Whether a function that makes a duration is called in a tree, its arguments aside. -/
def isDuration : Tree → Except Fault Bool
  | .token _ => .ok false
  | .node .identArg (name :: _) => .ok (durationFunctions.contains name.nameText)
  | .node .identArg [] => .error .missingChild
  | .node _ children => anyIsDuration children

/-- Whether a function that makes a duration is called in some tree of a list, from the first on. -/
def anyIsDuration : List Tree → Except Fault Bool
  | [] => .ok false
  | .node .exprList _ :: rest => anyIsDuration rest
  | tree :: rest =>
    match tree.isDuration with
    | .ok false => anyIsDuration rest
    | result => result

end

mutual

/-- Whether a tree has a call or a name that stands for a time. -/
def isTemporal : Tree → Except Fault Bool
  | .token _ => .ok false
  | .node .identArg (name :: _) => .ok (temporalFunctions.contains name.nameText)
  | .node .identArg [] => .error .missingChild
  | .node .ident (name :: _) => .ok (temporalNames.contains name.nameText)
  | .node .ident [] => .error .missingChild
  | .node _ children => anyIsTemporal children

/-- Whether some tree of a list has a call or a name that stands for a time, from the first on. -/
def anyIsTemporal : List Tree → Except Fault Bool
  | [] => .ok false
  | tree :: rest =>
    match tree.isTemporal with
    | .ok false => anyIsTemporal rest
    | result => result

end

/-- The tree at the end of nodes with a single child. -/
def innermost : Tree → Tree
  | .node _ [child] => child.innermost
  | tree => tree

/-- Whether a tree that starts from a name stands for a timestamp. -/
def isTimestamp (root : String) (tree : Tree) : Bool :=
  timestampNames.contains root ||
    match tree.innermost with
    | .node .ident (child :: _) => timestampNames.contains child.nameText
    | _ => false

end CelWhere.Tree
