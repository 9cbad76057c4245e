import CelWhere.Cel.Shape
import CelWhere.Cel.StringLiteral
import CelWhere.Number.Binary64
import CelWhere.Schema
import CelWhere.Sql.Dialect
import CelWhere.Sql.Fragment
import CelWhere.Sql.Identifier

/-! # What a conversion depends on

A tree is converted for a dialect, with a catalog that tells which fields hold JSON and which hold
arrays. -/

namespace CelWhere

/-- The dialect to convert for and the schemas that are known. -/
structure Context where
  /-- The dialect of the SQL text. -/
  dialect : Dialect
  /-- The known schemas. -/
  catalog : Catalog
  deriving Repr, Inhabited

/-! ## Fields -/

namespace Catalog

/-- Whether the field selection with these children goes through a JSON field of a table. -/
def isJsonPath (catalog : Catalog) : List Tree → Except Fault Bool
  | [] => .error .missingChild
  | object :: rest =>
    match object.root? with
    | .error fault => .error fault
    | .ok none => .ok false
    | .ok (some table) =>
      match rest with
      | [] => .error .missingChild
      | field :: _ => (object.firstField field.nameText).map (catalog.isJson table)

/-- Whether a tree selects text out of a JSON value. -/
def isJsonText (catalog : Catalog) (tree : Tree) : Except Fault Bool :=
  match tree.core with
  | .node .memberDot children => catalog.isJsonPath children
  | _ => .ok false

/-- Whether the field selection with these children is an array field of the table it starts
from. -/
def isArraySelection (catalog : Catalog) : List Tree → Except Fault Bool
  | [] => .error .missingChild
  | object :: rest =>
    match object.root?, rest with
    | .error fault, _ => .error fault
    | .ok _, [] => .error .missingChild
    | .ok none, _ => .ok false
    | .ok (some table), field :: _ => .ok (catalog.isArray table field.nameText)

/-- Whether the name with these children is an array field of some table. -/
def isArrayName (catalog : Catalog) : List Tree → Except Fault Bool
  | [] => .error .missingChild
  | name :: _ => .ok (catalog.hasArray name.nameText)

/-- Whether a tree is an array field. -/
def isArrayField (catalog : Catalog) (tree : Tree) : Except Fault Bool :=
  match tree.core with
  | .node .memberDot children => catalog.isArraySelection children
  | .node .ident children => catalog.isArrayName children
  | _ => .ok false

/-- The methods that make arrays. -/
def arrayMethods : List String := ["split", "filter", "map"]

/-- Whether a tree makes an array: a list, a method that makes one, or an array field. -/
def isArrayValue (catalog : Catalog) (tree : Tree) : Except Fault Bool :=
  match tree.core with
  | .node .listLit _ => .ok true
  | .node .memberDotArg children =>
    .ok <| match children with
      | _ :: method :: _ => arrayMethods.contains method.nameText
      | _ => false
  | .node .memberDot children => catalog.isArraySelection children
  | .node .ident children => catalog.isArrayName children
  | _ => .ok false

end Catalog

/-! ## Names and literals -/

/-- The name of a field, which must be a valid one. -/
def fieldName (name : String) : Fragment :=
  match columnNameFault? name with
  | some fault => .fail fault
  | none => .text name

/-- A name, which must be a valid one unless it is a variable. -/
def reference (name : String) : Fragment :=
  match columnNameFault? name with
  | some fault => .unlessBound name fault ++ name
  | none => .text name

/-- Goes on with a text, which must not have a null byte. -/
def withoutNull (usage text : String) (next : Fragment) : Fragment :=
  match nullByteFault? usage text with
  | some fault => .fail fault
  | none => next

/-- Reads an integer text. -/
def readInteger (radix : Radix) (text : String) : Except Fault Int :=
  match Integer.read radix text.toList with
  | .ok value => .ok value
  | .error failure => .error (.unreadableInteger radix text failure)

/-- The text of an unsigned integer without the mark at its end. -/
def dropUnsignedMark (text : String) : String :=
  String.ofList (text.toList.reverse.dropWhile fun c => c = 'u' || c = 'U').reverse

/-- Whether the text of a truth value is that of the true one. -/
def isTrueText (text : String) : Bool :=
  lowerName text = "true"

/-- A literal. -/
def literalOf (token : Token) : Fragment :=
  match token.kind with
  | .null => .text "NULL"
  | .bool => .text (if isTrueText token.text then "TRUE" else "FALSE")
  | .int => .attempt (readInteger .marked token.text) fun value => .literal (.int value)
  | .uint =>
    .attempt (readInteger .marked (dropUnsignedMark token.text)) fun value => .literal (.int value)
  | .float =>
    match Binary64.read? token.text.toList with
    | some value => .literal (.float token.text value)
    | none => .fail (.unreadableFloat token.text)
  | .string | .multiline =>
    withoutNull "string literals" token.stringValue (.literal (.string token.stringValue))
  | .bytes => .literal (.bytes token.bytesValue)
  | .ident => .fail (.literalKind TokenKind.ident.name)
  | .other name => .fail (.literalKind name)

/-- The arguments of a call: the children of the node behind its name, if there is one. -/
def argumentsOf : List Tree → Except Fault (List Tree)
  | [] => .ok []
  | .node _ arguments :: _ => .ok arguments
  | .token _ :: _ => .error .missingArguments

end CelWhere
