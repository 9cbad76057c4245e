import CelWhere.Convert.Method
import CelWhere.Sql.Cast
import CelWhere.Sql.Duration

/-! # Functions -/

namespace CelWhere.Convert

variable (context : Context) (child : Tree → Fragment)

/-! ## Presence -/

/-- How the presence of a value is tested. -/
inductive PresenceTest
  /-- By asking a JSON field of a table for a field of its own. -/
  | jsonField (binary : Bool) (field : String) (base : Tree)
  /-- By comparing a path through a JSON field with null. -/
  | jsonPath (children : List Tree)
  /-- By comparing the value with null. -/
  | plain

/-- How the presence of a field selection with these children is tested. The field before the last
decides whether it is asked for in a JSON value. -/
def presenceOfSelection (catalog : Catalog) (object field : Tree) (children : List Tree) :
    Except Fault PresenceTest :=
  match object.root?, object.unwrap? .memberDot with
  | .error fault, _ => .error fault
  | .ok root, none => nested root
  | .ok _, some [] => .error .missingChild
  | .ok root, some (owner :: rest) =>
    match owner.root?, rest with
    | .error fault, _ => .error fault
    | .ok _, [] => .error .missingChild
    | .ok (some table), column :: _ =>
      if catalog.isJson table column.nameText then
        .ok (.jsonField (catalog.isJsonb table column.nameText) field.nameText object)
      else nested root
    | .ok none, _ => nested root
where
  nested (root : Option String) : Except Fault PresenceTest :=
    match root with
    | none => .ok .plain
    | some _ =>
      (catalog.isJsonPath children).map fun json => if json then .jsonPath children else .plain

/-- How the presence of a value is tested. -/
def presenceTest (catalog : Catalog) (value : Tree) : Except Fault PresenceTest :=
  match value.unwrap? .memberDot with
  | none => .ok .plain
  | some (object :: field :: rest) =>
    presenceOfSelection catalog object field (object :: field :: rest)
  | some [object] =>
    match object.root? with
    | .error fault => .error fault
    | .ok _ => .error .missingChild
  | some [] => .error .missingChild

/-- The test that a value is present. -/
def presence : List Tree → Fragment
  | [value] =>
    .attempt (presenceTest context.catalog value) fun test =>
      match test with
      | .jsonField binary field base => context.dialect.jsonExists binary field (child base)
      | .jsonPath children => jsonPath context child children ++ " IS NOT NULL"
      | .plain => child value ++ " IS NOT NULL"
  | _ => .fail (.requires "has" .exactlyOne)

/-! ## Casts and times -/

/-- A cast to a type. Timestamps become integers by their seconds. -/
def typeCast (type : String) : List Tree → Fragment
  | [value] =>
    if type = "int" then
      .attempt value.root? fun root =>
        if root.any fun name => value.isTimestamp name
          then context.dialect.epochSeconds (child value)
        else context.dialect.cast (child value) type
    else context.dialect.cast (child value) type
  | _ => .fail (.requires type .exactlyOne)

/-- A timestamp out of a value, or a value in a time zone. -/
def timestamp : List Tree → Fragment
  | [value] => context.dialect.castToTimestamp (child value)
  | [value, zone] => child value ++ " AT TIME ZONE " ++ child zone
  | _ => .fail (.requires "timestamp" .oneOrTwo)

/-- A duration out of a literal. -/
def durationCall : List Tree → Fragment
  | [value] =>
    match value.stringLiteral? with
    | some token =>
      .attempt (Duration.read token.stringValue) fun duration =>
        context.dialect.duration duration.value duration.unit.name
    | none => .fail (.requires "duration" .stringLiteral)
  | _ => .fail (.requires "duration" .exactlyOne)

/-- The unit of an interval: the text of a literal or a name. -/
def intervalUnit (unit : Tree) : Except Fault String :=
  match unit.givenLiteral? with
  | some token => .ok token.text
  | none =>
    match unit.unwrap? .ident with
    | some (name :: _) => .ok name.nameText
    | some [] => .error .missingChild
    | none => .error (.requires "interval" .unitName)

/-- A computed duration. -/
def intervalCall : List Tree → Fragment
  | [value, unit] => .attempt (intervalUnit unit) (context.dialect.interval (child value))
  | _ => .fail (.requires "interval" .exactlyTwo)

/-- A function without special handling: its name in upper case and its arguments. -/
def plainCall (function : String) (arguments : List Tree) : Fragment :=
  Text.upper function ++ "(" ++ expressions child arguments ++ ")"

/-! ## Calls -/

/-- The call of a function by its name. -/
def callFunction (function : String) (arguments : List Tree) : Fragment :=
  match function, arguments with
  | "has", _ => presence context child arguments
  | "size", [value] => sizeOfValue context child value
  | "size", _ => .empty
  | "matches", [subject, pattern] =>
    match pattern.stringLiteral? with
    | some token => matchTest context child subject token
    | none => .fail (.requires "matches" .literalPattern)
  | "bool", _ | "bytes", _ | "double", _ | "int", _ | "uint", _ | "string", _ =>
    typeCast context child function arguments
  | "timestamp", _ => timestamp context child arguments
  | "duration", _ => durationCall context arguments
  | "interval", _ => intervalCall context child arguments
  | _, _ => plainCall child function arguments

/-- The call of a function. -/
def functionCall : List Tree → Fragment
  | function :: rest => .attempt (argumentsOf rest) (callFunction context child function.nameText)
  | [] => .fail .missingChild

/-- The call of a function with a leading dot, which is written as it stands. -/
def dottedCall : List Tree → Fragment
  | function :: rest =>
    ("." ++ function.nameText ++ "(" : String) ++
      .attempt (argumentsOf rest) (expressions child) ++ ")"
  | [] => .fail .missingChild

end CelWhere.Convert
