import CelWhere.Convert.Member
import CelWhere.Sql.Like
import CelWhere.Sql.Regex
import CelWhere.Sql.StringFunction
import CelWhere.Sql.Time

/-! # Methods -/

namespace CelWhere.Convert

variable (context : Context) (child : Tree → Fragment)

/-! ## Comprehensions -/

/-- The elements of an array as rows under the name of a variable. -/
def rowsAs (source : Tree) (iterator : String) : Fragment :=
  context.dialect.unnest (child source) ++ (" AS " ++ iterator : String)

/-- A test of the elements by a condition, with the texts around the rows and the condition. -/
def quantified (method opening middle closing : String) (source : Tree) : List Tree → Fragment
  | [iterator, condition] =>
    .attempt iterator.identName fun iterator =>
      .binding iterator <|
        opening ++ rowsAs context child source iterator ++ middle ++ child condition ++ closing
  | _ => .fail (.requires method .exactlyTwo)

/-- The test that a condition holds for all elements. -/
def forAll : Tree → List Tree → Fragment :=
  quantified context child "all" "NOT EXISTS (SELECT 1 FROM " " WHERE NOT (" "))"

/-- The test that a condition holds for some element. -/
def forSome : Tree → List Tree → Fragment :=
  quantified context child "exists" "EXISTS (SELECT 1 FROM " " WHERE " ")"

/-- The test that a condition holds for exactly one element. -/
def forOne : Tree → List Tree → Fragment :=
  quantified context child "exists_one" "(SELECT COUNT(*) FROM " " WHERE " ") = 1"

/-- The subquery that collects a value for the elements of an array. -/
def collect (value : Fragment) (source : Tree) (iterator : String) : Fragment :=
  context.dialect.collectOpen ++ value ++ context.dialect.collectClose ++ " FROM " ++
    rowsAs context child source iterator

/-- The array of the values of an expression for all elements, or for those that meet a
condition. -/
def mapped (source : Tree) : List Tree → Fragment
  | [iterator, value] =>
    .attempt iterator.identName fun iterator =>
      .binding iterator (collect context child (child value) source iterator ++ ")")
  | [iterator, condition, value] =>
    .attempt iterator.identName fun iterator =>
      .binding iterator <|
        collect context child (child value) source iterator ++ " WHERE " ++ child condition ++ ")"
  | _ => .fail (.requires "map" .exactlyTwo)

/-- The array of the elements that meet a condition. -/
def filtered (source : Tree) : List Tree → Fragment
  | [iterator, condition] =>
    .attempt iterator.identName fun iterator =>
      .binding iterator <|
        collect context child iterator source iterator ++ " WHERE " ++ child condition ++ ")"
  | _ => .fail (.requires "filter" .exactlyTwo)

/-! ## Strings -/

/-- The test that a string contains another. -/
def containsTest (object : Tree) : List Tree → Fragment
  | [part] =>
    let test := context.dialect.contains (child object) (child part)
    match part.stringLiteral? with
    | some token => withoutNull "string literals" token.stringValue test
    | none => test
  | _ => .fail (.requires "contains" .exactlyOne)

/-- A test of a string against a literal at one of its ends. -/
def affixTest (method : String) (test : Fragment → String → Fragment) (object : Tree) : List Tree →
    Fragment
  | [part] =>
    match part.stringLiteral? with
    | some token =>
      withoutNull "LIKE patterns" token.stringValue (test (child object) token.stringValue)
    | none => .fail (.requires method .stringLiteral)
  | _ => .fail (.requires method .exactlyOne)

/-- The test that a string starts with a literal. -/
def startsTest : Tree → List Tree → Fragment :=
  affixTest child "startsWith" context.dialect.startsWith

/-- The test that a string ends with a literal. -/
def endsTest : Tree → List Tree → Fragment :=
  affixTest child "endsWith" context.dialect.endsWith

/-- The test that a string matches a literal pattern. -/
def matchTest (object : Tree) (token : Token) : Fragment :=
  .attempt (context.dialect.convertRegex token.stringValue) fun converted =>
    context.dialect.regexMatch (child object) (String.ofList converted.pattern)
      converted.caseInsensitive

/-- The test that a string matches a pattern, called as a method. -/
def matchesMethod (object : Tree) : List Tree → Fragment
  | [pattern] =>
    match pattern.stringLiteral? with
    | some token => matchTest context child object token
    | none => .fail (.requires "matches" .stringLiteral)
  | _ => .fail (.requires "matches" .exactlyOne)

/-- The size of an array or a string. -/
def sizeOfValue (object : Tree) : Fragment :=
  .attempt (context.catalog.isArrayValue object) fun isArray =>
    if isArray then context.dialect.arrayLength 1 (child object)
      else applied "LENGTH" (child object)

/-- A position that counts from one: a literal plus one, or an expression with one added. -/
def positionFromOne (index : Tree) : Fragment :=
  match index.intLiteral? with
  | some token => .attempt (readInteger .decimal token.text) fun value => .number "" (value + 1) ""
  | none => child index ++ " + 1"

/-- The character at a position. -/
def charAt (object : Tree) : List Tree → Fragment
  | [index] => "SUBSTRING(" ++ child object ++ ", " ++ positionFromOne child index ++ ", 1)"
  | _ => .fail (.requires "charAt" .exactlyOne)

/-- The position of a string in another. -/
def indexOfCall (object : Tree) : List Tree → Fragment
  | [part] => indexOf (child object) (child part)
  | [part, offset] =>
    match offset.intLiteral? with
    | some token =>
      .attempt (readInteger .decimal token.text) fun value => indexOfFrom (child object)
        (child part) value
    | none => indexOfFromExpr (child object) (child part) (child offset)
  | _ => .fail (.requires "indexOf" .oneOrTwo)

/-- The last position of a string in another. -/
def lastIndexOfCall (object : Tree) : List Tree → Fragment
  | part :: _ => lastIndexOf (child object) (child part)
  | [] => .fail (.requires "lastIndexOf" .atLeastOne)

/-- The position and length of the characters between two positions. -/
def substringRange (start finish : Tree) : Fragment :=
  match start.intLiteral? with
  | some startToken =>
    .attempt (readInteger .decimal startToken.text) fun first =>
      .number "" (first + 1) "" ++ ", " ++
        match finish.intLiteral? with
        | some finishToken =>
          .attempt (readInteger .decimal finishToken.text) fun last => .number "" (last - first) ""
        | none => child finish ++ .number " - (" first ")"
  | none =>
    let first := child start
    first ++ " + 1, " ++ child finish ++ " - (" ++ first ++ ")"

/-- The characters from a position on, or between two positions. -/
def substring (object : Tree) : List Tree → Fragment
  | [start] => "SUBSTRING(" ++ child object ++ ", " ++ positionFromOne child start ++ ")"
  | [start, finish] =>
    "SUBSTRING(" ++ child object ++ ", " ++ substringRange child start finish ++ ")"
  | _ => .fail (.requires "substring" .oneOrTwo)

/-- A string with a part replaced everywhere. -/
def replaced (object part replacement : Tree) : Fragment :=
  "REPLACE(" ++ child object ++ ", " ++ child part ++ ", " ++ child replacement ++ ")"

/-- A replacement, which must not be limited. -/
def replacement (object : Tree) : List Tree → Fragment
  | [part, substitute] => replaced child object part substitute
  | [part, substitute, limit] =>
    match limit.intLiteral? with
    | some token =>
      .attempt (readInteger .decimal token.text) fun value =>
        if value = -1 then replaced child object part substitute else .fail (.replaceLimit value)
    | none => replaced child object part substitute
  | _ => .fail (.requires "replace" .twoOrThree)

/-- The parts of a string up to a limit: -1 for all parts, zero for none, one for the string
itself. -/
def splitUpTo (object delimiter : Tree) (limit : Int) : Fragment :=
  if limit = -1 then context.dialect.split (child object) (child delimiter)
  else if limit = 0 then .text (context.dialect.emptyArray "text")
  else if limit = 1 then context.dialect.arrayOpen ++ child object ++ context.dialect.arrayClose
  else if limit < -1 then .fail (.splitLimit limit)
  else context.dialect.splitLimited (child object) (child delimiter) limit

/-- The parts of a string. -/
def splitCall (object : Tree) : List Tree → Fragment
  | [delimiter] => context.dialect.split (child object) (child delimiter)
  | [delimiter, limit] =>
    match limit.intLiteral? with
    | some token =>
      .attempt (readInteger .decimal token.text) (splitUpTo context child object delimiter)
    | none => .fail .splitLimitNotLiteral
  | _ => .fail (.requires "split" .oneOrTwo)

/-- The strings of an array put together. -/
def joinCall (object : Tree) : List Tree → Fragment
  | [] => context.dialect.joinStrings (child object) (context.dialect.stringLiteral "")
  | [delimiter] => context.dialect.joinStrings (child object) (child delimiter)
  | _ => .fail (.requires "join" .atMostOne)

/-! ## Formats -/

/-- The letters that may stand behind a percent sign of a format. -/
def formatLetters : List Char := ['s', 'd', 'f', 'o', 'e', 'E', 'g', 'G']

/-- The first letter behind a percent sign that is no placeholder. -/
def unsupportedSpecifier? : List Char → Option Char
  | '%' :: letter :: rest =>
    if letter.isAlpha && !formatLetters.contains letter then some letter
    else unsupportedSpecifier? (letter :: rest)
  | _ :: rest => unsupportedSpecifier? rest
  | [] => none

/-- A format in which every placeholder is that of a string. -/
def plainFormat : List Char → List Char
  | '%' :: letter :: rest =>
    if ['d', 'f', 'o', 'F', 'e', 'E', 'g', 'G'].contains letter then '%' :: 's' :: plainFormat rest
    else '%' :: plainFormat (letter :: rest)
  | head :: rest => head :: plainFormat rest
  | [] => []

/-- The arguments of a format, each behind a comma. -/
def formatArguments : List Tree → Fragment
  | [] => .empty
  | argument :: rest => ", " ++ child argument ++ formatArguments rest

/-- A formatted string. -/
def formatCall (object : Tree) : List Tree → Fragment
  | [list] =>
    match object.stringLiteral? with
    | some token =>
      let format := token.stringValue.toList
      match unsupportedSpecifier? format with
      | some specifier => .fail (.formatSpecifier specifier)
      | none =>
        let arguments :=
          match list.unwrap? .listLit with
          | some (.node .exprList items :: _) => formatArguments child items
          | _ => .empty
        "FORMAT(" ++ context.dialect.stringLiteral (String.ofList (plainFormat format)) ++
          arguments ++ ")"
    | none => .fail (.requires "format" .literalFormat)
  | _ => .fail (.requires "format" .argumentList)

/-! ## Times -/

/-- The part of a timestamp that a method asks for, and whether it counts from zero where SQL counts
from one. -/
def timestampPart? : String → Option (String × Bool)
  | "getFullYear" => some ("YEAR", false)
  | "getMonth" => some ("MONTH", true)
  | "getDate" => some ("DAY", false)
  | "getDayOfMonth" => some ("DAY", true)
  | "getHours" => some ("HOUR", false)
  | "getMinutes" => some ("MINUTE", false)
  | "getSeconds" => some ("SECOND", false)
  | "getMilliseconds" => some ("MILLISECONDS", false)
  | "getDayOfYear" => some ("DOY", true)
  | "getDayOfWeek" => some ("DOW", false)
  | _ => none

/-- A part of a timestamp, in the time zone of the first argument. -/
def timestampPart (object : Tree) (part : String) (fromZero : Bool) (arguments : List Tree) :
    Fragment :=
  let value := context.dialect.extract part (child object) (arguments.head?.map child)
  if fromZero then value ++ " - 1" else value

/-! ## Calls -/

/-- The call of a method by its name. -/
def callMethod (object : Tree) (method : String) (arguments : List Tree) : Fragment :=
  match method with
  | "all" => .comprehension (forAll context child object arguments)
  | "exists" => .comprehension (forSome context child object arguments)
  | "exists_one" => .comprehension (forOne context child object arguments)
  | "map" => .comprehension (mapped context child object arguments)
  | "filter" => .comprehension (filtered context child object arguments)
  | "contains" => containsTest context child object arguments
  | "startsWith" => startsTest context child object arguments
  | "endsWith" => endsTest context child object arguments
  | "matches" => matchesMethod context child object arguments
  | "size" => sizeOfValue context child object
  | "lowerAscii" => applied "LOWER" (child object)
  | "upperAscii" => applied "UPPER" (child object)
  | "trim" => applied "TRIM" (child object)
  | "charAt" => charAt child object arguments
  | "indexOf" => indexOfCall child object arguments
  | "lastIndexOf" => lastIndexOfCall child object arguments
  | "substring" => substring child object arguments
  | "replace" => replacement child object arguments
  | "reverse" => applied "REVERSE" (child object)
  | "split" => splitCall context child object arguments
  | "join" => joinCall context child object arguments
  | "format" => formatCall context child object arguments
  | _ =>
    match timestampPart? method with
    | some (part, fromZero) => timestampPart context child object part fromZero arguments
    | none => .fail (.unknownMethod method)

variable {context child} in
/-- The part of a timestamp, called by its method. -/
theorem callMethod_of_part {object : Tree} {method part : String} {fromZero : Bool}
    {arguments : List Tree} (found : timestampPart? method = some (part, fromZero)) :
    callMethod context child object method arguments =
      timestampPart context child object part fromZero arguments := by
  unfold timestampPart? at found
  split at found <;> cases found <;> rfl

/-- The call of a method. -/
def methodCall : List Tree → Fragment
  | object :: method :: rest =>
    .attempt (argumentsOf rest) (callMethod context child object method.nameText)
  | _ => .fail .missingChild

end CelWhere.Convert
