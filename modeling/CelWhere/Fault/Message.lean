import CelWhere.Fault
import CelWhere.Limits

/-! # Wording of faults

Every fault has a message. A conversion error also has an internal text, which is its message where
there is nothing to add. -/

namespace CelWhere

open Integer (toText)

/-- The decimal text of a natural number. -/
def natText (value : Nat) : String :=
  toText value

/-- The rule that a table name must follow to stand in a query. -/
def tableNamePattern : String := "^[a-zA-Z_][a-zA-Z0-9_]*$"

/-- The message and the internal text of a refused regular expression. -/
def RegexFault.texts : RegexFault → String × String
  | .tooLong length =>
    ("regex pattern too long",
      "pattern length " ++ natText length ++ " exceeds limit " ++ natText Regex.lengthLimit)
  | .lookaround pattern =>
    ("lookahead/lookbehind not supported", "pattern contains lookahead/lookbehind: " ++ pattern)
  | .namedCapture pattern =>
    ("named captures not supported", "pattern contains named captures: " ++ pattern)
  | .inlineFlag pattern =>
    ("inline flags not supported", "pattern contains inline flags: " ++ pattern)
  | .nestedQuantifier pattern =>
    ("potential ReDoS: nested quantifiers detected", "pattern has nested quantifiers: " ++ pattern)
  | .tooDeep depth =>
    ("regex nesting too deep",
      "pattern nesting depth " ++ natText depth ++ " exceeds limit " ++ natText Regex.nestingLimit)
  | .tooManyGroups groups =>
    ("too many regex groups",
      "pattern has " ++ natText groups ++ " groups, limit is " ++ natText Regex.groupLimit)

/-- Where a table was looked for in vain. -/
def ColumnSource.describe : ColumnSource → String
  | .schema (some name) => "in schema " ++ Text.quoted name
  | .schema none => "in schema None"
  | .mysql => "in MySQL database"
  | .duckdb => "in DuckDB"

/-- The message and the internal text of a failed introspection. -/
def IntrospectionFault.texts : IntrospectionFault → String × String
  | .notFound table source =>
    ("table not found: " ++ Text.quoted table,
      "table " ++ Text.quoted table ++ " not found " ++ source.describe)
  | .noColumns table =>
    ("table not found: " ++ Text.quoted table,
      "PRAGMA table_info(" ++ Text.quoted table ++ ") returned no rows")
  | .invalidTable table =>
    ("invalid table name: " ++ Text.quoted table,
      "table name " ++ Text.quoted table ++ " does not match pattern " ++ tableNamePattern)
  | .noDataset table =>
    ("dataset required for unqualified table name: " ++ Text.quoted table,
      "table " ++ Text.quoted table ++ " has no dataset prefix and no default dataset was provided")
  | .lookup table reference reason =>
    ("table not found: " ++ Text.quoted table,
      "get_table(" ++ Text.quoted reference ++ ") failed: " ++ reason)

/-- The message and the internal text of a missing construct of SQLite. -/
def SqliteGap.texts : SqliteGap → String × String
  | .regex =>
    ("regex not supported by SQLite dialect", "SQLite does not have built-in regex support")
  | .split =>
    ("split not supported by SQLite dialect", "SQLite does not have a native string split function")
  | .join =>
    ("join not supported by SQLite dialect", "SQLite does not have a native array join function")

/-- The message of a rule with a wrong number of children. -/
def malformedMessage : Rule → String
  | .expr => "unsupported expression structure"
  | .conditionalOr => "unsupported OR expression"
  | .conditionalAnd => "unsupported AND expression"
  | rule => "unsupported " ++ rule.name ++ " expression"

/-- The internal text of a rule with a wrong number of children. -/
def malformedDetails (rule : Rule) (children : Nat) : String :=
  match rule with
  | .expr => "expr node has " ++ natText children ++ " children"
  | rule => rule.name ++ " has " ++ natText children ++ " children"

/-- The message of an unreadable integer text, which is shown up to 200 characters. -/
def integerMessage (radix : Radix) (text : String) : IntegerFailure → String
  | .malformed =>
    "invalid literal for int() with base " ++ natText radix.label ++ ": " ++
      String.ofList ((Text.quotedChars text.toList).take 200)
  | .tooLong digits =>
    "Exceeds the limit (" ++ natText Integer.digitLimit ++
      " digits) for integer string conversion: value has " ++
      natText digits ++ " digits; use sys.set_int_max_str_digits() to increase the limit"

namespace Fault

/-- A message that is its own internal text. -/
def both (message : String) : String × String :=
  (message, message)

/-- The message and the internal text of a fault. -/
def texts : Fault → String × String
  | .malformed rule children => (malformedMessage rule, malformedDetails rule children)
  | .operatorToken rule =>
    let message := "unsupported " ++ rule.name ++ " operator"
    (message, if rule = .relation then "expected Tree, got <class 'lark.lexer.Token'>" else message)
  | .unknownOperator rule name =>
    (if rule = .relation then "unsupported comparison operator"
      else "unsupported " ++ rule.name ++ " operator", "unknown " ++ rule.name ++
      " operator: " ++ name)
  | .literalShape => both "unexpected literal structure"
  | .literalKind name => ("unsupported literal type", "unknown token type: " ++ name)
  | .objectConstruction => both "object construction not supported in SQL conversion"
  | .unknownMethod name => ("unsupported method call", "unknown method: " ++ name)
  | .missingChild => both ""
  | .missingArguments => both ""
  | .requires call requirement => both (call ++ "() requires " ++ requirement.text)
  | .splitLimitNotLiteral => both "split() limit must be an integer literal"
  | .expectedName rule => ("expected identifier", "cannot extract identifier from " ++ rule.name)
  | .expectedNameToken => ("expected identifier", "cannot extract identifier from node")
  | .negativeIndex index =>
    ("negative array index not supported", "array index " ++ toText index ++ " is negative")
  | .indexOverflow index =>
    ("array index overflow", "array index " ++ toText index ++ " is too large")
  | .replaceLimit limit =>
    ("replace() with limit != -1 is not supported",
      "replace() limit=" ++ toText limit ++ " not supported in SQL")
  | .splitLimit limit =>
    ("split() with negative limit other than -1 is not supported",
      "split() limit=" ++ toText limit ++ " not supported")
  | .formatSpecifier specifier =>
    ("unsupported format specifier %" ++ specifier.toString,
      "format specifier %" ++ specifier.toString ++ " cannot be converted to SQL")
  | .sqliteLacks gap => gap.texts
  | .emptyName => ("field name cannot be empty", "empty field name provided")
  | .longName name limit =>
    ("field name too long", "field name '" ++ name ++ "' exceeds " ++ natText limit ++
      " characters")
  | .invalidName name =>
    ("invalid field name format", "field name '" ++ name ++ "' contains invalid characters")
  | .reservedName name language =>
    ("field name is a reserved SQL keyword",
      "field name '" ++ name ++ "' is a reserved " ++ language ++ " keyword")
  | .nullByte usage text =>
    (usage ++ " cannot contain null bytes", "null byte found in " ++ usage ++ ": " ++
      Text.quoted text)
  | .regex cause => cause.texts
  | .noSchemas =>
    ("field not found in schema",
      "validate_schema=True requires at least one schema to be provided")
  | .unknownTable table =>
    ("field not found in schema", "table '" ++ table ++ "' not found in schemas")
  | .unknownField table field =>
    ("field not found in schema", "field '" ++ field ++ "' not found in schema for '" ++ table ++
      "'")
  | .invalidDuration text => ("invalid duration value", "cannot parse duration: " ++ text)
  | .bytesTooLong length =>
    ("byte array too long",
      "byte array length " ++ natText length ++ " exceeds limit " ++ natText bytesLimit)
  | .depthExceeded depth limit =>
    ("maximum recursion depth exceeded", "depth " ++ natText depth ++
      " exceeds limit " ++ toText limit)
  | .lengthExceeded limit =>
    ("maximum SQL output length exceeded", "output length exceeds limit " ++ toText limit)
  | .comprehensionDepthExceeded depth =>
    ("comprehension nesting depth exceeded",
      "depth " ++ natText depth ++ " exceeds limit " ++ natText comprehensionLimit)
  | .unreadableInteger radix text failure => both (integerMessage radix text failure)
  | .unwritableInteger =>
    both ("Exceeds the limit (" ++ natText Integer.digitLimit ++
      " digits) for integer string conversion; use sys.set_int_max_str_digits() to increase the limit")
  | .unreadableFloat text => both ("could not convert string to float: " ++ Text.quoted text)
  | .floatOverflow => both "int too large to convert to float"
  | .unknownDialect name =>
    both ("unknown dialect: " ++ Text.quoted name ++
      ". Available: bigquery, duckdb, mysql, postgresql, sqlite")
  | .unknownPatternType name => both (Text.quoted name ++ " is not a valid PatternType")
  | .unknownIndexType name => both (Text.quoted name ++ " is not a valid IndexType")
  | .introspection cause => cause.texts
  | .unexpectedOption => both ""
  | .noIntrospection => both ""
  | .connectionFailed => both ""

/-- The message of a fault, for the user. -/
def message (fault : Fault) : String :=
  fault.texts.1

/-- The internal text of a fault, for a log. -/
def internal (fault : Fault) : String :=
  fault.texts.2

end Fault

/-- A conversion error with texts of its own. -/
structure ErrorReport where
  /-- The kind of the error. -/
  kind : ErrorKind
  /-- The message for the user. -/
  message : String
  /-- Further details, perhaps none. -/
  details : String := ""
  deriving DecidableEq, Repr

/-- The internal text of a report: its details, or its message where there are none. -/
def ErrorReport.internal (report : ErrorReport) : String :=
  if report.details = "" then report.message else report.details

end CelWhere
