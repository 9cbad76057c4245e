import CelWhere.Cel.Tree
import CelWhere.Number.Integer

/-! # Causes of failure

A `Fault` is a cause for which a conversion, a check or an introspection fails. Its message is meant
for the user; the internal text, which conversion errors have besides, says more and is meant for a
log. -/

namespace CelWhere

/-- The kinds of conversion errors. -/
inductive ErrorKind
  /-- Any conversion error. -/
  | conversion
  /-- An expression of a form that has no SQL. -/
  | unsupportedExpression
  /-- A name that cannot be a column, or a text with a null byte. -/
  | invalidFieldName
  /-- A table or field that the schemas do not have. -/
  | invalidSchema
  /-- A refused regular expression. -/
  | invalidRegexPattern
  /-- An expression nested too deeply. -/
  | maxDepthExceeded
  /-- An SQL text that grew too long. -/
  | maxOutputLengthExceeded
  /-- A malformed comprehension. -/
  | invalidComprehension
  /-- Comprehensions nested too deeply. -/
  | maxComprehensionDepthExceeded
  /-- Arguments that a call cannot take. -/
  | invalidArguments
  /-- An operation that SQL cannot express. -/
  | unsupportedOperation
  /-- A malformed operation on timestamps. -/
  | invalidTimestampOperation
  /-- A malformed duration. -/
  | invalidDuration
  /-- A malformed path into a JSON value. -/
  | invalidJsonPath
  /-- A malformed operator. -/
  | invalidOperator
  /-- A type without an SQL type. -/
  | unsupportedType
  /-- A bytes literal that is too long to write. -/
  | invalidByteArrayLength
  /-- A construct that the dialect lacks. -/
  | unsupportedDialectFeature
  /-- A schema that could not be read from a database. -/
  | introspection
  deriving DecidableEq, Repr

namespace ErrorKind

/-- All kinds of conversion errors. -/
def all : List ErrorKind :=
  [.conversion, .unsupportedExpression, .invalidFieldName, .invalidSchema, .invalidRegexPattern,
    .maxDepthExceeded, .maxOutputLengthExceeded, .invalidComprehension,
    .maxComprehensionDepthExceeded, .invalidArguments, .unsupportedOperation,
    .invalidTimestampOperation, .invalidDuration, .invalidJsonPath, .invalidOperator,
    .unsupportedType, .invalidByteArrayLength, .unsupportedDialectFeature, .introspection]

/-- The name of a kind. -/
def name : ErrorKind → String
  | .conversion => "ConversionError"
  | .unsupportedExpression => "UnsupportedExpressionError"
  | .invalidFieldName => "InvalidFieldNameError"
  | .invalidSchema => "InvalidSchemaError"
  | .invalidRegexPattern => "InvalidRegexPatternError"
  | .maxDepthExceeded => "MaxDepthExceededError"
  | .maxOutputLengthExceeded => "MaxOutputLengthExceededError"
  | .invalidComprehension => "InvalidComprehensionError"
  | .maxComprehensionDepthExceeded => "MaxComprehensionDepthExceededError"
  | .invalidArguments => "InvalidArgumentsError"
  | .unsupportedOperation => "UnsupportedOperationError"
  | .invalidTimestampOperation => "InvalidTimestampOperationError"
  | .invalidDuration => "InvalidDurationError"
  | .invalidJsonPath => "InvalidJSONPathError"
  | .invalidOperator => "InvalidOperatorError"
  | .unsupportedType => "UnsupportedTypeError"
  | .invalidByteArrayLength => "InvalidByteArrayLengthError"
  | .unsupportedDialectFeature => "UnsupportedDialectFeatureError"
  | .introspection => "IntrospectionError"

/-- The kind of a name. -/
def ofName? (name : String) : Option ErrorKind :=
  all.find? (·.name = name)

/-- The kinds that a kind falls under, itself first and the most general last. -/
def lineage (kind : ErrorKind) : List ErrorKind :=
  if kind = .conversion then [.conversion] else [kind, .conversion]

end ErrorKind

/-- What a call needs of its arguments. -/
inductive Requirement
  /-- One argument. -/
  | exactlyOne
  /-- Two arguments. -/
  | exactlyTwo
  /-- One or two arguments. -/
  | oneOrTwo
  /-- Two or three arguments. -/
  | twoOrThree
  /-- At most one argument. -/
  | atMostOne
  /-- One argument or more. -/
  | atLeastOne
  /-- One argument, the list of values to format. -/
  | argumentList
  /-- A string literal as argument. -/
  | stringLiteral
  /-- A string literal as pattern. -/
  | literalPattern
  /-- A string literal as format. -/
  | literalFormat
  /-- A name as unit. -/
  | unitName
  deriving DecidableEq, Repr

/-- The wording of a requirement. -/
def Requirement.text : Requirement → String
  | .exactlyOne => "exactly 1 argument"
  | .exactlyTwo => "exactly 2 arguments"
  | .oneOrTwo => "1 or 2 arguments"
  | .twoOrThree => "2 or 3 arguments"
  | .atMostOne => "0 or 1 arguments"
  | .atLeastOne => "at least 1 argument"
  | .argumentList => "exactly 1 argument (the arg list)"
  | .stringLiteral => "a string literal argument"
  | .literalPattern => "a string literal pattern"
  | .literalFormat => "a string literal format"
  | .unitName => "a unit identifier"

/-- What SQLite has no construct for. -/
inductive SqliteGap
  /-- Matching regular expressions. -/
  | regex
  /-- Splitting a string. -/
  | split
  /-- Joining strings. -/
  | join
  deriving DecidableEq, Repr

/-- Why a regular expression is refused. -/
inductive RegexFault
  /-- The pattern has more characters than the limit. -/
  | tooLong (length : Nat)
  /-- The pattern looks ahead or behind. -/
  | lookaround (pattern : String)
  /-- The pattern names a group. -/
  | namedCapture (pattern : String)
  /-- The pattern sets flags inside. -/
  | inlineFlag (pattern : String)
  /-- The pattern repeats a group that ends in a repetition. -/
  | nestedQuantifier (pattern : String)
  /-- The groups are nested more deeply than the limit. -/
  | tooDeep (depth : Nat)
  /-- The pattern has more groups than the limit. -/
  | tooManyGroups (count : Nat)
  deriving DecidableEq, Repr

/-- The databases whose catalogs are queried for columns. -/
inductive ColumnSource
  /-- The named schema of a PostgreSQL database, or none. -/
  | schema (name : Option String)
  /-- A MySQL database. -/
  | mysql
  /-- A DuckDB database. -/
  | duckdb
  deriving DecidableEq, Repr

/-- Why the schema of a table could not be read. -/
inductive IntrospectionFault
  /-- No column of the table was found. -/
  | notFound (table : String) (source : ColumnSource)
  /-- The column listing of the table is empty. -/
  | noColumns (table : String)
  /-- The table name is not one that may stand in a query. -/
  | invalidTable (table : String)
  /-- The table name names no dataset and there is no default one. -/
  | noDataset (table : String)
  /-- Looking up the table by its reference failed for the given reason. -/
  | lookup (table reference reason : String)
  deriving DecidableEq, Repr

/-- The causes of failure. -/
inductive Fault
  /-- A rule has a number of children that it cannot have. -/
  | malformed (rule : Rule) (children : Nat)
  /-- A binary rule has a token where its left operand should be. -/
  | operatorToken (rule : Rule)
  /-- A binary rule has a left operand of a rule that is none of its operators. -/
  | unknownOperator (rule : Rule) (name : String)
  /-- A literal has a child that is not a token. -/
  | literalShape
  /-- A literal has a token of a kind that is no literal. -/
  | literalKind (name : String)
  /-- An object is constructed. -/
  | objectConstruction
  /-- A method of this name does not exist. -/
  | unknownMethod (name : String)
  /-- A tree lacks a child that its rule needs. -/
  | missingChild
  /-- A token stands where a list of arguments should be. -/
  | missingArguments
  /-- The arguments of a call do not meet its requirement. -/
  | requires (call : String) (requirement : Requirement)
  /-- The limit of a split is not an integer literal. -/
  | splitLimitNotLiteral
  /-- A name was expected and another tree of the given rule found. -/
  | expectedName (rule : Rule)
  /-- A name was expected and another token found. -/
  | expectedNameToken
  /-- An element is selected by a negative number. -/
  | negativeIndex (index : Int)
  /-- An element is selected by too large a number. -/
  | indexOverflow (index : Int)
  /-- A replacement is limited. -/
  | replaceLimit (limit : Int)
  /-- A split has a negative limit that does not mean "unlimited". -/
  | splitLimit (limit : Int)
  /-- A format has a placeholder that SQL does not know. -/
  | formatSpecifier (specifier : Char)
  /-- SQLite lacks a construct. -/
  | sqliteLacks (gap : SqliteGap)
  /-- A name is empty. -/
  | emptyName
  /-- A name has more characters than the limit. -/
  | longName (name : String) (limit : Nat)
  /-- A name has characters that names cannot have. -/
  | invalidName (name : String)
  /-- A name is reserved by the given language. -/
  | reservedName (name language : String)
  /-- A text used as described has a null byte. -/
  | nullByte (usage text : String)
  /-- A regular expression is refused. -/
  | regex (cause : RegexFault)
  /-- Validation is asked for without any schema. -/
  | noSchemas
  /-- A table is in no schema. -/
  | unknownTable (table : String)
  /-- A field is not in the schema of its table. -/
  | unknownField (table field : String)
  /-- A duration does not denote a time. -/
  | invalidDuration (text : String)
  /-- A bytes literal is too long to write. -/
  | bytesTooLong (length : Nat)
  /-- The depth of an expression exceeds its limit. -/
  | depthExceeded (depth : Nat) (limit : Int)
  /-- The length of the SQL text exceeds its limit. -/
  | lengthExceeded (limit : Int)
  /-- Comprehensions are nested too deeply. -/
  | comprehensionDepthExceeded (depth : Nat)
  /-- An integer text cannot be read. -/
  | unreadableInteger (radix : Radix) (text : String) (failure : IntegerFailure)
  /-- An integer has too many digits to be written. -/
  | unwritableInteger
  /-- A text is not that of a double. -/
  | unreadableFloat (text : String)
  /-- An integer is too large for a double. -/
  | floatOverflow
  /-- A dialect of this name does not exist. -/
  | unknownDialect (name : String)
  /-- A pattern type of this name does not exist. -/
  | unknownPatternType (name : String)
  /-- An index type of this name does not exist. -/
  | unknownIndexType (name : String)
  /-- The schema of a table could not be read. -/
  | introspection (cause : IntrospectionFault)
  /-- An introspection is given an option that it does not take. -/
  | unexpectedOption
  /-- A database of this kind cannot be introspected. -/
  | noIntrospection
  /-- The connection to a database failed. -/
  | connectionFailed
  deriving DecidableEq, Repr

/-- What a fault is to the caller. -/
inductive FaultClass
  /-- A conversion error of a kind. -/
  | refused (kind : ErrorKind)
  /-- A text that does not denote a value. -/
  | badValue
  /-- A number outside the range of a format. -/
  | overflow
  /-- A part that is not there. -/
  | missingPart
  /-- A part that is not of the needed sort. -/
  | wrongPart
  /-- A call with an option too many. -/
  | badCall
  /-- A failure of the other side of a connection. -/
  | external
  deriving DecidableEq, Repr

namespace Fault

/-- The class of a fault. -/
def faultClass : Fault → FaultClass
  | .malformed .. | .operatorToken .. | .unknownOperator .. | .literalShape | .literalKind ..
  | .objectConstruction | .unknownMethod .. => .refused .unsupportedExpression
  | .missingChild => .missingPart
  | .missingArguments | .noIntrospection => .wrongPart
  | .requires .. | .splitLimitNotLiteral | .expectedName .. | .expectedNameToken | .negativeIndex ..
  | .indexOverflow .. => .refused .invalidArguments
  | .replaceLimit .. | .splitLimit .. | .formatSpecifier .. => .refused .unsupportedOperation
  | .sqliteLacks .. => .refused .unsupportedDialectFeature
  | .emptyName | .longName .. | .invalidName .. | .reservedName .. | .nullByte .. =>
    .refused .invalidFieldName
  | .regex .. => .refused .invalidRegexPattern
  | .noSchemas | .unknownTable .. | .unknownField .. => .refused .invalidSchema
  | .invalidDuration .. => .refused .invalidDuration
  | .bytesTooLong .. => .refused .invalidByteArrayLength
  | .depthExceeded .. => .refused .maxDepthExceeded
  | .lengthExceeded .. => .refused .maxOutputLengthExceeded
  | .comprehensionDepthExceeded .. => .refused .maxComprehensionDepthExceeded
  | .unreadableInteger .. | .unwritableInteger | .unreadableFloat .. | .unknownDialect ..
  | .unknownPatternType .. | .unknownIndexType .. => .badValue
  | .floatOverflow => .overflow
  | .introspection .. => .refused .introspection
  | .unexpectedOption => .badCall
  | .connectionFailed => .external

/-- Whether a fault is a conversion error. -/
def isConversionError (fault : Fault) : Bool :=
  match fault.faultClass with
  | .refused _ => true
  | _ => false

end Fault

end CelWhere
