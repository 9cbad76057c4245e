import CelWhere.Workload.Conversions
import CelWhere.Workload.Texts

/-! # Workloads of single constructs -/

namespace CelWhere.Workload

/-- The constructs of a dialect, each at a fixed operand. -/
def constructs (dialect : Dialect) : List Fragment :=
  let operand : Fragment := "X"
  [.text (dialect.stringLiteral "it's a long 'quoted' string value"),
    .text (dialect.bytesLiteral ([0, 1, 2, 127] ++ (List.range 16).map fun place =>
      UInt8.ofNat (65 + place))),
    .text (dialect.placeholder 3), dialect.concat operand operand, .text dialect.likeEscape,
    dialect.membership operand operand, dialect.castToNumeric operand,
    .text (dialect.typeName "int"), .text (dialect.typeName "weirdtype"),
    dialect.epochSeconds operand, dialect.castToTimestamp operand, .text dialect.arrayOpen,
    .text dialect.arrayClose, dialect.arrayLength 1 operand, dialect.element operand operand,
    dialect.elementAt operand 2, .text (dialect.emptyArray "text"),
    dialect.jsonField operand "key_name" true, dialect.jsonField operand "key_name" false,
    dialect.jsonExists true "key_name" operand, dialect.jsonExists false "key_name" operand,
    dialect.jsonElements true true operand, dialect.jsonElements false false operand,
    dialect.jsonLength operand, dialect.jsonMembership "f" operand,
    dialect.nestedJsonMembership operand, dialect.duration 5 "HOUR", dialect.duration 5 "HOURS",
    dialect.duration 5 "MILLISECOND", dialect.duration 5 "MICROSECOND",
    dialect.duration 5 "NANOSECOND", dialect.interval operand "DAYS",
    dialect.extract "YEAR" operand none, dialect.extract "DOW" operand (some operand),
    dialect.extract "UNKNOWN" operand none, dialect.timestampArithmetic "+" operand operand,
    dialect.timestampArithmetic "-" operand operand, dialect.contains operand operand,
    dialect.split operand operand, dialect.splitLimited operand operand 3,
    dialect.joinStrings operand operand, dialect.regexMatch operand "pat.*" false,
    dialect.regexMatch operand "pat.*" true, dialect.unnest operand, .text dialect.collectOpen,
    .text dialect.collectClose, .text dialect.structOpen, .text dialect.structClose]

/-- Writes constructs one after the other; those that a dialect lacks are reported. -/
def writeConstructs : List Fragment → Session → Session × List Report
  | [], session => (session, [])
  | construct :: rest, session =>
    let outcome := construct.run {} session
    let (session, reports) := writeConstructs rest outcome.session
    (session, (outcome.fault.map fun fault => Report.text fault.internal).toList ++ reports)

/-- What a dialect says about names, its limits and a pattern. -/
def dialectReports (dialect : Dialect) : List Report :=
  let names :=
    ["col", "snake_case", "CamelCase", "", "1bad", "select", "has space", repeated "x" 400]
  names.map (fun name => .ofFault? (dialect.nameFault? name)) ++
    [.number dialect.maxIdentifierLength, .flag dialect.supportsNativeArrays,
      .flag dialect.supportsJsonb, patternReport
      (dialect.convertRegex ("(?i)\\d+(?:abc)" ++ repeated "pad" 60))]

/-- One round over all constructs and all dialects. -/
def constructRound (session : Session) : Session × List Report :=
  let (session, reports) := writeConstructs (dialects.flatMap constructs) session
  (session, reports ++ dialects.flatMap dialectReports)

/-- Rounds one after the other. -/
def constructRounds : Nat → Session → Session × List Report
  | 0, session => (session, [])
  | rounds + 1, session =>
    let (session, first) := constructRound session
    let (session, rest) := constructRounds rounds session
    (session, first ++ rest)

/-- The label of a dialect in a report. -/
def dialectLabel : Dialect → String
  | .postgresql => "PostgresDialect"
  | .duckdb => "DuckDBDialect"
  | .bigquery => "BigQueryDialect"
  | .mysql => "MySQLDialect"
  | .sqlite => "SQLiteDialect"

/-- What comes of looking up a dialect by its name. -/
def lookupReport (name : String) : Report :=
  match Dialect.ofName name with
  | .ok dialect => .text (dialectLabel dialect)
  | .error fault => .text fault.message

/-- Rounds over all constructs, the text that they wrote, and what else dialects can be asked
for. -/
def writeAll (rounds : Int) : List Report :=
  let (session, reports) := constructRounds rounds.toNat .fresh
  reports ++ [.text session.text] ++ (dialects.map (·.name) ++ ["nope"]).map lookupReport ++
    [.flag (Index.advisor? .postgresql).isSome, .flag (Index.advisor? .mysql).isNone] ++
    Index.PatternType.all.map (fun type =>
      .recommendation (Index.recommendPostgres ⟨"c", type, "t"⟩)) ++
    [.texts ((Index.supportedPatterns .postgresql).map (·.name))]

end CelWhere.Workload
