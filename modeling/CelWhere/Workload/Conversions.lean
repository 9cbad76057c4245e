import CelWhere.Workload.Expressions
import CelWhere.Workload.Report

/-! # Workloads of conversions -/

namespace CelWhere.Workload

/-- The settings of the conversions in a dialect. -/
def settingsFor (dialect : Dialect) : Settings :=
  { dialect, catalog := tables, maxDepth := 80, maxLength := 40000, validate := true }

/-- The dialects in the order of the workloads. -/
def dialects : List Dialect := [.postgresql, .duckdb, .bigquery, .mysql, .sqlite]

/-- Converts expressions for dialects, dialect by dialect. -/
def convertFor (targets : List Dialect) (count : Int) : List Report :=
  targets.flatMap fun dialect =>
    (cycled expressions count).map fun expression =>
      .ofConversion ((settingsFor dialect).convert expression)

/-- Converts expressions with bound parameters, dialect by dialect. -/
def convertParameterized (count : Int) : List Report :=
  [Dialect.postgresql, .mysql, .bigquery, .duckdb, .sqlite].flatMap fun dialect =>
    (cycled parameterExpressions count).map fun expression =>
      .ofCondition ((settingsFor dialect).convertParameterized expression)

/-- Converts what cannot be converted, and reports the messages. -/
def convertFailing (count : Int) : List Report :=
  (cycled failingCases count).map fun failing =>
    let settings : Settings :=
      { catalog := tables
        maxDepth := failing.maxDepth
        maxLength := failing.maxLength
        validate := failing.validate }
    match settings.convert failing.expression with
    | .ok sql => .text sql
    | .error (.fault fault) => .texts [fault.message, fault.internal]
    | .error .unreadable => .null

/-- The text of an analysed expression and the number of its recommendations. -/
def analysisReport (settings : Settings) (expression : String) : Report :=
  match settings.analyze expression with
  | .ok (sql, recommendations) => .list [.text sql, .number recommendations.length]
  | .error (.fault fault) => .text fault.internal
  | .error .unreadable => .null

/-- Converts and analyses each expression, the dialects taking turns; the first expression is
converted once more at the end, so there must be one. -/
def convertAndAnalyze (count : Int) : Except Fault (List Report) :=
  let turns : List Dialect := [.postgresql, .postgresql, .duckdb, .bigquery, .mysql]
  match cycled expressions count with
  | [] => .error .missingChild
  | first :: rest =>
    let each := ((first :: rest).zip (cycled turns count)).flatMap fun (expression, dialect) =>
      let settings : Settings := { dialect, catalog := tables }
      [.ofConversion (settings.convert expression),
        .ofCondition (settings.convertParameterized expression), analysisReport settings expression]
    let settings : Settings := { catalog := tables }
    .ok <| each ++
      [.ofConversion (settings.convert first),
        .ofConversion ((settings.convertParameterized first).map (·.sql)),
        .ofConversion ((settings.analyze first).map (·.1))]

/-! ## Index advice -/

/-- The recommendations for an expression, in full. -/
def adviceReports (expression : String) : List Report :=
  match ({ catalog := tables } : Settings).analyze expression with
  | .ok (_, recommendations) =>
    recommendations.map fun found =>
      .texts [found.column, found.indexType.name, found.expression, found.reason]
  | .error _ => []

/-- The kinds of indexes recommended for every pattern type of a few columns. -/
def patternReports : List Report :=
  ["c0", "c1", "c2", "c3"].flatMap fun column =>
    Index.PatternType.all.map fun type =>
      let found := Index.recommendPostgres ⟨column, type, "t"⟩
      .texts [found.column, found.indexType.name]

/-- The patterns of an expression. -/
def patternList (expression : String) : Report :=
  match parse? expression with
  | none => .null
  | some tree =>
    .list ((Index.collectPatterns tables tree []).1.map fun pattern =>
      .texts [pattern.column, pattern.type.name, pattern.tableHint])

/-- Recommends indexes for expressions and for patterns, and lists the patterns of the first
expression. -/
def adviseAll (count : Int) : Except Fault (List Report) :=
  match cycled adviceExpressions count with
  | [] => .error .missingChild
  | first :: rest =>
    .ok <| (first :: rest).flatMap (fun expression => adviceReports expression ++ patternReports) ++
      [patternList first]

end CelWhere.Workload
