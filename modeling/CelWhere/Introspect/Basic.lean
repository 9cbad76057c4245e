import CelWhere.Introspect.Tables
import CelWhere.Sql.Dialect

/-! # Introspection

Reads the schemas of tables from a database of any dialect. -/

namespace CelWhere.Introspect

/-- The value of an option. -/
inductive OptionValue
  /-- No value. -/
  | null
  /-- A text. -/
  | text (value : String)
  /-- Columns by their tables. -/
  | columns (byTable : List (String × List String))
  deriving Repr, Inhabited

/-- The text of an option. -/
def OptionValue.text? : OptionValue → Option String
  | .text value => some value
  | _ => none

/-- The columns of an option. -/
def OptionValue.columnLists : OptionValue → List (String × List String)
  | .columns byTable => byTable
  | _ => []

/-- The option that the introspection of a dialect takes. -/
def optionName? : Dialect → Option String
  | .postgresql => some "schema_name"
  | .mysql => some "database"
  | .sqlite => some "json_columns"
  | .bigquery => some "dataset"
  | .duckdb => none

/-- Reads the schemas of tables with the value of the dialect's option. -/
def introspectWith (dialect : Dialect) (connection : Connection) (option : Option OptionValue)
    (tables : List String) : Introspection :=
  match dialect with
  | .postgresql => postgresql connection (option.elim (some "public") (·.text?)) tables
  | .mysql => mysql connection (option.bind (·.text?)) tables
  | .sqlite => sqlite connection (option.elim [] (·.columnLists)) tables
  | .bigquery => bigquery connection (option.bind (·.text?)) tables
  | .duckdb => duckdb connection tables

/-- Reads the schemas of tables, given options by their names. -/
def introspectAs (dialect : Dialect) (connection : Connection)
    (options : List (String × OptionValue)) (tables : List String) : Introspection :=
  if options.all fun (name, _) => optionName? dialect = some name then
    introspectWith dialect connection (options.head?.map (·.2)) tables
  else ⟨[], .error .unexpectedOption⟩

/-- Reads the schemas of tables from a database of the named dialect. -/
def introspect (dialect : String) (connection : Connection) (options : List (String × OptionValue))
    (tables : List String) : Introspection :=
  match Dialect.ofName? dialect with
  | some dialect => introspectAs dialect connection options tables
  | none => ⟨[], .error (.unknownDialect dialect)⟩

/-- The dialect for which a reader of its own goes by the given name. -/
def readerOf? : String → Option Dialect
  | "postgres" => some .postgresql
  | "duckdb" => some .duckdb
  | "mysql" => some .mysql
  | "sqlite" => some .sqlite
  | "bigquery" => some .bigquery
  | _ => none

/-- Reads the schemas of tables by the reader of the given name. -/
def introspectBy (reader : String) (connection : Connection) (options : List (String × OptionValue))
    (tables : List String) : Introspection :=
  match readerOf? reader with
  | some dialect => introspectAs dialect connection options tables
  | none => ⟨[], .error .noIntrospection⟩

end CelWhere.Introspect
