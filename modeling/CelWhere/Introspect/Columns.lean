import CelWhere.Introspect.Connection
import CelWhere.Sql.Identifier
import CelWhere.Text.LetterCase
import CelWhere.Text.Search

/-! # Schemas out of lists of columns

PostgreSQL, MySQL and DuckDB list the columns of several tables at once. The rows are grouped by
their tables, and each table that was asked for must be among them. -/

namespace CelWhere.Introspect

/-- The fields of tables by the tables' names. -/
abbrev Groups := List (String × List Field)

/-- Adds a field to the fields of a table. -/
def addField (table : String) (field : Field) : Groups → Groups
  | [] => [(table, [field])]
  | (name, fields) :: rest =>
    if name = table then (name, fields ++ [field]) :: rest
      else (name, fields) :: addField table field rest

/-- The fields of rows, grouped by the tables of the rows. -/
def groupRows (toField : ColumnRow → Field) (rows : List ColumnRow) : Groups :=
  rows.foldl (fun groups row => addField row.table (toField row) groups) []

/-- The schemas of tables out of groups of fields; the first table without a group is a fault. -/
def catalogOf (groups : Groups) (source : ColumnSource) : List String → Catalog →
    Except Fault Catalog
  | [], catalog => .ok catalog
  | table :: rest, catalog =>
    match groups.lookup table with
    | none => .error (.introspection (.notFound table source))
    | some fields => catalogOf groups source rest (catalog.insert table ⟨fields⟩)

/-- What comes of a query for columns. -/
def readColumns (connection : Connection) (toField : ColumnRow → Field) (source : ColumnSource)
    (tables : List String) : Except Fault Catalog :=
  if connection.broken then .error .connectionFailed
  else catalogOf (groupRows toField connection.rows) source tables []

/-- The same mark for each of a number of tables, divided by commas. -/
def marks (mark : String) (tables : List String) : String :=
  ", ".intercalate (tables.map fun _ => mark)

/-- A query for the columns of tables. -/
def columnQuery (columns condition placeholders : String) : String :=
  "SELECT " ++ columns ++ " FROM information_schema.columns WHERE " ++ condition ++
    "table_name IN (" ++
    placeholders ++ ") ORDER BY table_name, ordinal_position"

/-- Whether a text has another inside. -/
def hasText (part text : String) : Bool :=
  Text.occurs part.toList text.toList

/-! ## PostgreSQL -/

/-- The field of a column of PostgreSQL. -/
def postgresField (row : ColumnRow) : Field :=
  { name := row.column
    repeated := Text.upper row.type = "ARRAY"
    isJson := row.underlying = "jsonb" || row.underlying = "json"
    isJsonb := row.underlying = "jsonb" }

/-- The schemas of tables of PostgreSQL. -/
def postgresql (connection : Connection) (schemaName : Option String) (tables : List String) :
    Introspection :=
  if tables.isEmpty then ⟨[], .ok []⟩
  else
    let query :=
      columnQuery "table_name, column_name, data_type, udt_name" "table_schema = %s AND "
        (marks "%s" tables)
    ⟨[.cursor, .execute query (some (schemaName :: tables.map some)), .close],
      readColumns connection postgresField (.schema schemaName) tables⟩

/-! ## MySQL -/

/-- The field of a column of MySQL. -/
def mysqlField (row : ColumnRow) : Field :=
  { name := row.column, isJson := Text.lower row.type = "json" }

/-- The schemas of tables of MySQL. Without the name of a database the current one is asked. -/
def mysql (connection : Connection) (database : Option String) (tables : List String) :
    Introspection :=
  if tables.isEmpty then ⟨[], .ok []⟩
  else
    let condition := if database.isSome then "table_schema = %s AND "
      else "table_schema = DATABASE() AND "
    let query := columnQuery "table_name, column_name, data_type" condition (marks "%s" tables)
    ⟨[.cursor, .execute query (some ((database.toList ++ tables).map some)), .close],
      readColumns connection mysqlField .mysql tables⟩

/-! ## DuckDB -/

/-- The field of a column of DuckDB. -/
def duckdbField (row : ColumnRow) : Field :=
  let repeated := hasText "[]" row.type
  { name := row.column, repeated, isJson := !repeated && Text.upper row.type = "JSON" }

/-- The schemas of tables of DuckDB. -/
def duckdb (connection : Connection) (tables : List String) : Introspection :=
  if tables.isEmpty then ⟨[], .ok []⟩
  else
    let query := columnQuery "table_name, column_name, data_type" "" (marks "?" tables)
    ⟨[.execute query (some (tables.map some))], readColumns connection duckdbField .duckdb tables⟩

end CelWhere.Introspect
