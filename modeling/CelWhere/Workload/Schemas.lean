import CelWhere.Introspect.Basic
import CelWhere.Workload.Report

/-! # Workloads of introspection -/

namespace CelWhere.Workload

open Introspect

/-- The names of a number of tables. -/
def tableNames (count : Int) : List String :=
  (List.range count.toNat).map fun number => "tbl" ++ natText number

/-- A database that lists these columns for each table. -/
def listing (names : List String) (columns : List (String × String × String)) : Connection :=
  { rows := names.flatMap fun table =>
      columns.map fun (column, type, underlying) => { table, column, type, underlying } }

/-- A database that describes each table by these columns. -/
def describing (names : List String) (columns : List TableColumn) : Connection :=
  { tables := names.map fun table => (table, columns), absence := fun _ => "not found" }

/-- A PostgreSQL database. -/
def postgresTables (names : List String) : Connection :=
  listing names
    [("id", "integer", "int4"), ("name", "text", "text"), ("meta", "jsonb", "jsonb"),
      ("prefs", "json", "json"), ("tags", "ARRAY", "_text")]

/-- A MySQL database. -/
def mysqlTables (names : List String) : Connection :=
  listing names [("id", "int", ""), ("name", "varchar", ""), ("meta", "json", "")]

/-- A DuckDB database. -/
def duckdbTables (names : List String) : Connection :=
  listing names [("id", "INTEGER", ""), ("meta", "JSON", ""), ("tags", "VARCHAR[]", "")]

/-- An SQLite database. -/
def sqliteTables (names : List String) : Connection :=
  describing names
    [{ column := "id", type := "INTEGER" }, { column := "name", type := "TEXT" },
      { column := "meta", type := "JSON" }, { column := "payload", type := "TEXT" }]

/-- A BigQuery database. -/
def bigqueryTables (names : List String) : Connection :=
  describing (names.map ("ds." ++ ·))
    [{ column := "id", type := "INTEGER", mode := "NULLABLE" },
      { column := "meta", type := "JSON", mode := "NULLABLE" },
      { column := "tags", type := "STRING", mode := "REPEATED" }]

/-- What came of an introspection: a report of the schemas, or the internal text of the fault. -/
def schemaReport (found : Introspection) (report : Catalog → Report) : Report :=
  match found.result with
  | .ok catalog => report catalog
  | .error fault => .text fault.internal

/-- The number of tables. -/
def tableCount (catalog : Catalog) : Report :=
  .number catalog.length

/-- The number of fields of each table. -/
def fieldCounts (catalog : Catalog) : Report :=
  .record (catalog.map fun (table, schema) => (table, .number schema.fields.length))

/-- The fields of each table. -/
def fieldNames (catalog : Catalog) : Report :=
  .record (catalog.map fun (table, schema) => (table, .texts (schema.fields.map (·.name))))

/-- What a reader of the given name reports: that it is there, or an error. -/
def readerReport (reader : String) : Report :=
  if (readerOf? reader).isSome then .flag true else .text "attr-err"

/-- Reads the schemas of a number of tables from every database, then asks for tables that are not
there, for no tables, and for readers by their names. -/
def readSchemas (count : Int) : List Report :=
  let names := tableNames count
  let jsonColumns := names.map fun table => (table, ["payload"])
  [schemaReport (sqlite (sqliteTables names) jsonColumns names) fieldCounts,
    schemaReport (introspect "sqlite" (sqliteTables names) [] names) tableCount,
    schemaReport (postgresql (postgresTables names) (some "public") names) fieldNames,
    schemaReport (introspect "postgresql" (postgresTables names) [] names) tableCount,
    schemaReport (mysql (mysqlTables names) (some "db") names) tableCount,
    schemaReport (duckdb (duckdbTables names) names) tableCount,
    schemaReport (bigquery (bigqueryTables names) (some "ds") names) tableCount] ++
  [schemaReport (sqlite (sqliteTables names) [] ["bad name!"]) tableCount,
    schemaReport (sqlite (sqliteTables names) [] ["no_such"]) tableCount,
    schemaReport (postgresql (postgresTables names) (some "public") ["miss"]) tableCount,
    schemaReport (mysql (mysqlTables names) none ["miss"]) tableCount,
    schemaReport (duckdb (duckdbTables names) ["miss"]) tableCount,
    schemaReport (bigquery (bigqueryTables names) none ["ds.missing"]) tableCount,
    schemaReport (bigquery (bigqueryTables names) none ["bare"]) tableCount] ++
  ["postgresql", "mysql", "duckdb", "sqlite", "bigquery"].map (fun dialect =>
    schemaReport (introspect dialect {} [] []) fieldCounts) ++
  [schemaReport (introspect "unknown" {} [] []) tableCount] ++
  ["postgres", "duckdb", "bigquery", "mysql", "sqlite", "nope"].map readerReport

end CelWhere.Workload
