import CelWhere.Introspect.Columns

/-! # Schemas out of descriptions of single tables

SQLite and BigQuery describe one table at a time, so the tables are asked for one after the
other. -/

namespace CelWhere.Introspect

/-! ## SQLite -/

/-- The field of a column of SQLite: JSON by its type or because it is listed as such. -/
def sqliteField (jsonColumns : List String) (column : TableColumn) : Field :=
  { name := column.column
    isJson := hasText "json" (Text.lower column.type) || jsonColumns.contains column.column }

/-- Asks SQLite for tables, continuing with the requests made and the schemas read before. -/
def sqliteFrom (connection : Connection) (jsonColumns : List (String × List String)) :
    List String → List Request → Catalog → Introspection
  | [], requests, catalog => ⟨requests, .ok catalog⟩
  | table :: rest, requests, catalog =>
    if !isNameText table.toList then ⟨requests, .error (.introspection (.invalidTable table))⟩
    else
      let requests := requests ++ [.execute ("PRAGMA table_info(" ++ table ++ ")") none]
      if connection.broken then ⟨requests, .error .connectionFailed⟩
      else
        match (connection.tables.lookup table).getD [] with
        | [] => ⟨requests, .error (.introspection (.noColumns table))⟩
        | columns =>
          let fields := columns.map (sqliteField ((jsonColumns.lookup table).getD []))
          sqliteFrom connection jsonColumns rest requests (catalog.insert table ⟨fields⟩)

/-- The schemas of tables of SQLite. -/
def sqlite (connection : Connection) (jsonColumns : List (String × List String))
    (tables : List String) :
    Introspection :=
  sqliteFrom connection jsonColumns tables [] []

/-! ## BigQuery -/

/-- The field of a column of BigQuery. -/
def bigqueryField (column : TableColumn) : Field :=
  { name := column.column, isJson := column.type = "JSON", repeated := column.mode = "REPEATED" }

/-- The part of a table's name behind its last dot. -/
def shortName (table : String) : String :=
  String.ofList (table.toList.reverse.takeWhile (· ≠ '.')).reverse

/-- The reference and the short name of a table, which needs a dataset, its own or the default
one. -/
def tableReference (dataset : Option String) (table : String) : Except Fault (String × String) :=
  if table.toList.contains '.' then .ok (table, shortName table)
  else
    match dataset with
    | some dataset => .ok (dataset ++ "." ++ table, table)
    | none => .error (.introspection (.noDataset table))

/-- Asks BigQuery for tables, continuing with the requests made and the schemas read before. -/
def bigqueryFrom (connection : Connection) (dataset : Option String) :
    List String → List Request → Catalog → Introspection
  | [], requests, catalog => ⟨requests, .ok catalog⟩
  | table :: rest, requests, catalog =>
    match tableReference dataset table with
    | .error fault => ⟨requests, .error fault⟩
    | .ok (reference, short) =>
      let requests := requests ++ [.getTable reference]
      match connection.tables.lookup reference with
      | none =>
        ⟨requests, .error (.introspection (.lookup table reference (connection.absence reference)))⟩
      | some columns =>
        bigqueryFrom connection dataset rest requests
          (catalog.insert short ⟨columns.map bigqueryField⟩)

/-- The schemas of tables of BigQuery, by their short names. -/
def bigquery (connection : Connection) (dataset : Option String) (tables : List String) :
    Introspection :=
  bigqueryFrom connection dataset tables [] []

end CelWhere.Introspect
