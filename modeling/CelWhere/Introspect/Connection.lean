import CelWhere.Fault
import CelWhere.Schema

/-! # Connections

What is asked of a database and what it answers. -/

namespace CelWhere.Introspect

/-- A request to a database. -/
inductive Request
  /-- A cursor is opened. -/
  | cursor
  /-- A query is executed, perhaps with parameters, which may be null. -/
  | execute (query : String) (parameters : Option (List (Option String)))
  /-- The cursor is closed. -/
  | close
  /-- A table is looked up by its reference. -/
  | getTable (reference : String)
  deriving DecidableEq, Repr

/-- A row of a database's list of columns. -/
structure ColumnRow where
  /-- The table of the column. -/
  table : String
  /-- The name of the column. -/
  column : String
  /-- The type of the column. -/
  type : String
  /-- The name of the type that the column's type stands for, where the database tells it. -/
  underlying : String := ""
  deriving DecidableEq, Repr, Inhabited

/-- A column in the description of a single table. -/
structure TableColumn where
  /-- The name of the column. -/
  column : String
  /-- The type of the column. -/
  type : String
  /-- The mode of the column, where the database tells it. -/
  mode : String := ""
  deriving DecidableEq, Repr, Inhabited

/-- A database, by its answers. -/
structure Connection where
  /-- The rows with which queries for columns are answered. -/
  rows : List ColumnRow := []
  /-- The descriptions of tables by their names or references. -/
  tables : List (String × List TableColumn) := []
  /-- Whether every query fails. -/
  broken : Bool := false
  /-- The reason given for a table reference that is not known. -/
  absence : String → String := fun reference => "Not found: " ++ reference
  deriving Inhabited

/-- The requests that an introspection made and what came of it. -/
structure Introspection where
  /-- The requests in order. -/
  requests : List Request
  /-- The schemas that were read. -/
  result : Except Fault Catalog

end CelWhere.Introspect

namespace CelWhere.Catalog

/-- Sets the schema of a table; a table that is there already keeps its place. -/
def insert (catalog : Catalog) (table : String) (schema : Schema) : Catalog :=
  match catalog with
  | [] => [(table, schema)]
  | (name, known) :: rest =>
    if name = table then (name, schema) :: rest
      else (name, known) :: Catalog.insert rest table schema

end CelWhere.Catalog
