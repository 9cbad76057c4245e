/-! # SQL dialects -/

namespace CelWhere

/-- The dialects of SQL. -/
inductive Dialect
  /-- PostgreSQL. -/
  | postgresql
  /-- MySQL. -/
  | mysql
  /-- SQLite. -/
  | sqlite
  /-- DuckDB. -/
  | duckdb
  /-- BigQuery. -/
  | bigquery
  deriving DecidableEq, Repr, Inhabited

namespace Dialect

/-- All dialects. -/
def all : List Dialect := [.postgresql, .mysql, .sqlite, .duckdb, .bigquery]

theorem mem_all (dialect : Dialect) : dialect ∈ all := by
  cases dialect <;> simp [all]

/-- The name of a dialect. -/
def name : Dialect → String
  | .postgresql => "postgresql"
  | .mysql => "mysql"
  | .sqlite => "sqlite"
  | .duckdb => "duckdb"
  | .bigquery => "bigquery"

/-- The dialect of a name. -/
def ofName? (name : String) : Option Dialect :=
  all.find? (·.name = name)

/-- The most characters of an identifier; zero stands for no limit. -/
def maxIdentifierLength : Dialect → Nat
  | .postgresql => 63
  | .mysql => 64
  | .sqlite => 0
  | .duckdb => 0
  | .bigquery => 300

/-- Whether the dialect has arrays of its own. -/
def supportsNativeArrays : Dialect → Bool
  | .postgresql | .duckdb | .bigquery => true
  | .mysql | .sqlite => false

/-- Whether the dialect has JSON in binary form. -/
def supportsJsonb : Dialect → Bool
  | .postgresql => true
  | _ => false

theorem ofName?_name (dialect : Dialect) : ofName? dialect.name = some dialect := by
  cases dialect <;> rfl

end Dialect

end CelWhere
