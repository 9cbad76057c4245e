import CelWhere.Sql.Dialect
import CelWhere.Sql.Fragment
import CelWhere.Text.LetterCase

/-! # Types and casts -/

namespace CelWhere.Dialect

/-- The SQL type of a type of the expression language, if the dialect has one for it. -/
def knownType? : Dialect → String → Option String
  | .postgresql, "bool" => some "BOOLEAN"
  | .postgresql, "bytes" => some "BYTEA"
  | .postgresql, "double" => some "DOUBLE PRECISION"
  | .postgresql, "int" => some "BIGINT"
  | .postgresql, "uint" => some "BIGINT"
  | .postgresql, "string" => some "TEXT"
  | .postgresql, "timestamp" => some "TIMESTAMP WITH TIME ZONE"
  | .mysql, "bool" => some "UNSIGNED"
  | .mysql, "bytes" => some "BINARY"
  | .mysql, "double" => some "DECIMAL"
  | .mysql, "int" => some "SIGNED"
  | .mysql, "uint" => some "UNSIGNED"
  | .mysql, "string" => some "CHAR"
  | .mysql, "timestamp" => some "DATETIME"
  | .sqlite, "bool" => some "INTEGER"
  | .sqlite, "bytes" => some "BLOB"
  | .sqlite, "double" => some "REAL"
  | .sqlite, "int" => some "INTEGER"
  | .sqlite, "uint" => some "INTEGER"
  | .sqlite, "string" => some "TEXT"
  | .sqlite, "timestamp" => some "TEXT"
  | .duckdb, "bool" => some "BOOLEAN"
  | .duckdb, "bytes" => some "BLOB"
  | .duckdb, "double" => some "DOUBLE"
  | .duckdb, "int" => some "BIGINT"
  | .duckdb, "uint" => some "UBIGINT"
  | .duckdb, "string" => some "VARCHAR"
  | .duckdb, "timestamp" => some "TIMESTAMPTZ"
  | .bigquery, "bool" => some "BOOL"
  | .bigquery, "bytes" => some "BYTES"
  | .bigquery, "double" => some "FLOAT64"
  | .bigquery, "int" => some "INT64"
  | .bigquery, "uint" => some "INT64"
  | .bigquery, "string" => some "STRING"
  | .bigquery, "timestamp" => some "TIMESTAMP"
  | _, _ => none

/-- The SQL type of a type of the expression language; an unknown one is written in upper case. -/
def typeName (dialect : Dialect) (type : String) : String :=
  (dialect.knownType? type).getD (Text.upper type)

/-- A value cast to a type of the expression language. -/
def cast (dialect : Dialect) (value : Fragment) (type : String) : Fragment :=
  "CAST(" ++ value ++ " AS " ++ dialect.typeName type ++ ")"

/-- A text cast to a number. -/
def castToNumeric (dialect : Dialect) (value : Fragment) : Fragment :=
  match dialect with
  | .postgresql => value ++ "::numeric"
  | .mysql | .sqlite => value ++ " + 0"
  | .duckdb => value ++ "::DOUBLE"
  | .bigquery => "CAST(" ++ value ++ " AS FLOAT64)"

/-- A timestamp as seconds since the epoch. -/
def epochSeconds (dialect : Dialect) (value : Fragment) : Fragment :=
  match dialect with
  | .postgresql => "EXTRACT(EPOCH FROM " ++ value ++ ")::bigint"
  | .mysql => "UNIX_TIMESTAMP(" ++ value ++ ")"
  | .sqlite => "CAST(strftime('%s', " ++ value ++ ") AS INTEGER)"
  | .duckdb => "EXTRACT(EPOCH FROM " ++ value ++ ")::BIGINT"
  | .bigquery => "UNIX_SECONDS(" ++ value ++ ")"

/-- A value cast to a timestamp. -/
def castToTimestamp (dialect : Dialect) (value : Fragment) : Fragment :=
  match dialect with
  | .postgresql => "CAST(" ++ value ++ " AS TIMESTAMP WITH TIME ZONE)"
  | .mysql => "CAST(" ++ value ++ " AS DATETIME)"
  | .sqlite => "datetime(" ++ value ++ ")"
  | .duckdb => "CAST(" ++ value ++ " AS TIMESTAMPTZ)"
  | .bigquery => "CAST(" ++ value ++ " AS TIMESTAMP)"

end CelWhere.Dialect
