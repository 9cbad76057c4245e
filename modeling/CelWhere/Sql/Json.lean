import CelWhere.Sql.Dialect
import CelWhere.Sql.Fragment
import CelWhere.Sql.Literal

/-! # JSON values -/

namespace CelWhere.Dialect

/-- A field of a JSON value, as text if it is the last of a path. -/
def jsonField (dialect : Dialect) (base : Fragment) (field : String) (final : Bool) : Fragment :=
  let escaped := dialect.escapeString field
  match dialect with
  | .postgresql | .duckdb => base ++ ((if final then "->>'" else "->'") ++ escaped ++ "'" : String)
  | .mysql => base ++ ((if final then "->>'$." else "->'$.") ++ escaped ++ "'" : String)
  | .sqlite => "json_extract(" ++ base ++ (", '$." ++ escaped ++ "')" : String)
  | .bigquery =>
    (if final then "JSON_VALUE(" else "JSON_QUERY(") ++ base ++
      (", '$." ++ escaped ++ "')" : String)

/-- The test that a JSON value has a field. -/
def jsonExists (dialect : Dialect) (binary : Bool) (field : String) (base : Fragment) : Fragment :=
  let escaped := dialect.escapeString field
  match dialect with
  | .postgresql =>
    if binary then base ++ (" ? '" ++ escaped ++ "'" : String)
    else base ++ ("->'" ++ escaped ++ "' IS NOT NULL" : String)
  | .mysql => "JSON_CONTAINS_PATH(" ++ base ++ (", 'one', '$." ++ escaped ++ "')" : String)
  | .sqlite => "json_type(" ++ base ++ (", '$." ++ escaped ++ "') IS NOT NULL" : String)
  | .duckdb => "json_exists(" ++ base ++ (", '$." ++ escaped ++ "')" : String)
  | .bigquery => "JSON_VALUE(" ++ base ++ (", '$." ++ escaped ++ "') IS NOT NULL" : String)

/-- The elements of a JSON array as rows. -/
def jsonElements (dialect : Dialect) (binary asText : Bool) (value : Fragment) : Fragment :=
  match dialect with
  | .postgresql =>
    ((if binary then "jsonb_array_elements" else "json_array_elements") ++
      (if asText then "_text(" else "(") : String) ++ value ++ ")"
  | .mysql => "JSON_TABLE(" ++ value ++ ", '$[*]' COLUMNS(value TEXT PATH '$'))"
  | .sqlite | .duckdb => "json_each(" ++ value ++ ")"
  | .bigquery => "UNNEST(JSON_QUERY_ARRAY(" ++ value ++ "))"

/-- The number of elements of a JSON array. -/
def jsonLength (dialect : Dialect) (value : Fragment) : Fragment :=
  match dialect with
  | .postgresql => "COALESCE(jsonb_array_length(" ++ value ++ "), 0)"
  | .mysql => "COALESCE(JSON_LENGTH(" ++ value ++ "), 0)"
  | .sqlite | .duckdb => "COALESCE(json_array_length(" ++ value ++ "), 0)"
  | .bigquery => "ARRAY_LENGTH(JSON_QUERY_ARRAY(" ++ value ++ "))"

/-- The right side of a membership test in a JSON array whose elements the named function lists. -/
def jsonMembership (dialect : Dialect) (function : String) (value : Fragment) : Fragment :=
  match dialect with
  | .postgresql => ("ANY(ARRAY(SELECT " ++ function ++ "(" : String) ++ value ++ ")))"
  | .mysql => "JSON_CONTAINS(" ++ value ++ ", CAST(? AS JSON))"
  | .sqlite | .duckdb => "(SELECT value FROM json_each(" ++ value ++ "))"
  | .bigquery => "UNNEST(JSON_VALUE_ARRAY(" ++ value ++ "))"

/-- The right side of a membership test in a JSON array inside a JSON value. -/
def nestedJsonMembership (dialect : Dialect) (value : Fragment) : Fragment :=
  dialect.jsonMembership "jsonb_array_elements_text" value

end CelWhere.Dialect
