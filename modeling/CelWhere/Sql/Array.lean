import CelWhere.Sql.Dialect
import CelWhere.Sql.Fragment
import CelWhere.Text.LetterCase

/-! # Arrays, structures and subqueries

Dialects without arrays of their own use JSON arrays instead. -/

namespace CelWhere.Dialect

/-- The opening of an array literal. -/
def arrayOpen : Dialect → String
  | .postgresql => "ARRAY["
  | .mysql => "JSON_ARRAY("
  | .sqlite => "json_array("
  | .duckdb | .bigquery => "["

/-- The closing of an array literal. -/
def arrayClose : Dialect → String
  | .postgresql | .duckdb | .bigquery => "]"
  | .mysql | .sqlite => ")"

/-- The number of elements of an array in one of its dimensions. -/
def arrayLength (dialect : Dialect) (dimension : Int) (array : Fragment) : Fragment :=
  match dialect with
  | .postgresql => "COALESCE(ARRAY_LENGTH(" ++ array ++ .number ", " dimension "), 0)"
  | .mysql => "COALESCE(JSON_LENGTH(" ++ array ++ "), 0)"
  | .sqlite => "COALESCE(json_array_length(" ++ array ++ "), 0)"
  | .duckdb => "COALESCE(array_length(" ++ array ++ "), 0)"
  | .bigquery => "ARRAY_LENGTH(" ++ array ++ ")"

/-- The element of an array at a computed index, counted from zero. -/
def element (dialect : Dialect) (array index : Fragment) : Fragment :=
  match dialect with
  | .postgresql | .duckdb => array ++ "[" ++ index ++ " + 1]"
  | .mysql => "JSON_EXTRACT(" ++ array ++ ", CONCAT('$[', " ++ index ++ ", ']'))"
  | .sqlite => "json_extract(" ++ array ++ ", '$[' || " ++ index ++ " || ']')"
  | .bigquery => array ++ "[OFFSET(" ++ index ++ ")]"

/-- The element of an array at a fixed index, counted from zero. -/
def elementAt (dialect : Dialect) (array : Fragment) (index : Int) : Fragment :=
  match dialect with
  | .postgresql | .duckdb => array ++ .number "[" (index + 1) "]"
  | .mysql => "JSON_EXTRACT(" ++ array ++ .number ", '$[" index "]')"
  | .sqlite => "json_extract(" ++ array ++ .number ", '$[" index "]')"
  | .bigquery => array ++ .number "[OFFSET(" index ")]"

/-- The type of array elements in BigQuery. -/
def bigqueryElementType (type : String) : String :=
  match Text.lower type with
  | "text" | "string" | "varchar" => "STRING"
  | "int" | "integer" | "bigint" | "int64" => "INT64"
  | "double" | "float" | "real" | "float64" => "FLOAT64"
  | "boolean" | "bool" => "BOOL"
  | "bytes" | "bytea" | "blob" => "BYTES"
  | _ => Text.upper type

/-- An array without elements. -/
def emptyArray (dialect : Dialect) (type : String) : String :=
  match dialect with
  | .postgresql => "ARRAY[]::" ++ type ++ "[]"
  | .mysql => "JSON_ARRAY()"
  | .sqlite => "json_array()"
  | .duckdb => "[]::" ++ type ++ "[]"
  | .bigquery => "ARRAY<" ++ bigqueryElementType type ++ ">[]"

/-- The test that a value is an element of an array. -/
def membership (dialect : Dialect) (value array : Fragment) : Fragment :=
  match dialect with
  | .postgresql | .duckdb => value ++ " = ANY(" ++ array ++ ")"
  | .mysql => "JSON_CONTAINS(" ++ array ++ ", JSON_EXTRACT(JSON_ARRAY(" ++ value ++ "), '$[0]'))"
  | .sqlite => value ++ " IN (SELECT value FROM json_each(" ++ array ++ "))"
  | .bigquery => value ++ " IN UNNEST(" ++ array ++ ")"

/-- The elements of an array as rows. -/
def unnest (dialect : Dialect) (array : Fragment) : Fragment :=
  match dialect with
  | .postgresql | .duckdb | .bigquery => "UNNEST(" ++ array ++ ")"
  | .mysql => "JSON_TABLE(" ++ array ++ ", '$[*]' COLUMNS(value TEXT PATH '$'))"
  | .sqlite => "json_each(" ++ array ++ ")"

/-- The opening of a subquery that collects an array, up to the collected expression. -/
def collectOpen : Dialect → String
  | .postgresql | .duckdb | .bigquery => "ARRAY(SELECT "
  | .mysql => "(SELECT JSON_ARRAYAGG("
  | .sqlite => "(SELECT json_group_array("

/-- What stands behind the expression that a subquery collects. -/
def collectClose : Dialect → String
  | .postgresql | .duckdb | .bigquery => ""
  | .mysql | .sqlite => ")"

/-- The opening of a structure. -/
def structOpen : Dialect → String
  | .postgresql | .mysql | .duckdb => "ROW("
  | .sqlite => "json_object("
  | .bigquery => "STRUCT("

/-- The closing of a structure. -/
def structClose : Dialect → String
  | _ => ")"

end CelWhere.Dialect
