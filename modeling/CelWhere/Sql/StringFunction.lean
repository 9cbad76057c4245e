import CelWhere.Sql.Dialect
import CelWhere.Sql.Fragment

/-! # String functions

Positions count from one in SQL and from zero in expressions; a position that does not exist is -1
in expressions and 0 in SQL. -/

namespace CelWhere

/-- A function applied to one operand. -/
def applied (function : String) (operand : Fragment) : Fragment :=
  (function ++ "(" : String) ++ operand ++ ")"

/-! ## Positions -/

/-- The position of a string in another, or -1. -/
def indexOf (subject part : Fragment) : Fragment :=
  "CASE WHEN POSITION(" ++ part ++ " IN " ++ subject ++ ") > 0 THEN POSITION(" ++ part ++
    " IN " ++ subject ++
    ") - 1 ELSE -1 END"

/-- The position of a string in another from a fixed offset on, or -1. -/
def indexOfFrom (subject part : Fragment) (offset : Int) : Fragment :=
  "CASE WHEN POSITION(" ++ part ++ " IN SUBSTRING(" ++ subject ++ .number ", " (offset + 1) "))" ++
    " > 0 THEN POSITION(" ++ part ++ " IN SUBSTRING(" ++ subject ++
    .number ", " (offset + 1) "))" ++
    .number " + " offset " - 1 ELSE -1 END"

/-- The position of a string in another from a computed offset on, or -1. -/
def indexOfFromExpr (subject part offset : Fragment) : Fragment :=
  "CASE WHEN POSITION(" ++ part ++ " IN SUBSTRING(" ++ subject ++ ", " ++ offset ++ " + 1))" ++
    " > 0 THEN POSITION(" ++ part ++ " IN SUBSTRING(" ++ subject ++ ", " ++ offset ++
    " + 1))" ++ " + " ++
    offset ++ " - 1 ELSE -1 END"

/-- The last position of a string in another, or -1. -/
def lastIndexOf (subject part : Fragment) : Fragment :=
  "CASE WHEN POSITION(REVERSE(" ++ part ++ ") IN REVERSE(" ++ subject ++
    ")) > 0 THEN LENGTH(" ++ subject ++
    ") - POSITION(REVERSE(" ++ part ++ ") IN REVERSE(" ++ subject ++ ")) - LENGTH(" ++ part ++
    ") + 1 ELSE -1 END"

namespace Dialect

/-- One string and then another. -/
def concat (dialect : Dialect) (left right : Fragment) : Fragment :=
  match dialect with
  | .mysql => "CONCAT(" ++ left ++ ", " ++ right ++ ")"
  | _ => left ++ " || " ++ right

/-- The test that a string contains another. -/
def contains (dialect : Dialect) (subject part : Fragment) : Fragment :=
  match dialect with
  | .postgresql => "POSITION(" ++ part ++ " IN " ++ subject ++ ") > 0"
  | .mysql => "LOCATE(" ++ part ++ ", " ++ subject ++ ") > 0"
  | .sqlite => "INSTR(" ++ subject ++ ", " ++ part ++ ") > 0"
  | .duckdb => "CONTAINS(" ++ subject ++ ", " ++ part ++ ")"
  | .bigquery => "STRPOS(" ++ subject ++ ", " ++ part ++ ") > 0"

/-- The parts of a string between delimiters. -/
def split (dialect : Dialect) (subject delimiter : Fragment) : Fragment :=
  match dialect with
  | .postgresql => "STRING_TO_ARRAY(" ++ subject ++ ", " ++ delimiter ++ ")"
  | .mysql => "JSON_ARRAY(" ++ subject ++ ")"
  | .sqlite => .fail (.sqliteLacks .split)
  | .duckdb => "STRING_SPLIT(" ++ subject ++ ", " ++ delimiter ++ ")"
  | .bigquery => "SPLIT(" ++ subject ++ ", " ++ delimiter ++ ")"

/-- The first parts of a string between delimiters. -/
def splitLimited (dialect : Dialect) (subject delimiter : Fragment) (limit : Int) : Fragment :=
  match dialect with
  | .postgresql =>
    "(STRING_TO_ARRAY(" ++ subject ++ ", " ++ delimiter ++ .number "))[1:" limit "]"
  | .mysql => "JSON_ARRAY(" ++ subject ++ ")"
  | .sqlite => .fail (.sqliteLacks .split)
  | .duckdb => "STRING_SPLIT(" ++ subject ++ ", " ++ delimiter ++ .number ")[1:" limit "]"
  | .bigquery =>
    "ARRAY(SELECT x FROM UNNEST(SPLIT(" ++ subject ++ ", " ++ delimiter ++
      .number ")) AS x WITH OFFSET WHERE OFFSET < " limit ")"

/-- The strings of an array with a delimiter between them. -/
def joinStrings (dialect : Dialect) (array delimiter : Fragment) : Fragment :=
  match dialect with
  | .postgresql => "ARRAY_TO_STRING(" ++ array ++ ", " ++ delimiter ++ ", '')"
  | .mysql => "JSON_UNQUOTE(" ++ array ++ ")"
  | .sqlite => .fail (.sqliteLacks .join)
  | .duckdb | .bigquery => "ARRAY_TO_STRING(" ++ array ++ ", " ++ delimiter ++ ")"

end Dialect

end CelWhere
