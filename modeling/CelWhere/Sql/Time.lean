import CelWhere.Number.Shortest
import CelWhere.Sql.Dialect
import CelWhere.Sql.Fragment
import CelWhere.Text.LetterCase

/-! # Times and durations

SQLite has no intervals: a duration is a modifier text there, in seconds if the unit is finer. -/

namespace CelWhere

/-- The unit of an SQLite modifier: in lower case and without the letter of the plural. -/
def modifierUnit (unit : String) : String :=
  let lowered := (Text.lower unit).toList
  String.ofList (if lowered.getLast? = some 's' then lowered.dropLast else lowered)

/-- An SQLite modifier by a fraction of seconds. -/
def secondsModifier (value : Int) (perSecond : Nat) : Fragment :=
  match Binary64.ofInt? value with
  | some double => .text ("'+" ++ (double.divideBy perSecond).shortest ++ " seconds'")
  | none => .fail .floatOverflow

/-- The conversion by which SQLite formats a part of a date. -/
def dateFormat? : String → Option String
  | "YEAR" => some "%Y"
  | "MONTH" => some "%m"
  | "DAY" => some "%d"
  | "HOUR" => some "%H"
  | "MINUTE" => some "%M"
  | "SECOND" => some "%S"
  | "DOY" => some "%j"
  | "DOW" => some "%w"
  | "MILLISECONDS" => some "%f"
  | _ => none

namespace Dialect

/-- A fixed duration in a unit. -/
def duration (dialect : Dialect) (value : Int) (unit : String) : Fragment :=
  match dialect with
  | .sqlite =>
    match modifierUnit unit with
    | "millisecond" => secondsModifier value 1000
    | "microsecond" => secondsModifier value 1000000
    | "nanosecond" => secondsModifier value 1000000000
    | modifier => .number "'+" value (" " ++ modifier ++ "s'")
  | _ => .number "INTERVAL " value (" " ++ unit)

/-- A computed duration in a unit. -/
def interval (dialect : Dialect) (value : Fragment) (unit : String) : Fragment :=
  match dialect with
  | .sqlite => "'+' || " ++ value ++ (" || ' " ++ modifierUnit unit ++ "s'" : String)
  | _ => "INTERVAL " ++ value ++ (" " ++ unit : String)

/-- The part of a timestamp taken with `EXTRACT`, in a time zone if one is given. -/
def extractPart (part : String) (value : Fragment) (zone : Option Fragment) : Fragment :=
  let subject := ("EXTRACT(" ++ part ++ " FROM " : String) ++ value
  match zone with
  | some zone => subject ++ " AT TIME ZONE " ++ zone ++ ")"
  | none => subject ++ ")"

/-- A part of a timestamp, in a time zone if one is given and the dialect knows them. -/
def extract (dialect : Dialect) (part : String) (value : Fragment) (zone : Option Fragment) :
    Fragment :=
  match dialect with
  | .postgresql | .duckdb => extractPart part value zone
  | .bigquery => extractPart (if part = "DOW" then "DAYOFWEEK" else part) value zone
  | .mysql =>
    if part = "DOW" then "(DAYOFWEEK(" ++ value ++ ") + 5) % 7" else extractPart part value none
  | .sqlite =>
    match dateFormat? part with
    | some format => ("CAST(strftime('" ++ format ++ "', " : String) ++ value ++ ") AS INTEGER)"
    | none => extractPart part value none

/-- A timestamp moved by a duration. -/
def timestampArithmetic (dialect : Dialect) (operator : String) (time duration : Fragment) :
    Fragment :=
  match dialect with
  | .postgresql | .mysql | .duckdb => time ++ (" " ++ operator ++ " " : String) ++ duration
  | .sqlite =>
    "datetime(" ++ time ++ ", " ++
      (if operator = "-" then "REPLACE(" ++ duration ++ ", '+', '-')" else duration) ++ ")"
  | .bigquery =>
    (if operator = "+" then "TIMESTAMP_ADD(" else "TIMESTAMP_SUB(") ++ time ++ ", " ++
      duration ++ ")"

end Dialect

end CelWhere
