import CelWhere.Sql.Identifier
import CelWhere.Sql.Like
import CelWhere.Sql.Literal
import CelWhere.Sql.Regex
import CelWhere.Workload.Report

/-! # Workloads of patterns and names -/

namespace CelWhere.Workload

/-- Patterns, accepted and refused ones, filled up to about a length. -/
def patterns (length : Int) : List String :=
  let filler := repeated "abcde" (length / 5).toNat
  ["^[a-z]+$" ++ filler, "(?i)ABC" ++ filler, "\\d+\\w*\\s?" ++ filler ++ "\\D\\W\\S\\b\\B",
    "(?:foo|bar)" ++ filler, "(a)(b)(c)" ++ filler, "[^abc]+" ++ filler, repeated "x" 600,
    "(?=look)" ++ filler, "(?P<n>x)" ++ filler, "(?m)foo" ++ filler, "(a+)+" ++ filler,
    repeated "(" 12 ++ "a" ++ repeated ")" 12, repeated "(a)" 25, "abc\x00def"]

/-- A converted pattern, or the internal text of the fault. -/
def patternReport : Except Fault Regex.Converted → Report
  | .ok converted =>
    .list [.text (String.ofList converted.pattern), .flag converted.caseInsensitive]
  | .error fault => .text fault.internal

/-- A name, or the message of its fault. -/
def nameReport (name : String) : Report :=
  match columnNameFault? name with
  | none => .text name
  | some fault => .text fault.message

/-- Converts patterns several times over, escapes texts and checks names. -/
def convertPatterns (length : Int) : List Report :=
  let once := (patterns length).flatMap fun pattern =>
    [patternReport (Regex.posix pattern.toList), patternReport (Regex.native pattern.toList),
      patternReport (Regex.icu pattern.toList)]
  let escaped := ["a_b%c\\d'e", "plain", "100%_"].flatMap fun text =>
    [likePattern text.toList, doubleQuotes text.toList, doubleQuotes text.toList].map fun escaped =>
      Report.text (String.ofList escaped)
  let names := ["col", "snake_case", "CamelCase", "_leading", "", repeated "x" 100, "1bad",
    "select", "has space"]
  (List.replicate 6 once).flatten ++ escaped ++ names.map nameReport

end CelWhere.Workload
