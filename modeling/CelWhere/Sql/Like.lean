import CelWhere.Sql.Dialect
import CelWhere.Sql.Fragment

/-! # LIKE patterns

In a pattern a backslash stands before the characters that would otherwise match anything, and
quotes are doubled because the pattern is written between quotes. -/

namespace CelWhere

/-- A text as a pattern that matches only itself, ready to stand between single quotes. -/
def likePattern (text : List Char) : List Char :=
  text.flatMap fun c =>
    if c = '\\' || c = '%' || c = '_' then ['\\', c] else if c = '\'' then ['\'', '\''] else [c]

@[simp] theorem likePattern_nil : likePattern [] = [] := rfl

/-- The clause that names the escape character of a pattern. -/
def Dialect.likeEscape : Dialect → String
  | .postgresql => " ESCAPE E'\\\\'"
  | .mysql => " ESCAPE '\\\\'"
  | .sqlite | .duckdb => " ESCAPE '\\'"
  | .bigquery => ""

/-- The test that a string starts with a text. -/
def Dialect.startsWith (dialect : Dialect) (subject : Fragment) (text : String) : Fragment :=
  subject ++ (" LIKE '" ++ String.ofList (likePattern text.toList) ++ "%'" : String) ++
    dialect.likeEscape

/-- The test that a string ends with a text. -/
def Dialect.endsWith (dialect : Dialect) (subject : Fragment) (text : String) : Fragment :=
  subject ++ (" LIKE '%" ++ String.ofList (likePattern text.toList) ++ "'" : String) ++
    dialect.likeEscape

end CelWhere
