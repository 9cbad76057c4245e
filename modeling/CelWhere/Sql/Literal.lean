import CelWhere.Sql.Dialect
import CelWhere.Sql.Fragment
import CelWhere.Text.Quoted

/-! # Literals and placeholders

Strings are quoted by doubling the quotes inside; BigQuery puts a backslash before quotes and
backslashes instead. Bytes are written by their codes. -/

namespace CelWhere

/-- A text with its single quotes doubled. -/
def doubleQuotes (text : List Char) : List Char :=
  text.flatMap fun c => if c = '\'' then ['\'', '\''] else [c]

@[simp] theorem doubleQuotes_nil : doubleQuotes [] = [] := rfl

@[simp] theorem doubleQuotes_append (first second : List Char) :
    doubleQuotes (first ++ second) = doubleQuotes first ++ doubleQuotes second :=
  List.flatMap_append

/-- A text with a backslash before its backslashes and single quotes. -/
def backslashQuotes (text : List Char) : List Char :=
  text.flatMap fun c => if c = '\\' || c = '\'' then ['\\', c] else [c]

@[simp] theorem backslashQuotes_nil : backslashQuotes [] = [] := rfl

/-- A number below 512 as three octal digits. -/
def octalTriple (value : Nat) : List Char :=
  [value / 64, value / 8 % 8, value % 8].map fun digit => Char.ofNat ('0'.toNat + digit)

/-- Bytes as hexadecimal digits in upper case. -/
def upperHex (bytes : List UInt8) : List Char :=
  bytes.flatMap fun byte => (Text.hexPair byte.toNat).map Char.toUpper

namespace Dialect

/-- The escaped inside of a string literal. -/
def escapeString (dialect : Dialect) (text : String) : String :=
  String.ofList <| match dialect with
    | .bigquery => backslashQuotes text.toList
    | _ => doubleQuotes text.toList

/-- A string literal. -/
def stringLiteral (dialect : Dialect) (text : String) : String :=
  "'" ++ dialect.escapeString text ++ "'"

/-- A bytes literal. -/
def bytesLiteral (dialect : Dialect) (bytes : List UInt8) : String :=
  match dialect with
  | .postgresql | .duckdb => "'\\x" ++ String.ofList (upperHex bytes) ++ "'"
  | .mysql | .sqlite => "X'" ++ String.ofList (upperHex bytes) ++ "'"
  | .bigquery =>
    "b\"" ++ String.ofList (bytes.flatMap fun byte => '\\' :: octalTriple byte.toNat) ++ "\""

/-- The placeholder of the parameter with a number, counted from one. -/
def placeholder (dialect : Dialect) (index : Int) : String :=
  match dialect with
  | .postgresql | .duckdb => "$" ++ Integer.toText index
  | .mysql | .sqlite => "?"
  | .bigquery => "@p" ++ Integer.toText index

end Dialect

end CelWhere
