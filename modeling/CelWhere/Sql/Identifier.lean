import CelWhere.Cel.Lexer
import CelWhere.Fault
import CelWhere.Sql.Dialect
import CelWhere.Sql.Reserved

/-! # Names of columns and tables

A name starts with a letter of ASCII or an underscore and goes on with letters, digits and
underscores; a line end behind it is tolerated. It may have a greatest length, and it must not be a
reserved word in any case. -/

namespace CelWhere

/-- Whether a text has the form of a name, perhaps with a line end behind it. -/
def isNameText (text : List Char) : Bool :=
  match text with
  | [] => false
  | head :: rest =>
    Lexer.isNameStart head &&
      (rest.dropWhile Lexer.isNameChar = [] || rest.dropWhile Lexer.isNameChar = ['\n'])

/-- The characters of names, also with a line end behind them. -/
theorem isNameChar_of_isNameText {text : List Char} (named : isNameText text) {c : Char}
    (member : c ∈ text) :
    Lexer.isNameChar c ∨ c = '\n' := by
  cases text with
  | nil => simp at member
  | cons head rest =>
    simp only [isNameText, Bool.and_eq_true, Bool.or_eq_true, decide_eq_true_eq] at named
    obtain ⟨start, ending⟩ := named
    have cut : rest.takeWhile Lexer.isNameChar ++ rest.dropWhile Lexer.isNameChar = rest :=
      List.takeWhile_append_dropWhile
    rw [← cut, List.mem_cons, List.mem_append] at member
    rcases member with rfl | inside | last
    · exact .inl (by simp [Lexer.isNameChar, start])
    · exact .inl (List.all_eq_true.mp List.all_takeWhile c inside)
    · rcases ending with none | lineEnd
      · simp [none] at last
      · exact .inr (by simpa [lineEnd] using last)

/-- What a dialect asks of names. -/
structure NameRules where
  /-- The most characters of a name, if there is a limit. -/
  limit : Option Nat
  /-- The words that are no names, in lower case. -/
  reserved : List String
  /-- The language that reserves them, as messages call it. -/
  language : String
  deriving Repr

/-- The name with the letters of ASCII in lower case. -/
def lowerName (name : String) : String :=
  String.ofList (name.toList.map Char.toLower)

/-- What is wrong with a name under some rules. -/
def NameRules.fault? (rules : NameRules) (name : String) : Option Fault :=
  if name = "" then some .emptyName
  else
    match rules.limit.filter (· < name.length) with
    | some limit => some (.longName name limit)
    | none =>
      if !isNameText name.toList then some (.invalidName name)
      else if rules.reserved.contains (lowerName name) then some (.reservedName name rules.language)
      else none

/-- Names without fault are given, short enough, of the form of a name and not reserved. -/
theorem NameRules.fault?_eq_none {rules : NameRules} {name : String} :
    rules.fault? name = none ↔
      name ≠ "" ∧ (∀ limit ∈ rules.limit, name.length ≤ limit) ∧ isNameText name.toList ∧
        lowerName name ∉ rules.reserved := by
  have short : rules.limit.filter (· < name.length) = none ↔
      ∀ limit ∈ rules.limit, name.length ≤ limit := by
    simp [Option.filter_eq_none_iff]
  rw [← short, fault?]
  by_cases given : name = ""
  · simp [given]
  · rw [if_neg given]
    cases rules.limit.filter (· < name.length) with
    | some limit => simp
    | none => by_cases named : isNameText name.toList <;> simp [given, named]

/-- Whatever is wrong with a name is an error of field names. -/
theorem NameRules.faultClass_of_fault? {rules : NameRules} {name : String} {fault : Fault}
    (found : rules.fault? name = some fault) : fault.faultClass = .refused .invalidFieldName := by
  unfold fault? at found
  split at found
  · obtain rfl := Option.some.inj found
    rfl
  · split at found
    · obtain rfl := Option.some.inj found
      rfl
    · split at found
      · obtain rfl := Option.some.inj found
        rfl
      · split at found
        · obtain rfl := Option.some.inj found
          rfl
        · simp at found

/-- The rules for the names of columns in expressions, whatever the dialect. -/
def columnNameRules : NameRules :=
  { limit := some 63, reserved := sharedReserved, language := "SQL" }

/-- What is wrong with the name of a column in an expression. -/
def columnNameFault? (name : String) : Option Fault :=
  columnNameRules.fault? name

/-- The rules of a dialect for names. -/
def Dialect.nameRules : Dialect → NameRules
  | .postgresql => columnNameRules
  | .mysql => { limit := some 64, reserved := mysqlReserved, language := "MySQL" }
  | .sqlite => { limit := none, reserved := sqliteReserved, language := "SQLite" }
  | .duckdb => { limit := none, reserved := duckdbReserved, language := "DuckDB" }
  | .bigquery => { limit := some 300, reserved := bigqueryReserved, language := "BigQuery" }

/-- What is wrong with a name in a dialect. -/
def Dialect.nameFault? (dialect : Dialect) (name : String) : Option Fault :=
  dialect.nameRules.fault? name

/-- The fault of a text, used as described, that has a null byte. -/
def nullByteFault? (usage text : String) : Option Fault :=
  if text.toList.contains '\x00' then some (.nullByte usage text) else none

end CelWhere
