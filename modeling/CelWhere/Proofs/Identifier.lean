import CelWhere.Introspect.Tables
import CelWhere.Proofs.Lexical.Text
import Mathlib.Data.List.TakeWhile

/-! # The form of names

Names are checked by one expression, whose end may stand before a last line end. So besides plain
names the checks let names with a line end behind them pass, which are then no reserved words
either.

* `IsPlainName` — the form that names are meant to have;
* `NameRules.fault?_eq_none_iff` — the names that pass under some rules;
* `Introspect.mem_sqliteFrom` — the tables that SQLite is asked for. -/

namespace CelWhere

variable {text : List Char}

/-- A letter of ASCII or an underscore, and then letters, digits and underscores. -/
def IsPlainName (text : List Char) : Prop :=
  ∃ head rest, text = head :: rest ∧ (head.isAlpha ∨ head = '_') ∧ ∀ c ∈ rest, c.isAlphanum ∨
    c = '_'

/-- A plain name with a line end behind it. -/
def IsNameLine (text : List Char) : Prop :=
  ∃ stem, text = stem ++ ['\n'] ∧ IsPlainName stem

/-- The names that pass under some rules. -/
structure NameRules.Accepts (rules : NameRules) (name : String) : Prop where
  /-- They are given. -/
  given : name ≠ ""
  /-- They are short enough, with the line end. -/
  short : ∀ limit ∈ rules.limit, name.length ≤ limit
  /-- They have the form of names. -/
  form : IsPlainName name.toList ∨ IsNameLine name.toList
  /-- They are not reserved, as they stand. -/
  free : Text.lower name ∉ rules.reserved

/-! ## Characters -/

/-- Names start with letters and underscores. -/
theorem isNameStart_iff {c : Char} : Lexer.isNameStart c ↔ c.isAlpha ∨ c = '_' := by
  unfold Char.isAlpha Char.isUpper Char.isLower
  simp only [Lexer.isNameStart, Char.le_def, Bool.or_eq_true, Bool.and_eq_true, decide_eq_true_eq,
    ge_iff_le, or_comm, or_left_comm]

/-- Names go on with letters, digits and underscores. -/
theorem isNameChar_iff {c : Char} : Lexer.isNameChar c ↔ c.isAlphanum ∨ c = '_' := by
  have digit : Text.isPlainDigit c ↔ c.isDigit := by
    simp [Text.isPlainDigit, Char.isDigit, Char.le_def]
  rw [Lexer.isNameChar, Bool.or_eq_true, isNameStart_iff, digit, Char.isAlphanum, Bool.or_eq_true,
    or_right_comm]

/-- The characters of plain names. -/
theorem IsPlainName.isNameChar (plain : IsPlainName text) : ∀ c ∈ text, Lexer.isNameChar c := by
  obtain ⟨head, rest, rfl, start, others⟩ := plain
  rw [List.forall_mem_cons]
  refine ⟨by simp [Lexer.isNameChar, isNameStart_iff.mpr start],
    fun c member => isNameChar_iff.mpr (others c member)⟩

/-- The check lets plain names pass, and plain names with a line end behind them. -/
theorem isNameText_iff : isNameText text ↔ IsPlainName text ∨ IsNameLine text := by
  cases text with
  | nil => simp [isNameText, IsPlainName, IsNameLine]
  | cons head rest =>
    simp only [isNameText, Bool.and_eq_true, Bool.or_eq_true, decide_eq_true_eq, isNameStart_iff]
    constructor
    · rintro ⟨start, all | line⟩
      · rw [List.dropWhile_eq_nil_iff] at all
        exact .inl ⟨head, rest, rfl, start, fun c member => isNameChar_iff.mp (all c member)⟩
      · refine .inr ⟨head :: rest.takeWhile Lexer.isNameChar, ?_, head, _, rfl, start,
          fun c member => ?_⟩
        · rw [List.cons_append, ← line, List.takeWhile_append_dropWhile]
        · exact isNameChar_iff.mp (List.all_eq_true.mp List.all_takeWhile c member)
    · rintro (⟨first, others, same, start, chars⟩ | ⟨stem, same, first, others, rfl, start, chars⟩)
      · obtain ⟨rfl, rfl⟩ := List.cons.inj same
        exact ⟨start, .inl (List.dropWhile_eq_nil_iff.mpr fun c member =>
          isNameChar_iff.mpr (chars c member))⟩
      · rw [List.cons_append] at same
        obtain ⟨rfl, rfl⟩ := List.cons.inj same
        refine ⟨start, .inr ?_⟩
        rw [List.dropWhile_append_of_pos fun c member => isNameChar_iff.mpr (chars c member)]
        rfl

/-! ## Rules -/

/-- Characters of names are those of ASCII, and so is a line end. -/
theorem ascii_of_isNameText (named : isNameText text) : ∀ c ∈ text, c.toNat < 128 := by
  intro c member
  rcases isNameChar_of_isNameText named member with isName | rfl
  · exact (Lexical.isNameChar_case isName).1
  · decide

/-- The names without fault are those that pass. -/
theorem NameRules.fault?_eq_none_iff (rules : NameRules) (name : String) :
    rules.fault? name = none ↔ rules.Accepts name := by
  have lower (named : isNameText name.toList) : Text.lower name = lowerName name := by
    rw [Text.lower, lowerName, Lexical.lowerFrom_ascii (ascii_of_isNameText named)]
  rw [fault?_eq_none]
  constructor
  · rintro ⟨given, short, named, free⟩
    exact ⟨given, short, isNameText_iff.mp named, lower named ▸ free⟩
  · rintro ⟨given, short, form, free⟩
    have named := isNameText_iff.mpr form
    exact ⟨given, short, named, lower named ▸ free⟩

/-! ## Tables of SQLite -/

namespace Introspect

/-- The request for the columns of a table. -/
def pragma (table : String) : Request :=
  .execute ("PRAGMA table_info(" ++ table ++ ")") none

variable (connection : Connection) (jsonColumns : List (String × List String))
  {tables : List String} {requests : List Request} {catalog : Catalog}

/-- The requests that were made stay in front. -/
theorem prefix_sqliteFrom :
    requests <+: (sqliteFrom connection jsonColumns tables requests catalog).requests := by
  fun_induction sqliteFrom connection jsonColumns tables requests catalog with
  | case1 | case2 => exact List.prefix_rfl
  | case3 | case4 => exact List.prefix_append _ _
  | case5 table rest requests catalog named made working fields columns ih =>
    exact (List.prefix_append _ _).trans ih

/-- Each new request is for one of the tables, which passes the check of names. -/
theorem mem_sqliteFrom {request : Request}
    (made : request ∈ (sqliteFrom connection jsonColumns tables requests catalog).requests) :
    request ∈ requests ∨ ∃ table ∈ tables, request = pragma table ∧ isNameText table.toList := by
  -- The request of a step is for the first table.
  have own {table : String} {rest : List String} {earlier : List Request}
      (named : isNameText table.toList)
      (member : request ∈ earlier ++ [pragma table]) :
      request ∈ earlier ∨ ∃ other ∈ table :: rest, request = pragma other ∧
        isNameText other.toList := by
    rcases List.mem_append.mp member with before | here
    · exact .inl before
    · exact .inr ⟨table, .head _, List.mem_singleton.mp here, named⟩
  fun_induction sqliteFrom connection jsonColumns tables requests catalog with
  | case1 | case2 => exact .inl made
  | case3 table rest earlier catalog named | case4 table rest earlier catalog named =>
    exact own (by simpa using named) made
  | case5 table rest earlier catalog named asked working found fields ih =>
    rcases ih made with before | ⟨other, later, isOther, named⟩
    · exact own (by simpa using named) before
    · exact .inr ⟨other, .tail _ later, isOther, named⟩

/-- The first table is asked for if its name passes the check. -/
theorem pragma_mem_sqliteFrom {table : String} (named : isNameText table.toList)
    (rest : List String) :
    pragma table ∈ (sqliteFrom connection jsonColumns
      (table :: rest) requests catalog).requests := by
  have asked : pragma table ∈ requests ++ [pragma table] := by simp
  rw [sqliteFrom, if_neg (by simp [named])]
  split
  · exact asked
  · split
    · exact asked
    · exact (prefix_sqliteFrom connection jsonColumns).subset asked

end Introspect

/-- **What passes as a name.** The shared check and those of the dialects accept exactly the names
that are given, short enough, plain or plain with a line end behind them, and not reserved. SQLite
is asked only for tables whose names have one of the two forms, and for the first table if its name
has one. -/
theorem names_accepted (name : String) :
    (columnNameFault? name = none ↔ columnNameRules.Accepts name) ∧
      (∀ dialect : Dialect, dialect.nameFault? name = none ↔ dialect.nameRules.Accepts name) ∧
      ∀ (connection : Introspect.Connection) (jsonColumns : List (String × List String))
      (tables : List String),
        (∀ request ∈ (Introspect.sqlite connection jsonColumns tables).requests, ∃ table ∈ tables,
          request = Introspect.pragma table ∧
          (IsPlainName table.toList ∨ IsNameLine table.toList)) ∧
        (IsPlainName name.toList ∨ IsNameLine name.toList →
          Introspect.pragma name ∈ (Introspect.sqlite connection jsonColumns
            (name :: tables)).requests) := by
  refine ⟨NameRules.fault?_eq_none_iff _ name, fun dialect => NameRules.fault?_eq_none_iff _ name,
    fun connection jsonColumns tables => ⟨fun request made => ?_, fun named => ?_⟩⟩
  · rcases Introspect.mem_sqliteFrom connection jsonColumns made with
      none | ⟨table, member, isTable, named⟩
    · cases none
    · exact ⟨table, member, isTable, isNameText_iff.mp named⟩
  · exact Introspect.pragma_mem_sqliteFrom connection jsonColumns (isNameText_iff.mpr named) tables

/-- A name and a reserved word, each with a line end behind it: neither is plain, but both pass. -/
theorem lineEnd_accepted :
    (∀ name ∈ ["name\n", "select\n"], ¬IsPlainName name.toList ∧ columnNameFault? name = none ∧
      ∀ dialect : Dialect, dialect.nameFault? name = none) ∧
      (Introspect.sqlite {} [] ["name\n"]).requests = [Introspect.pragma "name\n"] := by
  have passes : ∀ name ∈ ["name\n", "select\n"], columnNameFault? name = none ∧
      ∀ dialect ∈ Dialect.all, dialect.nameFault? name = none := by decide +kernel
  have line : ∀ name ∈ ["name\n", "select\n"], '\n' ∈ name.toList := by decide
  refine ⟨fun name member => ⟨fun plain => ?_, ?_⟩, rfl⟩
  · exact absurd (plain.isNameChar _ (line name member)) (by decide)
  · exact (passes name member).imp_right fun each dialect => each dialect dialect.mem_all

end CelWhere
