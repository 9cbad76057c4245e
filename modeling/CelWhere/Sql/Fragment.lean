import CelWhere.Fault
import CelWhere.Number.Binary64

/-! # Fragments of SQL

A fragment is a recipe for SQL text. Besides fixed text it has slots for literals, which are written
out or bound as parameters when the fragment is run; it marks where a nested expression, a
comprehension or the scope of a variable begins and ends; and it holds the checks that are made on
the way. A failing check keeps what was written before it. -/

namespace CelWhere

/-- A literal value of an expression. -/
inductive Literal
  /-- An integer. -/
  | int (value : Int)
  /-- A double, with the text it was read from. -/
  | float (source : String) (value : Binary64)
  /-- A string. -/
  | string (value : String)
  /-- Bytes. -/
  | bytes (value : List UInt8)
  deriving DecidableEq, Repr, Inhabited

/-- A recipe for SQL text. -/
inductive Fragment
  /-- Fixed text. -/
  | text (sql : String)
  /-- A literal. -/
  | literal (value : Literal)
  /-- One fragment and then another. -/
  | append (first second : Fragment)
  /-- An expression one level deeper. -/
  | nested (body : Fragment)
  /-- A comprehension. -/
  | comprehension (body : Fragment)
  /-- The scope of a variable. -/
  | binding (name : String) (body : Fragment)
  /-- A check that fails unless the variable is bound. -/
  | unlessBound (name : String) (fault : Fault)
  /-- A check that the schemas have the field, made if validation is on and the table is no
  variable. -/
  | known (table field : String)
  /-- A check that always fails. -/
  | fail (fault : Fault)
  deriving Repr, Inhabited

namespace Fragment

instance : Append Fragment := ⟨.append⟩

theorem append_eq (first second : Fragment) : first ++ second = .append first second := rfl

instance : Coe String Fragment := ⟨.text⟩

/-- The fragment that writes nothing. -/
def empty : Fragment := .text ""

/-- Continues with a result, or fails with its fault. -/
def attempt {α : Type} (result : Except Fault α) (next : α → Fragment) : Fragment :=
  match result with
  | .ok value => next value
  | .error fault => .fail fault

/-- Text around the decimal digits of a number; the whole fails for a number with too many
digits. -/
def number (before : String) (value : Int) (after : String) : Fragment :=
  if Integer.tooLongToWrite value then .fail .unwritableInteger
  else .text (before ++ Integer.toText value ++ after)

/-- Fragments one after the other with a text between them. -/
def join (separator : String) : List Fragment → Fragment
  | [] => empty
  | [fragment] => fragment
  | fragment :: rest => fragment ++ separator ++ join separator rest

@[simp] theorem attempt_ok {α : Type} (value : α) (next : α → Fragment) :
    attempt (.ok value) next = next value := rfl

@[simp] theorem attempt_error {α : Type} (fault : Fault) (next : α → Fragment) :
    attempt (.error fault) next = .fail fault := rfl

end Fragment

end CelWhere
