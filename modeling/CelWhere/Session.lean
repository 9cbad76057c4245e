import CelWhere.Limits
import CelWhere.Schema
import CelWhere.Sql.Fragment
import CelWhere.Sql.Literal

/-! # Sessions

A session is what running fragments has produced so far: the text, the bound parameters, and the
place in the expression. Running a fragment continues a session, also when it fails: what was
written stays, and the depth, the nesting and the variables are set back on the way out. -/

namespace CelWhere

/-- A text has no more characters than bytes. -/
theorem length_le_utf8ByteSize (text : List Char) :
    text.length ≤ (String.ofList text).utf8ByteSize := by
  induction text with
  | nil => simp
  | cons c rest ih =>
    have size := c.utf8Size_pos
    have one : (String.ofList [c]).utf8ByteSize = c.utf8Size := String.utf8ByteSize_singleton
    rw [show c :: rest = [c] ++ rest from rfl, String.ofList_append, String.utf8ByteSize_append,
      List.length_append, List.length_singleton]
    omega

/-- What literals become. -/
inductive Mode
  /-- Literals are written out. -/
  | inline
  /-- Literals are bound as parameters. -/
  | parameterized
  deriving DecidableEq, Repr, Inhabited

/-- The settings under which fragments are run. -/
structure Settings where
  /-- The dialect of the text. -/
  dialect : Dialect := .postgresql
  /-- The known schemas. -/
  catalog : Catalog := []
  /-- The greatest depth. -/
  maxDepth : Int := defaultMaxDepth
  /-- The greatest length of the text. -/
  maxLength : Int := defaultMaxLength
  /-- What literals become. -/
  mode : Mode := .inline
  /-- Whether fields must be known to the schemas. -/
  validate : Bool := false
  deriving Repr, Inhabited

/-- What running fragments has produced so far. -/
structure Session where
  /-- The text. -/
  text : String := ""
  /-- The bound parameters. -/
  parameters : Array Literal := #[]
  /-- The number of placeholders written. -/
  placeholders : Nat := 0
  /-- The depth of the expression. -/
  depth : Nat := 0
  /-- The number of comprehensions around the expression. -/
  nesting : Nat := 0
  /-- The bound variables. -/
  scope : List String := []
  deriving Repr, Inhabited

namespace Session

variable (text : String)

/-- The session before anything is written. -/
def fresh : Session := {}

/-- Writes a text. -/
def write (session : Session) (text : String) : Session :=
  { session with text := session.text ++ text }

/-- Binds a parameter and writes its placeholder. -/
def bind (dialect : Dialect) (session : Session) (value : Literal) : Session :=
  let index := session.placeholders + 1
  { session with
    text := session.text ++ dialect.placeholder index
    parameters := session.parameters.push value
    placeholders := index }

/-- Binds a variable. -/
def enter (session : Session) (name : String) : Session :=
  { session with
    scope := if session.scope.contains name then session.scope else name :: session.scope }

/-- Unbinds a variable. -/
def leave (session : Session) (name : String) : Session :=
  { session with scope := session.scope.filter (· ≠ name) }

/-- Whether the text has more characters than a limit. The number of bytes is looked at first,
because it is known without counting and is never smaller. -/
def exceeds (session : Session) (limit : Int) : Bool :=
  limit < session.text.utf8ByteSize && limit < session.text.length

variable (session : Session)

/-- The limit is one on characters. -/
theorem exceeds_iff (limit : Int) : session.exceeds limit ↔ limit < session.text.length := by
  have bytes := length_le_utf8ByteSize session.text.toList
  rw [String.ofList_toList, String.length_toList] at bytes
  simp only [exceeds, Bool.and_eq_true, decide_eq_true_eq]
  omega

/-- The limit that a session has passed. -/
def limitFault? (settings : Settings) (session : Session) : Option Fault :=
  if settings.maxDepth < session.depth then some (.depthExceeded session.depth settings.maxDepth)
  else if session.exceeds settings.maxLength then some (.lengthExceeded settings.maxLength)
  else none

@[simp] theorem write_depth : (session.write text).depth = session.depth :=
  rfl

@[simp] theorem write_nesting :
    (session.write text).nesting = session.nesting := rfl

@[simp] theorem write_scope :
    (session.write text).scope = session.scope := rfl

@[simp] theorem write_parameters :
    (session.write text).parameters = session.parameters := rfl

@[simp] theorem write_text :
    (session.write text).text = session.text ++ text := rfl

end Session

/-- The result of a run: the session it led to, and the fault that ended it early. -/
structure Outcome where
  /-- The session after the run. -/
  session : Session
  /-- The fault, if the run failed. -/
  fault : Option Fault := none
  deriving Repr, Inhabited

namespace Outcome

/-- Goes on from a run that did not fail. -/
def andThen (outcome : Outcome) (next : Session → Outcome) : Outcome :=
  match outcome.fault with
  | none => next outcome.session
  | some _ => outcome

/-- Changes the session of an outcome, whether the run failed or not. -/
def closing (outcome : Outcome) (change : Session → Session) : Outcome :=
  { outcome with session := change outcome.session }

variable (outcome : Outcome)

@[simp] theorem closing_session (change : Session → Session) :
    (outcome.closing change).session = change outcome.session := rfl

@[simp] theorem closing_fault (change : Session → Session) :
    (outcome.closing change).fault = outcome.fault := rfl

end Outcome

/-- The text of a literal that is written out, unless it is too long for that. -/
def Literal.inlineText (dialect : Dialect) : Literal → Except Fault String
  | .int value =>
    if Integer.tooLongToWrite value then .error .unwritableInteger else .ok (Integer.toText value)
  | .float source _ => .ok source
  | .string value => .ok (dialect.stringLiteral value)
  | .bytes value =>
    if bytesLimit < value.length then .error (.bytesTooLong value.length)
    else .ok (dialect.bytesLiteral value)

/-- An integer that is written out is written by its digits. -/
theorem Literal.inlineText_int {dialect : Dialect} {value : Int} {text : String}
    (written : (Literal.int value).inlineText dialect = .ok text) :
    text = Integer.toText value := by
  rw [inlineText] at written
  split at written
  · simp at written
  · exact (Except.ok.inj written).symm

/-- Bytes that are written out are written as a literal of the dialect. -/
theorem Literal.inlineText_bytes {dialect : Dialect} {value : List UInt8} {text : String}
    (written : (Literal.bytes value).inlineText dialect = .ok text) :
    text = dialect.bytesLiteral value := by
  rw [inlineText] at written
  split at written
  · simp at written
  · exact (Except.ok.inj written).symm

/-- The fault of a field that the schemas do not have. -/
def Catalog.unknownFault? (catalog : Catalog) (table field : String) : Option Fault :=
  match catalog.table? table with
  | none => some (.unknownTable table)
  | some schema => if (schema.find? field).isSome then none else some (.unknownField table field)

/-- A field that the schemas do not have is an error of the schemas. -/
theorem Catalog.faultClass_of_unknownFault? {catalog : Catalog} {table field : String}
    {fault : Fault} (found : catalog.unknownFault? table field = some fault) :
    fault.faultClass = .refused .invalidSchema := by
  unfold unknownFault? at found
  split at found
  · obtain rfl := Option.some.inj found
    rfl
  · split at found
    · simp at found
    · obtain rfl := Option.some.inj found
      rfl

namespace Fragment

/-- Runs a fragment. -/
def run (settings : Settings) : Fragment → Session → Outcome
  | .text sql, session => { session := session.write sql }
  | .literal value, session =>
    match settings.mode with
    | .parameterized => { session := session.bind settings.dialect value }
    | .inline =>
      match value.inlineText settings.dialect with
      | .ok spelling => { session := session.write spelling }
      | .error fault => { session, fault := some fault }
  | .append first second, session => (first.run settings session).andThen (second.run settings)
  | .nested body, session =>
    let deeper := { session with depth := session.depth + 1 }
    match deeper.limitFault? settings with
    | some fault => { session, fault := some fault }
    | none =>
      (body.run settings deeper).closing fun after => { after with depth := after.depth - 1 }
  | .comprehension body, session =>
    if comprehensionLimit ≤ session.nesting then
      { session, fault := some (.comprehensionDepthExceeded session.nesting) }
    else
      (body.run settings { session with nesting := session.nesting + 1 }).closing fun after =>
        { after with nesting := after.nesting - 1 }
  | .binding name body, session => (body.run settings (session.enter name)).closing (·.leave name)
  | .unlessBound name fault, session =>
    { session, fault := if session.scope.contains name then none else some fault }
  | .known table field, session =>
    { session
      fault :=
        if settings.validate && !session.scope.contains table then
          settings.catalog.unknownFault? table field
        else none }
  | .fail fault, session => { session, fault := some fault }

end Fragment

end CelWhere
