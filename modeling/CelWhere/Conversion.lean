import CelWhere.Cel.Parser
import CelWhere.Convert.Basic
import CelWhere.Index.Advice
import CelWhere.Session

/-! # Conversion of expressions

Expressions are read, converted into a fragment, and the fragment is run. -/

namespace CelWhere

/-- Why an expression was not converted. -/
inductive Failure
  /-- The text is no expression. -/
  | unreadable
  /-- The conversion failed. -/
  | fault (cause : Fault)
  deriving DecidableEq, Repr

/-- An SQL condition with the parameters bound to its placeholders. -/
structure Condition where
  /-- The text of the condition. -/
  sql : String
  /-- The bound parameters in order. -/
  parameters : Array Literal := #[]
  deriving Repr, Inhabited

namespace Settings

/-- What a conversion under these settings depends on. -/
def context (settings : Settings) : Context :=
  ⟨settings.dialect, settings.catalog⟩

/-- The fault of settings that ask for validation without a schema. -/
def fault? (settings : Settings) : Option Fault :=
  if settings.validate && settings.catalog.isEmpty then some .noSchemas else none

/-- Converts a tree, continuing a session. -/
def visit (settings : Settings) (session : Session) (tree : Tree) : Outcome :=
  (settings.context.fragment tree).run settings session

/-- Converts trees one after the other, continuing a session also after a failure. -/
def visitAll (settings : Settings) : Session → List Tree → List Outcome
  | _, [] => []
  | session, tree :: rest =>
    let outcome := settings.visit session tree
    outcome :: settings.visitAll outcome.session rest

/-- Converts a tree from the start. -/
def convertTree (settings : Settings) (tree : Tree) : Except Fault Condition :=
  match settings.fault? with
  | some fault => .error fault
  | none =>
    let outcome := settings.visit .fresh tree
    match outcome.fault with
    | some fault => .error fault
    | none => .ok ⟨outcome.session.text, outcome.session.parameters⟩

/-- Reads an expression and goes on with its tree. -/
def withTree {α : Type} (expression : String) (next : Tree → Except Fault α) : Except Failure α :=
  match parse? expression with
  | none => .error .unreadable
  | some tree =>
    match next tree with
    | .ok value => .ok value
    | .error fault => .error (.fault fault)

/-- Converts an expression into a condition, under the mode of the settings. -/
def convertIn (settings : Settings) (expression : String) : Except Failure Condition :=
  withTree expression settings.convertTree

/-- Converts an expression into the text of a condition with its literals written out. -/
def convert (settings : Settings) (expression : String) : Except Failure String :=
  (({ settings with mode := .inline } : Settings).convertIn expression).map (·.sql)

/-- Converts an expression into a condition with its literals bound as parameters. -/
def convertParameterized (settings : Settings) (expression : String) : Except Failure Condition :=
  ({ settings with mode := .parameterized } : Settings).convertIn expression

/-- Converts a tree into the text of a condition and recommends indexes for it. -/
def analyzeTree (settings : Settings) (tree : Tree) :
    Except Fault (String × List Index.Recommendation) := do
  let condition ← ({ settings with mode := .inline } : Settings).convertTree tree
  match Index.advisor? settings.dialect with
  | none => return (condition.sql, [])
  | some advisor => return (condition.sql, (← Index.adviseTree advisor settings.catalog tree).2)

/-- Converts an expression into the text of a condition and recommends indexes for it. -/
def analyze (settings : Settings) (expression : String) :
    Except Failure (String × List Index.Recommendation) :=
  withTree expression settings.analyzeTree

end Settings

/-- The dialect of a name. -/
def Dialect.ofName (name : String) : Except Fault Dialect :=
  match Dialect.ofName? name with
  | some dialect => .ok dialect
  | none => .error (.unknownDialect name)

end CelWhere
