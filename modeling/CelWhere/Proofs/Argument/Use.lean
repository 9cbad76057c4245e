import CelWhere.Proofs.Blame.Basic
import CelWhere.Proofs.Inclusion

/-! # Uses of arguments

The conversion of a call converts an argument, reads it off if it is a literal or a name, or leaves
it out. A table says which of these is done in each place of each call.

* `Call`, `Tree.Calls` — calls of functions and methods, and their trees;
* `Use`, `Call.uses` — what is done with an argument, and the table;
* `Use.Met` — what that means for the fragment of the call;
* `Fragment.Serves` — the fragment of a call writes something and does with the arguments what the
  table says. -/

namespace CelWhere

/-! ## Calls -/

/-- The call of a function, or of a method if there is a receiver. -/
structure Call where
  /-- What the method is called on. -/
  receiver : Option Tree
  /-- The name of the function or the method. -/
  name : String
  /-- The arguments. -/
  arguments : List Tree

/-- A tree is a call. -/
inductive Tree.Calls : Tree → Call → Prop
  /-- The call of a function. -/
  | function {name : Tree} {rest arguments : List Tree} : argumentsOf rest = .ok arguments →
    Calls (.node .identArg (name :: rest)) ⟨none, name.nameText, arguments⟩
  /-- The call of a method. -/
  | method {object name : Tree} {rest arguments : List Tree} : argumentsOf rest = .ok arguments →
    Calls (.node .memberDotArg (object :: name :: rest)) ⟨some object, name.nameText, arguments⟩

/-- What is done with an argument of a call. -/
inductive Use
  /-- It is converted. -/
  | visited
  /-- It is a string literal. -/
  | text
  /-- It is an integer literal. -/
  | number
  /-- It is the name of a variable. -/
  | name
  /-- It is a unit of time: a literal or a name. -/
  | unit
  /-- It is a list whose items are converted. -/
  | list
  /-- It is tested for its presence: it is converted, or it is a selection of which the object or
  the path is. -/
  | tested
  /-- It is left out. -/
  | dropped
  deriving DecidableEq

namespace Use

/-- A position is read off if it is a literal. -/
def ofPosition (argument : Tree) : Use :=
  if argument.intLiteral?.isSome then .number else .visited

/-- The limit of a replacement is left out if it is no literal. -/
def ofLimit (argument : Tree) : Use :=
  if argument.intLiteral?.isSome then .number else .dropped

/-- The values of a format are left out if they are no list. -/
def ofList (argument : Tree) : Use :=
  if (argument.unwrap? .listLit).isSome then .list else .dropped

/-- The delimiter of a split is left out if at most one part is asked for. -/
def ofDelimiter (limit : Tree) : Use :=
  let read := limit.intLiteral?.bind fun token => (readInteger .decimal token.text).toOption
  if read = some 0 ∨ read = some 1 then .dropped else .visited

/-- All arguments but the first one are left out. -/
def ofFirst (arguments : List Tree) : List Use :=
  (arguments.take 1).map (fun _ => .visited) ++ (arguments.drop 1).map fun _ => .dropped

/-- The uses of the arguments of a method. -/
def ofMethod (arguments : List Tree) : String → List Use
  | "all" | "exists" | "exists_one" | "map" | "filter" =>
    .name :: arguments.tail.map fun _ => .visited
  | "contains" | "join" => arguments.map fun _ => .visited
  | "startsWith" | "endsWith" | "matches" => arguments.map fun _ => .text
  | "charAt" | "substring" => arguments.map ofPosition
  | "indexOf" => .visited :: arguments.tail.map ofPosition
  | "replace" => .visited :: .visited :: (arguments.drop 2).map ofLimit
  | "split" =>
    match arguments with
    | [_, limit] => [ofDelimiter limit, .number]
    | _ => [.visited]
  | "format" => arguments.map ofList
  | "size" | "lowerAscii" | "upperAscii" | "trim" | "reverse" => arguments.map fun _ => .dropped
  | "lastIndexOf" => ofFirst arguments
  | method => if (Convert.timestampPart? method).isSome then ofFirst arguments else []

theorem ofMethod_replace (arguments : List Tree) :
    ofMethod arguments "replace" = .visited :: .visited :: (arguments.drop 2).map ofLimit :=
  rfl

theorem ofMethod_format (arguments : List Tree) :
    ofMethod arguments "format" = arguments.map ofList :=
  rfl

/-- The uses of the arguments of a function. -/
def ofFunction (arguments : List Tree) : String → List Use
  | "has" => [.tested]
  | "size" => arguments.map fun _ => if arguments.length = 1 then .visited else .dropped
  | "matches" => if arguments.length = 2 then [.visited, .text] else arguments.map fun _ => .visited
  | "duration" => [.text]
  | "interval" => [.visited, .unit]
  | _ => arguments.map fun _ => .visited

end Use

namespace Call

/-- The uses of the arguments of a call. -/
def uses (call : Call) : List Use :=
  if call.receiver.isSome then Use.ofMethod call.arguments call.name
    else Use.ofFunction call.arguments call.name

/-- Nothing is written for the size of anything but one value. -/
def IsEmpty (call : Call) : Prop :=
  call.receiver = none ∧ call.name = "size" ∧ call.arguments.length ≠ 1

/-- A call with another argument in a place. -/
def put (call : Call) (place : Nat) (argument : Tree) : Call :=
  { call with arguments := call.arguments.set place argument }

/-- The fragment of a call. -/
def fragment (context : Context) (call : Call) : Fragment :=
  let child := context.child
  match call.receiver with
  | none => Convert.callFunction context child call.name call.arguments
  | some object => Convert.callMethod context child object call.name call.arguments

end Call

/-- The tree of a call is converted as the call. -/
theorem Tree.Calls.fragment_eq {tree : Tree} {call : Call} (isCall : tree.Calls call)
    (context : Context) :
    context.fragment tree = call.fragment context := by
  rw [context.fragment_eq]
  cases isCall with
  | function given => simp [Convert.step, Convert.functionCall, given, Call.fragment]
  | method given => simp [Convert.step, Convert.methodCall, given, Call.fragment]

/-! ## Arguments in fragments -/

open Fragment

/-- The items of a list with certain children. -/
def listItems : List Tree → List Tree
  | .node .exprList items :: _ => items
  | _ => []

/-- What is done with an argument is done in the fragment of its call. -/
def Use.Met (context : Context) (fragment : Fragment) (argument : Tree) : Use → Prop
  | .visited => fragment.Includes (.nested (context.fragment argument))
  | .text => argument.stringLiteral?.isSome
  | .number => argument.intLiteral?.isSome
  | .name => ∃ name, argument.identName = .ok name
  | .unit => argument.givenLiteral?.isSome ∨ (argument.unwrap? .ident).isSome
  | .list => ∃ children, argument.unwrap? .listLit = some children ∧
    ∀ item ∈ listItems children, fragment.Includes (.nested (context.fragment item))
  | .tested => fragment.Includes (.nested (context.fragment argument)) ∨
    ∃ object field rest, argument.unwrap? .memberDot = some (object :: field :: rest) ∧
      (fragment.Includes (.nested (context.fragment object)) ∨
        fragment.Includes (Convert.jsonPath context context.child
          (object :: field :: rest)))
  | .dropped => True

/-- A fragment writes something, and what a table says is done with the arguments, unless no run of
it succeeds. -/
def Fragment.Serves (context : Context) (fragment : Fragment) (arguments : List Tree)
    (uses : List Use) : Prop :=
  (∃ sql, sql ≠ "" ∧ fragment.Includes (.text sql)) ∧
    ∀ settings session, (fragment.run settings session).fault = none →
      List.Forall₂ (Use.Met context fragment) arguments uses

namespace Fragment.Serves

variable {context : Context} {fragment : Fragment} {arguments : List Tree} {uses : List Use}

/-- Of a fragment without runs that succeed nothing is asked. -/
theorem never (fails : ∀ settings session, (fragment.run settings session).fault ≠ none) :
    fragment.Serves context arguments uses :=
  ⟨⟨" ", by decide, fun _ _ succeeds => absurd succeeds (fails _ _)⟩,
    fun _ _ succeeds => absurd succeeds (fails _ _)⟩

theorem fail (fault : Fault) : (Fragment.fail fault).Serves context arguments uses :=
  never fun _ _ => by simp [run]

/-- A comprehension that is refused. -/
theorem refused (fault : Fault) :
    (Fragment.comprehension (.fail fault)).Serves context arguments uses := by
  refine never fun settings session => ?_
  simp only [run]
  split <;> simp

theorem attempt {α : Type} {result : Except Fault α} {next : α → Fragment}
    (serves : ∀ value, result = .ok value → (next value).Serves context arguments uses) :
    (Fragment.attempt result next).Serves context arguments uses := by
  cases result with
  | error fault => exact fail fault
  | ok value => exact serves value rfl

theorem withoutNull {next : Fragment} (usage text : String)
    (serves : next.Serves context arguments uses) :
    (CelWhere.withoutNull usage text next).Serves context arguments uses := by
  unfold CelWhere.withoutNull
  split
  · exact fail _
  · exact serves

/-- A fragment with a text among its pieces. -/
theorem pieces (sql : String) (written : .text sql ∈ fragment.pieces) (isText : sql ≠ "")
    (met : List.Forall₂ (Use.Met context fragment) arguments uses) :
    fragment.Serves context arguments uses :=
  ⟨⟨sql, isText, includes_of_mem_pieces written⟩, fun _ _ _ => met⟩

/-- A comprehension with the name of its variable. -/
theorem comprehension {iterator : Tree} {body : String → Fragment} (sql : String)
    (written : ∀ name, .text sql ∈ (body name).pieces) (isText : sql ≠ "")
    (met : ∀ name, List.Forall₂ (Use.Met context (.comprehension (.binding name (body name))))
      arguments uses) :
    (Fragment.comprehension (.attempt iterator.identName fun name =>
      .binding name (body name))).Serves context
      (iterator :: arguments) (.name :: uses) := by
  cases named : iterator.identName with
  | error fault => exact refused fault
  | ok name => exact pieces sql (written name) isText (.cons ⟨name, named⟩ (met name))

end Fragment.Serves

namespace Use

variable {context : Context} {fragment : Fragment} {argument : Tree} {arguments : List Tree}

/-- A converted argument among the pieces of a fragment. -/
theorem met_visited (member : .nested (context.fragment argument) ∈ fragment.pieces) :
    Met context fragment argument .visited :=
  includes_of_mem_pieces member

theorem met_text {token : Token} (found : argument.stringLiteral? = some token) :
    Met context fragment argument .text :=
  Option.isSome_iff_exists.mpr ⟨token, found⟩

theorem met_number {token : Token} (found : argument.intLiteral? = some token) :
    Met context fragment argument .number :=
  Option.isSome_iff_exists.mpr ⟨token, found⟩

/-- A position is converted if it is no literal. -/
theorem met_ofPosition
    (visits : argument.intLiteral? = none → Met context fragment argument .visited) :
    Met context fragment argument (ofPosition argument) := by
  unfold ofPosition
  split
  next isLiteral => exact isLiteral
  next noLiteral => exact visits (by simpa using noLiteral)

/-- Arguments that are all treated alike. -/
theorem met_map {use : Tree → Use}
    (each : ∀ argument ∈ arguments, Met context fragment argument (use argument)) :
    List.Forall₂ (Met context fragment) arguments (arguments.map use) :=
  List.forall₂_map_right_iff.mpr (List.forall₂_same.mpr each)

end Use

end CelWhere
