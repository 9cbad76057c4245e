import CelWhere.Fault
import CelWhere.Number.Integer

/-! # Duration texts

A duration text is searched for one count of each unit: the first run of digits that the mark of the
unit follows. What stands between is not looked at. The sum is given in the coarsest unit that
divides it. -/

namespace CelWhere

/-- The units of durations. -/
inductive TimeUnit
  /-- Hours. -/
  | hour
  /-- Minutes. -/
  | minute
  /-- Seconds. -/
  | second
  /-- Thousandths of a second. -/
  | millisecond
  /-- Millionths of a second. -/
  | microsecond
  /-- Billionths of a second. -/
  | nanosecond
  deriving DecidableEq, Repr, Inhabited

namespace TimeUnit

/-- The units from the coarsest to the finest. -/
def all : List TimeUnit := [.hour, .minute, .second, .millisecond, .microsecond, .nanosecond]

/-- The nanoseconds of a unit. -/
def nanoseconds : TimeUnit → Nat
  | .hour => 3600000000000
  | .minute => 60000000000
  | .second => 1000000000
  | .millisecond => 1000000
  | .microsecond => 1000
  | .nanosecond => 1

/-- The name of a unit in SQL. -/
def name : TimeUnit → String
  | .hour => "HOUR"
  | .minute => "MINUTE"
  | .second => "SECOND"
  | .millisecond => "MILLISECOND"
  | .microsecond => "MICROSECOND"
  | .nanosecond => "NANOSECOND"

/-- Whether the mark of a unit stands at the start of a text. The mark of minutes is not the start
of that of milliseconds. -/
def isMarkedBy : TimeUnit → List Char → Bool
  | .hour, 'h' :: _ => true
  | .minute, 'm' :: 's' :: _ => false
  | .minute, 'm' :: _ => true
  | .second, 's' :: _ => true
  | .millisecond, 'm' :: 's' :: _ => true
  | .microsecond, 'u' :: 's' :: _ => true
  | .microsecond, 'µ' :: 's' :: _ => true
  | .nanosecond, 'n' :: 's' :: _ => true
  | _, _ => false

end TimeUnit

/-- A number of time units. -/
structure Duration where
  /-- The number of units. -/
  value : Nat
  /-- The unit. -/
  unit : TimeUnit
  deriving DecidableEq, Repr

namespace Duration

/-- The first run of digits that is followed by the mark of a unit. The first list holds the digits
of the run that the text continues, the last one first. -/
def countOf? (unit : TimeUnit) : List Char → List Char → Option (List Char)
  | _, [] => none
  | run, head :: rest =>
    if Text.isDecimalDigit head then countOf? unit (head :: run) rest
    else if !run.isEmpty && unit.isMarkedBy (head :: rest) then some run.reverse
    else countOf? unit [] rest

/-- The nanoseconds of the units of a list that occur in a text. -/
def totalOf (text : List Char) : List TimeUnit → Except Fault Nat
  | [] => .ok 0
  | unit :: rest =>
    match countOf? unit [] text with
    | none => totalOf text rest
    | some run =>
      match Integer.read .decimal run with
      | .error failure => .error (.unreadableInteger .decimal (String.ofList run) failure)
      | .ok count => (totalOf text rest).map (count.toNat * unit.nanoseconds + ·)

/-- The coarsest unit that divides a number of nanoseconds. -/
def coarsest (total : Nat) : TimeUnit :=
  (TimeUnit.all.find? fun unit => total % unit.nanoseconds = 0).getD .nanosecond

/-- Reads a duration text. -/
def read (text : String) : Except Fault Duration :=
  match totalOf text.toList TimeUnit.all with
  | .error fault => .error fault
  | .ok total =>
    if total = 0 then .error (.invalidDuration text)
    else
      let unit := coarsest total
      .ok { value := total / unit.nanoseconds, unit }

end Duration

end CelWhere
