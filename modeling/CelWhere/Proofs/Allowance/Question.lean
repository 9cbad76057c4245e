import CelWhere.Proofs.Allowance.Fragment
import CelWhere.Proofs.Blame.Number

/-! # Trees that an allowance covers

What the tokens and the shape of trees can lead to has to be allowed.

* `Fragment.Allowance.Covers` — what the tokens and the shape of certain trees can lead to is
  allowed;
* `Fragment.Allowance.Covers.near` — the numbers next to positions are written, or it is allowed
  that they are not;
* `Fragment.Allowance.Covers.identName` — for the questions that fail with conversion errors as
  well, the fault is allowed. -/

namespace CelWhere

/-- An allowance covers the trees of a property: what their tokens and their shape can lead to is
allowed. -/
structure Fragment.Allowance.Covers (allowance : Allowance) (dialect : Dialect)
    (property : Tree → Prop) : Prop
    extends Tree.Shaped property allowance.fault where
  /-- The slots and faults of literals are allowed. -/
  literal {token : Token} : property (.token token) → (literalOf token).Each allowance
  /-- It is allowed that an integer literal cannot be read as a position. -/
  position {token : Token} {cause : Fault} : property (.token token) → token.kind = .int →
    readInteger .decimal token.text = .error cause → allowance.fault cause
  /-- It is allowed that a number in reach of a large position cannot be written. -/
  large {token : Token} {value : Int} : property (.token token) → token.kind = .int →
    readInteger .decimal token.text = .ok value → Integer.largeFrom ≤ value.natAbs →
    allowance.fault .unwritableInteger
  /-- The faults of duration texts are allowed. -/
  duration {token : Token} : property (.token token) → token.isString →
    (attempt (Duration.read token.stringValue) fun found =>
      dialect.duration found.value found.unit.name).Each allowance

namespace Fragment.Allowance.Covers

variable {allowance : Fragment.Allowance} {dialect : Dialect} {property : Tree → Prop}

variable (covers : allowance.Covers dialect property)

include covers

/-! ## Numbers -/

/-- A number next to a position is written, or it is allowed that it is not. -/
theorem near {token : Token} {value number : Int} (holds : property (.token token))
    (isInt : token.kind = .int) (found : readInteger .decimal token.text = .ok value)
    (next : number.natAbs ≤ value.natAbs + 1) (long : Integer.tooLongToWrite number) :
    allowance.fault .unwritableInteger := by
  refine covers.large holds isInt found ?_
  have atLeast := (Integer.tooLongToWrite_iff number).mp long
  have positive : 0 < Integer.largeFrom := tenTo_pos _
  rw [Integer.tenTo_digitLimit] at atLeast
  omega

/-- The distance of two positions is written, or it is allowed that it is not. -/
theorem distance {first last : Token} {start finish : Int} (firstHolds : property (.token first))
    (firstInt : first.kind = .int) (firstFound : readInteger .decimal first.text = .ok start)
    (lastHolds : property (.token last)) (lastInt : last.kind = .int)
    (lastFound : readInteger .decimal last.text = .ok finish)
    (long : Integer.tooLongToWrite (finish - start)) :
    allowance.fault .unwritableInteger := by
  have atLeast := (Integer.tooLongToWrite_iff _).mp long
  rw [Integer.tenTo_digitLimit] at atLeast
  -- One of the two is half as large as their distance.
  by_cases large : Integer.largeFrom ≤ start.natAbs
  · exact covers.large firstHolds firstInt firstFound large
  · exact covers.large lastHolds lastInt lastFound (by omega)

/-! ## Names -/

variable {tree : Tree} {cause : Fault}

theorem nameFrom {whole : Rule} (holds : property tree)
    (failed : tree.nameFrom whole = .error cause) :
    allowance.fault cause := by
  fun_induction Tree.nameFrom whole tree with
  | case4 => exact covers.missing_of_error holds (by simp [Rule.Produces]) failed
  | case5 rule child _ ih => exact ih (covers.hereditary _ _ holds child (.head _)) failed
  | case2 | case6 =>
    cases failed
    exact allowance.refused rfl
  | _ => cases failed

theorem identName (holds : property tree) (failed : tree.identName = .error cause) :
    allowance.fault cause := by
  cases tree with
  | token leaf =>
    exact covers.nameFrom holds (show (Tree.token leaf).nameFrom .expr = .error cause from failed)
  | node rule children => exact covers.nameFrom holds failed

theorem intervalUnit {unit : Tree} (holds : property unit)
    (failed : Convert.intervalUnit unit = .error cause) :
    allowance.fault cause := by
  unfold Convert.intervalUnit at failed
  split at failed
  · cases failed
  · split at failed
    · cases failed
    next unwrapped =>
      have named := covers.hereditary.unwrap holds unwrapped
      exact covers.missing_of_error named (by simp [Rule.Produces]) failed
    · cases failed
      exact allowance.refused rfl

end Fragment.Allowance.Covers

end CelWhere
