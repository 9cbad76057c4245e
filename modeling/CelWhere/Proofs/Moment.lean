import CelWhere.Conversion
import CelWhere.Convert.Locality.Basic
import CelWhere.Proofs.Arrangement
import CelWhere.Proofs.Blank

/-! # Sums of times and durations

What an expression of times stands for is told by its form: calls make times and durations, and sums
and differences put them together. The conversion goes by less: it looks through a whole operand for
a call that makes a duration. That finds one in every duration, and in every time that a duration
was added to.

* `Tree.moment?` — what an expression stands for, by its form;
* `Tree.isDuration_of_moment?` — what is found in it;
* `Context.fragment_sum` — a sum that has to do with times is written with its operands in an order
  that depends on what is found in them. -/

namespace CelWhere

/-- What an expression of times stands for. -/
inductive Moment
  /-- A duration. -/
  | duration
  /-- A time as a call makes it. -/
  | instant
  /-- A time with a duration added to it or subtracted from it. -/
  | shifted
  deriving DecidableEq, Repr

namespace Moment

/-- Whether it is a time. -/
def isTime : Moment → Bool
  | duration => false
  | instant | shifted => true

/-- The sum of two: durations add up, and a time and a duration make a time in either order. -/
def sum? : Moment → Moment → Option Moment
  | duration, duration => some duration
  | duration, _ | _, duration => some shifted
  | _, _ => none

/-- The difference of two: a duration can be subtracted from a time. -/
def difference? : Moment → Moment → Option Moment
  | instant, duration | shifted, duration => some shifted
  | _, _ => none

/-- What the functions of times make. -/
def ofFunction? (function : String) : Option Moment :=
  if function = "timestamp" then some instant
  else if function = "duration" ∨ function = "interval" then some duration
  else none

/-- A sum is no instant, and neither is a difference: one of the two is a duration. -/
theorem found_of_combined {one two whole : Moment}
    (combined : one.sum? two = some whole ∨ one.difference? two = some whole) :
    whole ≠ .instant ∧ (one ≠ .instant ∨ two ≠ .instant) := by
  cases one <;> cases two <;> simp_all [sum?, difference?] <;> simp [← combined]

end Moment

namespace Tree

/-- What an expression stands for: a call of a function of times, a sum or a difference, or such an
expression in parentheses. -/
def moment? : Tree → Option Moment
  | .node .identArg (.token name :: _) => Moment.ofFunction? name.text
  | .node .addition [.node .additionAdd [left], right] =>
    left.moment?.bind fun one => right.moment?.bind one.sum?
  | .node .addition [.node .additionSub [left], right] =>
    left.moment?.bind fun one => right.moment?.bind one.difference?
  | .node rule [inner] => if rule.isLevel ∨ rule = .parenExpr then inner.moment? else none
  | _ => none

variable {tree left right : Tree} {moment one two : Moment}

/-- A list of arguments stands for no time. -/
theorem ne_exprList_of_moment? (found : tree.moment? = some moment) (items : List Tree) :
    tree ≠ .node .exprList items := by
  rintro rfl
  rcases items with _ | ⟨item, _ | ⟨second, rest⟩⟩ <;> simp [moment?, Rule.isLevel] at found

/-- Whether one tree of a list is a duration, where the first one is not a list of arguments. -/
theorem anyIsDuration_cons {answer : Bool} (notArguments : ∀ items, tree ≠ .node .exprList items)
    (found : tree.isDuration = .ok answer) (rest : List Tree) :
    anyIsDuration (tree :: rest) = if answer then .ok true else anyIsDuration rest := by
  rw [anyIsDuration.eq_def]
  split
  · simp_all
  next items _ same => exact absurd (List.cons.inj same).1 (notArguments items)
  next same =>
    obtain ⟨rfl, rfl⟩ := List.cons.inj same
    cases answer <;> simp [found]

/-- A node that is no call is a duration if one of its children is. -/
theorem isDuration_node {rule : Rule} (noCall : rule ≠ .identArg) (children : List Tree) :
    (Tree.node rule children).isDuration = anyIsDuration children := by
  rw [isDuration.eq_def]
  split <;> simp_all

/-- What is found in two operands of an operator is found in the operator. -/
theorem isDuration_addition {operator : Rule} {answer other : Bool} (noCall : operator ≠ .identArg)
    (noList : operator ≠ .exprList) (leftMoment : left.moment? = some one)
    (rightMoment : right.moment? = some two) (leftFound : left.isDuration = .ok answer)
    (rightFound : right.isDuration = .ok other) :
    (Tree.node .addition [.node operator [left], right]).isDuration = .ok (answer || other) := by
  have wrapped : (Tree.node operator [left]).isDuration = .ok answer := by
    rw [isDuration_node noCall, anyIsDuration_cons (ne_exprList_of_moment? leftMoment) leftFound]
    cases answer <;> rfl
  rw [isDuration_node (by simp), anyIsDuration_cons (by simp [noList]) wrapped,
    anyIsDuration_cons (ne_exprList_of_moment? rightMoment) rightFound]
  cases answer <;> cases other <;> rfl

/-- **What is found in an expression of times.** A call that makes a duration is found in all of
them but instants. -/
theorem isDuration_of_moment? (found : tree.moment? = some moment) :
    tree.isDuration = .ok (moment ≠ .instant) := by
  fun_induction moment? tree generalizing moment with
  | case1 name rest =>
    unfold Moment.ofFunction? at found
    simp only [isDuration, nameText_token, durationFunctions]
    grind
  | case2 left right leftIh rightIh =>
    obtain ⟨one, leftMoment, others⟩ := Option.bind_eq_some_iff.mp found
    obtain ⟨two, rightMoment, combined⟩ := Option.bind_eq_some_iff.mp others
    obtain ⟨notInstant, either⟩ := Moment.found_of_combined (.inl combined)
    rw [isDuration_addition (by simp) (by simp) leftMoment rightMoment (leftIh leftMoment)
      (rightIh rightMoment)]
    simpa [notInstant] using either
  | case3 left right leftIh rightIh =>
    obtain ⟨one, leftMoment, others⟩ := Option.bind_eq_some_iff.mp found
    obtain ⟨two, rightMoment, combined⟩ := Option.bind_eq_some_iff.mp others
    obtain ⟨notInstant, either⟩ := Moment.found_of_combined (.inr combined)
    rw [isDuration_addition (by simp) (by simp) leftMoment rightMoment (leftIh leftMoment)
      (rightIh rightMoment)]
    simpa [notInstant] using either
  | case4 rule inner _ passes ih =>
    have noCall : rule ≠ .identArg := by
      rintro rfl
      simp [Rule.isLevel] at passes
    rw [isDuration_node noCall, anyIsDuration_cons (ne_exprList_of_moment? found) (ih found)]
    cases decide (moment ≠ .instant) <;> rfl
  | case5 | case6 => simp at found

/-- Expressions of times have to do with times. -/
theorem isTemporal_of_moment? (found : tree.moment? = some moment) :
    tree.isTemporal = .ok true := by
  have operators {operator : Rule} {left right : Tree} (noCall : operator ≠ .identArg)
      (noName : operator ≠ .ident)
      (leftFound : left.isTemporal = .ok true) :
      (Tree.node .addition [.node operator [left], right]).isTemporal = .ok true := by
    have wrapped : (Tree.node operator [left]).isTemporal = .ok true := by
      rw [isTemporal_node noCall noName, anyIsTemporal, leftFound]
    rw [isTemporal_node (by simp) (by simp), anyIsTemporal, wrapped]
  fun_induction moment? tree generalizing moment with
  | case1 name rest =>
    unfold Moment.ofFunction? at found
    simp only [isTemporal, nameText_token, temporalFunctions]
    grind
  | case2 left right leftIh | case3 left right leftIh =>
    obtain ⟨one, leftMoment, -⟩ := Option.bind_eq_some_iff.mp found
    exact operators (by simp) (by simp) (leftIh leftMoment)
  | case4 rule inner _ passes ih =>
    have others : rule ≠ .identArg ∧ rule ≠ .ident := by
      constructor <;> (rintro rfl; simp [Rule.isLevel] at passes)
    rw [isTemporal_node others.1 others.2, anyIsTemporal, ih found]
  | case5 | case6 => simp at found

end Tree

namespace Context

variable (context : Context) {left right : Tree} {one two : Moment}

/-- A sum of expressions of times is written with its operands in their order, unless the second one
is an instant that a duration is added to. -/
theorem fragment_sum (leftMoment : left.moment? = some one)
    (rightMoment : right.moment? = some two) :
    context.fragment (.node .addition [.node .additionAdd [left], right]) =
      (if one ≠ .instant ∧ two = .instant then Pairing.swapped
        else .shift false).fragment context.dialect
        (.nested (context.fragment left)) (.nested (context.fragment right)) := by
  have temporal : Convert.eitherTemporal left right = .ok true := by
    rw [Convert.eitherTemporal, Tree.isTemporal_of_moment? leftMoment]
  have first : Convert.durationFirst left right = .ok (one ≠ .instant ∧ two = .instant) := by
    rw [Convert.durationFirst, Tree.isDuration_of_moment? leftMoment,
      Tree.isDuration_of_moment? rightMoment]
    cases one <;> cases two <;> rfl
  rw [Context.fragment_eq, Convert.step_arranged rfl]
  show Fragment.attempt ((Arrangement.ofSum left right).map (Arrangement.pair · left right)) _ = _
  rw [Arrangement.ofSum, temporal, first, Convert.attempt_map]
  cases one <;> cases two <;> rfl

/-- **The time comes first.** Take a sum of a time and a duration, in either order, wherever it
stands: it stands for a time itself. It is written by the arithmetic of the dialect with the time as
the first operand and the duration as the second one, unless the duration is added to a time that
has a duration added or subtracted already. Then a duration is found on both sides, and the operands
are written as they stand, the duration first. -/
theorem fragment_timeFirst (leftMoment : left.moment? = some one)
    (rightMoment : right.moment? = some two) (mixed : one.isTime ≠ two.isTime) :
    let sum : Tree := .node .addition [.node .additionAdd [left], right]
    let time := if one.isTime then left else right
    let duration := if one.isTime then right else left
    let arithmetic (first second : Tree) : Fragment :=
      context.dialect.timestampArithmetic "+" (.nested (context.fragment first))
        (.nested (context.fragment second))
    sum.moment? = some .shifted ∧
      context.fragment sum =
        if one = .duration ∧ two = .shifted then arithmetic duration time
        else arithmetic time duration := by
  intro sum time duration arithmetic
  constructor
  · show (left.moment?.bind fun one => right.moment?.bind one.sum?) = _
    rw [leftMoment, rightMoment]
    cases one <;> cases two <;> simp_all [Moment.isTime, Moment.sum?]
  · rw [context.fragment_sum leftMoment rightMoment]
    -- The one order in which a duration is found on both sides is the one that stays.
    cases one <;> cases two <;> first | exact absurd rfl mixed | rfl

/-- A duration before a time in parentheses, for BigQuery. -/
theorem fragment_timeFirst_parenthesised :
    let call (function text : String) : Tree :=
      .node .identArg [.token ⟨.ident, function⟩,
        .node .exprList [.node .literal [.token ⟨.string, text⟩]]]
    let left := call "duration" "\"1h\""
    let right : Tree := .node .parenExpr [call "timestamp" "\"2021-09-01T18:00:00Z\""]
    let sum : Tree := .node .addition [.node .additionAdd [left], right]
    let settings : Settings := { dialect := .bigquery }
    left.moment? = some .duration ∧ right.moment? = some .instant ∧
      Moment.isTime .duration ≠ Moment.isTime .instant ∧
      settings.context.fragment sum = Dialect.timestampArithmetic .bigquery "+"
        (.nested (settings.context.fragment right)) (.nested (settings.context.fragment left)) ∧
      (settings.visit .fresh sum).session.text =
        "TIMESTAMP_ADD((CAST('2021-09-01T18:00:00Z' AS TIMESTAMP)), INTERVAL 1 HOUR)" := by
  intro call left right sum settings
  have leftMoment : left.moment? = some .duration := by rfl
  have rightMoment : right.moment? = some .instant := by rfl
  exact ⟨leftMoment, rightMoment, by decide,
    (settings.context.fragment_timeFirst leftMoment rightMoment (by decide)).2, by decide +kernel⟩

end Context

/-- Sums whose second operand is a time that a duration was added to or subtracted from: the
duration comes first. -/
theorem Settings.convert_durationFirst :
    (({ dialect := .bigquery } : Settings).convert
        "duration(\"1h\") + (timestamp(\"2021-09-01T18:00:00Z\") + duration(\"2h\"))").toOption =
      some
      "TIMESTAMP_ADD(INTERVAL 1 HOUR, (TIMESTAMP_ADD(CAST('2021-09-01T18:00:00Z' AS TIMESTAMP), INTERVAL 2 HOUR)))" ∧
    (({ dialect := .sqlite } : Settings).convert
        "duration(\"1h\") + (timestamp(\"2021-09-01T18:00:00Z\") - duration(\"2h\"))").toOption =
      some
      "datetime('+1 hours', (datetime(datetime('2021-09-01T18:00:00Z'), REPLACE('+2 hours', '+', '-'))))" := by
  decide +kernel

end CelWhere
