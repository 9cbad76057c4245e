import CelWhere.Proofs.Restoration

/-! # Limits only cut off

A run under limits goes through the same steps as a run without them until it passes one. There it
ends, with a text and parameters that the run without limits goes on from.

* `Outcome.CutOff` — a run that a guard has ended, beside one that went on;
* `Fragment.runGuarded_cutOff` — a run under a guard has the outcome of a run under a weaker one, or
  is cut off;
* `Fragment.exists_limits` — some limits are never passed. -/

namespace CelWhere

variable {session : Session} (settings : Settings)

/-! ## Passing a limit -/

/-- Whether a fault tells that the limit on the depth or on the length was passed. -/
def Fault.isLimit (fault : Fault) : Bool :=
  fault.faultClass = .refused .maxDepthExceeded ||
    fault.faultClass = .refused .maxOutputLengthExceeded

/-- A session is within the limits if neither its depth nor its text goes beyond them. -/
theorem Session.limitFault?_eq_none {settings : Settings} :
    session.limitFault? settings = none ↔
      session.depth ≤ settings.maxDepth ∧ session.text.length ≤ settings.maxLength := by
  unfold limitFault?
  by_cases deep : settings.maxDepth < session.depth
  · rw [if_pos deep]
    simp only [reduceCtorEq, false_iff]
    omega
  · rw [if_neg deep]
    by_cases long : session.exceeds settings.maxLength
    · rw [if_pos long]
      rw [exceeds_iff] at long
      simp only [reduceCtorEq, false_iff]
      omega
    · rw [if_neg long]
      rw [exceeds_iff] at long
      simp only [true_iff]
      omega

/-- A passed limit is reported as one. -/
theorem Session.isLimit_of_limitFault? {settings : Settings} {fault : Fault}
    (passed : session.limitFault? settings = some fault) : fault.isLimit := by
  unfold limitFault? at passed
  split at passed
  · obtain rfl := Option.some.inj passed
    rfl
  · split at passed
    · obtain rfl := Option.some.inj passed
      rfl
    · simp at passed

/-! ## Runs that are cut off -/

/-- A run that its guard has ended, beside a run that went on from there: what the first has written
and bound is the beginning of what the second has. -/
def Outcome.CutOff (guard : Session → Option Fault) (limited free : Outcome) : Prop :=
  (∃ session, (guard session).isSome ∧ limited.fault = guard session) ∧
    limited.session.text.toList <+: free.session.text.toList ∧
    limited.session.parameters.toList <+: free.session.parameters.toList

namespace Outcome.CutOff

variable {guard : Session → Option Fault} {limited free : Outcome}

/-- A run that is cut off has failed. -/
theorem fails (cutOff : CutOff guard limited free) : limited.fault ≠ none := by
  obtain ⟨⟨session, stopped, same⟩, -⟩ := cutOff
  intro succeeds
  rw [← same, succeeds] at stopped
  simp at stopped

/-- The guard ends a run before it goes deeper. -/
theorem stop {deeper : Session} {fault : Fault} (stopped : guard deeper = some fault)
    (continues : session.Continues free.session) : CutOff guard ⟨session, some fault⟩ free :=
  ⟨⟨deeper, by simp [stopped], stopped.symm⟩, continues.text, continues.parameters⟩

/-- Setting back the place, which leaves text and parameters as they are. -/
theorem closing {change : Session → Session} (cutOff : CutOff guard limited free)
    (kept : ∀ session, (change session).text = session.text ∧
      (change session).parameters = session.parameters) :
    CutOff guard (limited.closing change) (free.closing change) := by
  obtain ⟨stopped, text, parameters⟩ := cutOff
  refine ⟨stopped, ?_, ?_⟩
  · rwa [closing_session, closing_session, (kept _).1, (kept _).1]
  · rwa [closing_session, closing_session, (kept _).2, (kept _).2]

/-- The run that was not cut off may go on. -/
theorem andThen {next other : Session → Outcome} (cutOff : CutOff guard limited free)
    (continues : free.session.Continues (free.andThen other).session) :
    CutOff guard (limited.andThen next) (free.andThen other) := by
  have ended : limited.andThen next = limited := by
    unfold Outcome.andThen
    cases found : limited.fault with
    | none => exact absurd found cutOff.fails
    | some fault => rfl
  obtain ⟨stopped, text, parameters⟩ := cutOff
  rw [ended]
  exact ⟨stopped, text.trans continues.text, parameters.trans continues.parameters⟩

end Outcome.CutOff

/-- Equal runs, or one that is cut off, stay so when the place is set back. -/
theorem Outcome.closing_cutOff {guard : Session → Option Fault} {limited free : Outcome}
    {change : Session → Session} (runs : limited = free ∨ CutOff guard limited free)
    (kept : ∀ session, (change session).text = session.text ∧
      (change session).parameters = session.parameters) :
    limited.closing change = free.closing change ∨
      CutOff guard (limited.closing change) (free.closing change) := by
  rcases runs with rfl | cutOff
  · exact .inl rfl
  · exact .inr (cutOff.closing kept)

/-- **A guard only cuts off.** Under a guard that stops wherever a weaker one does, a run has the
outcome that it has under the weaker one, or it is cut off. -/
theorem Fragment.runGuarded_cutOff {tight loose : Session → Option Fault}
    (weaker : ∀ session, tight session = none → loose session = none) (fragment : Fragment)
    (session : Session) :
    fragment.runGuarded settings tight session = fragment.runGuarded settings loose session ∨
      Outcome.CutOff tight (fragment.runGuarded settings tight session)
        (fragment.runGuarded settings loose session) := by
  induction fragment generalizing session with
  | append first second firstIh secondIh =>
    have secondContinues := second.runGuarded_continues settings loose
    simp only [runGuarded]
    rcases firstIh session with same | cutOff
    · rw [same]
      -- Both runs are at the same session behind the first part.
      unfold Outcome.andThen
      cases (first.runGuarded settings loose session).fault with
      | none => exact secondIh _
      | some fault => exact .inl rfl
    · exact .inr (cutOff.andThen (Outcome.andThen_continues (.refl _) (secondContinues _)))
  | nested body ih =>
    have continues := (nested body).runGuarded_continues settings loose session
    simp only [runGuarded] at continues ⊢
    cases stopped : tight { session with depth := session.depth + 1 } with
    | some fault => exact .inr (.stop stopped continues)
    | none =>
      rw [weaker _ stopped]
      exact Outcome.closing_cutOff (ih _) fun _ => ⟨rfl, rfl⟩
  | comprehension body ih =>
    simp only [runGuarded]
    split
    · exact .inl rfl
    · exact Outcome.closing_cutOff (ih _) fun _ => ⟨rfl, rfl⟩
  | binding name body ih =>
    exact Outcome.closing_cutOff (ih _) fun _ => ⟨rfl, rfl⟩
  -- The other fragments do not go deeper, so no guard is asked.
  | text | literal | unlessBound | known | fail => exact .inl rfl

/-! ## Runs without limits -/

/-- Limits that no session of a run passes, nor do larger ones. -/
theorem Fragment.exists_limits (fragment : Fragment) (session : Session) :
    ∃ depth length : Int, ∀ maxDepth ≥ depth, ∀ maxLength ≥ length,
      fragment.runGuarded settings (Session.limitFault? (settings.withLimits maxDepth maxLength))
      session =
        fragment.runGuarded settings (fun _ => none) session := by
  induction fragment generalizing session with
  | append first second firstIh secondIh =>
    obtain ⟨firstDepth, firstLength, firstSame⟩ := firstIh session
    obtain ⟨secondDepth, secondLength, secondSame⟩ :=
      secondIh (first.runGuarded settings (fun _ => none) session).session
    refine ⟨max firstDepth secondDepth, max firstLength secondLength,
      fun maxDepth deep maxLength long => ?_⟩
    simp only [runGuarded]
    rw [firstSame maxDepth (by omega) maxLength (by omega)]
    unfold Outcome.andThen
    cases (first.runGuarded settings (fun _ => none) session).fault with
    | none => exact secondSame maxDepth (by omega) maxLength (by omega)
    | some fault => rfl
  | nested body ih =>
    obtain ⟨depth, length, same⟩ := ih { session with depth := session.depth + 1 }
    refine ⟨max depth (session.depth + 1 : Nat), max length session.text.length,
      fun maxDepth deep maxLength long => ?_⟩
    have allowed : Session.limitFault? (settings.withLimits maxDepth maxLength)
        { session with depth := session.depth + 1 } = none := by
      refine Session.limitFault?_eq_none.mpr ⟨?_, ?_⟩
      · show ((session.depth + 1 : Nat) : Int) ≤ maxDepth
        omega
      · show (session.text.length : Int) ≤ maxLength
        omega
    simp only [runGuarded, allowed]
    rw [same maxDepth (by omega) maxLength (by omega)]
  | comprehension body ih =>
    obtain ⟨depth, length, same⟩ := ih { session with nesting := session.nesting + 1 }
    refine ⟨depth, length, fun maxDepth deep maxLength long => ?_⟩
    simp only [runGuarded]
    rw [same maxDepth deep maxLength long]
  | binding name body ih =>
    obtain ⟨depth, length, same⟩ := ih (session.enter name)
    refine ⟨depth, length, fun maxDepth deep maxLength long => ?_⟩
    simp only [runGuarded]
    rw [same maxDepth deep maxLength long]
  | text | literal | unlessBound | known | fail => exact ⟨0, 0, fun _ _ _ _ => rfl⟩

namespace Settings

/-- Converts a tree without limits on depth and length, continuing a session. -/
def visitUnlimited (settings : Settings) (session : Session) (tree : Tree) : Outcome :=
  (settings.context.fragment tree).runGuarded settings (fun _ => none) session

/-- A visit under limits is guarded by them. -/
theorem visit_withLimits (maxDepth maxLength : Int) (session : Session) (tree : Tree) :
    (settings.withLimits maxDepth maxLength).visit session tree =
      (settings.context.fragment tree).runGuarded settings
        (Session.limitFault? (settings.withLimits maxDepth maxLength)) session :=
  Fragment.run_withLimits settings maxDepth maxLength _ session

/-- A visit under limits has the outcome of one under a weaker guard, or a limit has cut it off. -/
theorem visit_limited (maxDepth maxLength : Int) {loose : Session → Option Fault}
    (weaker : ∀ session, Session.limitFault? (settings.withLimits maxDepth maxLength) session =
      none → loose session = none) (session : Session) (tree : Tree) :
    let limited := (settings.withLimits maxDepth maxLength).visit session tree
    let free := (settings.context.fragment tree).runGuarded settings loose session
    limited = free ∨
      limited.fault.any Fault.isLimit ∧ limited.session.text.toList <+: free.session.text.toList ∧
        limited.session.parameters.toList <+: free.session.parameters.toList := by
  intro limited free
  have guarded : limited = _ := settings.visit_withLimits maxDepth maxLength session tree
  rw [guarded]
  rcases Fragment.runGuarded_cutOff settings weaker (settings.context.fragment tree) session with
    same | cutOff
  · exact .inl same
  · obtain ⟨⟨deeper, stopped, fault⟩, text, parameters⟩ := cutOff
    obtain ⟨passed, found⟩ := Option.isSome_iff_exists.mp stopped
    refine .inr ⟨?_, text, parameters⟩
    rw [fault, found]
    exact Session.isLimit_of_limitFault? found

/-- **Limits only cut off.** The visit without limits is the visit under all limits that are large
enough. Under any limits, a visit has the outcome, the text and the parameters of the visit without
limits, or it fails because it passed one of the two limits, and then its text and its parameters
are the beginning of those without limits. So a visit that passes neither limit is the same under
all larger ones. -/
theorem visit_limits (settings : Settings) (session : Session) (tree : Tree) :
    (∃ depth length : Int, ∀ maxDepth ≥ depth, ∀ maxLength ≥ length,
      (settings.withLimits maxDepth maxLength).visit session tree =
      settings.visitUnlimited session tree) ∧
    (∀ maxDepth maxLength : Int,
      let limited := (settings.withLimits maxDepth maxLength).visit session tree
      let free := settings.visitUnlimited session tree
      limited = free ∨
        limited.fault.any Fault.isLimit ∧ limited.session.text.toList <+: free.session.text.toList ∧
          limited.session.parameters.toList <+: free.session.parameters.toList) ∧
    (∀ maxDepth maxLength : Int,
      let limited := (settings.withLimits maxDepth maxLength).visit session tree
      ¬limited.fault.any Fault.isLimit → ∀ deeper ≥ maxDepth, ∀ longer ≥ maxLength,
        (settings.withLimits deeper longer).visit session tree = limited) := by
  refine ⟨?_, ?_, ?_⟩
  · obtain ⟨depth, length, same⟩ :=
      Fragment.exists_limits settings (settings.context.fragment tree) session
    refine ⟨depth, length, fun maxDepth deep maxLength long => ?_⟩
    rw [visit_withLimits, same maxDepth deep maxLength long, visitUnlimited]
  · exact fun maxDepth maxLength => settings.visit_limited maxDepth maxLength
      (fun _ _ => rfl) session tree
  · intro maxDepth maxLength limited passes deeper deep longer long
    -- Larger limits stop nowhere that smaller ones do not.
    have weaker : ∀ session, Session.limitFault? (settings.withLimits maxDepth maxLength) session =
        none →
        Session.limitFault? (settings.withLimits deeper longer) session = none := by
      intro session allowed
      obtain ⟨depth, length⟩ := Session.limitFault?_eq_none.mp allowed
      exact Session.limitFault?_eq_none.mpr ⟨Int.le_trans depth deep, Int.le_trans length long⟩
    rcases settings.visit_limited maxDepth maxLength weaker session tree with same | ⟨cutOff, -⟩
    · rw [visit_withLimits]
      exact same.symm
    · exact absurd cutOff passes

/-- A disjunction that is cut off before its second operand, and that fits into the least limits
that reach it. -/
theorem visit_limits_or :
    let name (text : String) : Tree := .node .ident [.token ⟨.ident, text⟩]
    let tree : Tree := .node .conditionalOr [name "first", name "second"]
    let limited := (({} : Settings).withLimits 1 8).visit .fresh tree
    let free := ({} : Settings).visitUnlimited .fresh tree
    let fitting := (({} : Settings).withLimits 1 9).visit .fresh tree
    limited.fault = some (.lengthExceeded 8) ∧ limited.session.text = "first OR " ∧
    free.fault = none ∧ free.session.text = "first OR second" ∧
    limited.session.text.toList <+: free.session.text.toList ∧
    ∀ deeper ≥ 1, ∀ longer ≥ 9, (({} : Settings).withLimits deeper longer).visit .fresh tree =
    fitting := by
  intro name tree limited free fitting
  obtain ⟨-, cutOff, same⟩ := visit_limits {} .fresh tree
  have fault : limited.fault = some (.lengthExceeded 8) := by decide +kernel
  have text : limited.session.text = "first OR " := by decide +kernel
  have freeFault : free.fault = none := by rfl
  have beginning : limited.session.text.toList <+: free.session.text.toList := by
    rcases cutOff 1 8 with equal | ⟨-, written, -⟩
    · have limitedFree : limited = free := equal
      rw [limitedFree, freeFault] at fault
      simp at fault
    · exact written
  have passes : ¬fitting.fault.any Fault.isLimit := by
    have succeeds : fitting.fault = none := by decide +kernel
    simp [succeeds]
  exact ⟨fault, text, freeFault, rfl, beginning, same 1 9 passes⟩

end Settings

end CelWhere
