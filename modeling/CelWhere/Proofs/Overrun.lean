import CelWhere.Proofs.Alignment
import CelWhere.Proofs.Cutoff
import CelWhere.Proofs.Operand

/-! # What the limit on the length lets through

The length of the text is looked at where a run goes one level deeper, and nowhere else. So the
limit bounds what stands before the last such place; what is written behind it is never compared
with the limit.

* `Fragment.descents` — the sessions in which a run goes one level deeper;
* `Fragment.fault_runGuarded` — a guard ends a run in the first of them that it refuses;
* `Settings.checkedLength` — the greatest length that is compared with the limit. -/

namespace CelWhere

namespace Fragment

/-- The sessions in which a run without limits goes one level deeper, in order. -/
def descents (settings : Settings) : Fragment → Session → List Session
  | .append first second, session =>
    let outcome := first.runGuarded settings (fun _ => none) session
    first.descents settings session ++
      if outcome.fault.isSome then [] else second.descents settings outcome.session
  | .nested body, session =>
    let deeper := { session with depth := session.depth + 1 }
    deeper :: body.descents settings deeper
  | .comprehension body, session =>
    if comprehensionLimit ≤ session.nesting then []
    else body.descents settings { session with nesting := session.nesting + 1 }
  | .binding name body, session => body.descents settings (session.enter name)
  | .text _, _ | .literal _, _ | .unlessBound .., _ | .known .., _ | .fail _, _ => []

variable (settings : Settings) (guard : Session → Option Fault) (fragment : Fragment)
  (session : Session)

/-- What was written where a run goes deeper is the beginning of what it writes. -/
theorem descents_text {deeper : Session} (member : deeper ∈ fragment.descents settings session) :
    deeper.text.toList <+: (fragment.runGuarded settings
      (fun _ => none) session).session.text.toList := by
  induction fragment generalizing session with
  | append first second firstIh secondIh =>
    have continues := second.runGuarded_continues settings fun _ => none
    simp only [descents, List.mem_append] at member
    simp only [runGuarded, Outcome.andThen]
    cases ended : (first.runGuarded settings (fun _ => none) session).fault with
    | some fault =>
      simp only [ended, Option.isSome_some, if_true, List.not_mem_nil, or_false] at member
      exact firstIh session member
    | none =>
      simp only [ended, Option.isSome_none, Bool.false_eq_true, if_false] at member
      rcases member with early | late
      · exact (firstIh session early).trans (continues _).text
      · exact secondIh _ late
  | nested body ih =>
    rcases List.mem_cons.mp member with rfl | inside
    · exact (body.runGuarded_continues settings _ { session with depth := session.depth + 1 }).text
    · exact ih _ inside
  | comprehension body ih =>
    simp only [descents] at member
    simp only [runGuarded]
    split at member
    · cases member
    next room =>
      rw [if_neg room]
      exact ih _ member
  | binding name body ih => exact ih _ member
  | text | literal | unlessBound | known | fail => cases member

/-- A guard that refuses none of these sessions changes nothing. -/
theorem runGuarded_of_descents
    (passes : ∀ deeper ∈ fragment.descents settings session, guard deeper = none) :
    fragment.runGuarded settings guard session =
      fragment.runGuarded settings (fun _ => none) session := by
  induction fragment generalizing session with
  | append first second firstIh secondIh =>
    simp only [descents, List.mem_append] at passes
    simp only [runGuarded, Outcome.andThen]
    rw [firstIh session fun deeper early => passes deeper (.inl early)]
    cases ended : (first.runGuarded settings (fun _ => none) session).fault with
    | some fault => rfl
    | none => exact secondIh _ fun deeper late => passes deeper (.inr (by simpa [ended] using late))
  | nested body ih =>
    have here : guard { session with depth := session.depth + 1 } = none := passes _ (.head _)
    simp only [runGuarded, here]
    rw [ih _ fun deeper inside => passes deeper (.tail _ inside)]
  | comprehension body ih =>
    simp only [descents] at passes
    simp only [runGuarded]
    split at passes
    next full => rw [if_pos full, if_pos full]
    next room => rw [if_neg room, if_neg room, ih _ passes]
  | binding name body ih =>
    simp only [runGuarded]
    rw [ih _ passes]
  | text | literal | unlessBound | known | fail => rfl

/-- **Where a guard ends a run.** A run under a guard fails in the first of these sessions that the
guard refuses, and as the run without limits does if there is none. -/
theorem fault_runGuarded : (fragment.runGuarded settings guard session).fault =
    ((fragment.descents settings session).findSome? guard).or
      (fragment.runGuarded settings (fun _ => none) session).fault := by
  induction fragment generalizing session with
  | append first second firstIh secondIh =>
    simp only [runGuarded, descents, List.findSome?_append]
    cases refused : (first.descents settings session).findSome? guard with
    | some fault =>
      have ends : (first.runGuarded settings guard session).fault = some fault := by
        simp [firstIh, refused]
      simp [Outcome.andThen, ends]
    | none =>
      have same :=
        first.runGuarded_of_descents settings guard session (List.findSome?_eq_none_iff.mp refused)
      simp only [Outcome.andThen, same]
      cases ended : (first.runGuarded settings (fun _ => none) session).fault with
      | some fault => simp [ended]
      | none => simpa using secondIh _
  | nested body ih =>
    simp only [runGuarded, descents, List.findSome?_cons]
    cases guard { session with depth := session.depth + 1 } with
    | some fault => rfl
    | none => exact ih _
  | comprehension body ih =>
    simp only [runGuarded, descents]
    split
    · rfl
    · exact ih _
  | binding name body ih => exact ih _
  | text | literal | unlessBound | known | fail => rfl

end Fragment

namespace Settings

/-- The greatest length of the text that is compared with the limit in the conversion of a tree. -/
def checkedLength (settings : Settings) (tree : Tree) : Nat :=
  ((settings.context.fragment tree).descents settings .fresh).foldr
    (fun deeper longest => max deeper.text.length longest) 0

/-- A limit is at least this length if it is kept wherever it is looked at. -/
theorem checkedLength_le_iff {settings : Settings} {tree : Tree} {limit : Nat} :
    settings.checkedLength tree ≤ limit ↔
      ∀ deeper ∈ (settings.context.fragment tree).descents settings .fresh, deeper.text.length ≤
      limit := by
  unfold checkedLength
  induction (settings.context.fragment tree).descents settings .fresh with
  | nil => simp
  | cons deeper rest ih => rw [List.foldr_cons, Nat.max_le, ih, List.forall_mem_cons]

variable {settings : Settings} {tree : Tree} {reached : Int}

/-- Where a conversion under some limit succeeds, the run without limits does, and stays within the
limits wherever they are looked at. -/
theorem descents_within
    (succeeds : (({ settings with maxLength := reached } : Settings).visit .fresh tree).fault =
      none) :
    (settings.visitUnlimited .fresh tree).fault = none ∧
      ∀ deeper ∈ (settings.context.fragment tree).descents settings .fresh,
        deeper.depth ≤ settings.maxDepth ∧ deeper.text.length ≤ reached := by
  have guarded := settings.visit_withLimits settings.maxDepth reached .fresh tree
  have ends := Fragment.fault_runGuarded settings
    (Session.limitFault? (settings.withLimits settings.maxDepth reached))
    (settings.context.fragment tree) .fresh
  rw [← guarded] at ends
  obtain ⟨passes, free⟩ := Option.or_eq_none_iff.mp (ends.symm.trans succeeds)
  exact ⟨free, fun deeper member => Session.limitFault?_eq_none.mp
    (List.findSome?_eq_none_iff.mp passes deeper member)⟩

/-- Under a limit that is nowhere passed, a visit is the one without limits. -/
theorem visit_of_bounded
    (within : ∀ deeper ∈ (settings.context.fragment tree).descents settings .fresh,
      deeper.depth ≤ settings.maxDepth ∧ deeper.text.length ≤ reached) :
    ({ settings with maxLength := reached } : Settings).visit .fresh tree =
      settings.visitUnlimited .fresh tree :=
  (settings.visit_withLimits settings.maxDepth reached .fresh tree).trans
    (Fragment.runGuarded_of_descents settings _ _ .fresh fun deeper member =>
      Session.limitFault?_eq_none.mpr (within deeper member))

/-- Under a limit that is passed somewhere, a visit fails with it. -/
theorem fault_of_descents {limit : Nat} (passed : limit < settings.checkedLength tree)
    (shallow : ∀ deeper ∈ (settings.context.fragment tree).descents settings .fresh, deeper.depth ≤
      settings.maxDepth) :
    (({ settings with maxLength := limit } : Settings).visit .fresh tree).fault =
      some (.lengthExceeded limit) := by
  have guarded := settings.visit_withLimits settings.maxDepth limit .fresh tree
  have ends := Fragment.fault_runGuarded settings
    (Session.limitFault? (settings.withLimits settings.maxDepth limit))
    (settings.context.fragment tree) .fresh
  rw [← guarded] at ends
  cases refused : ((settings.context.fragment tree).descents settings .fresh).findSome?
    (Session.limitFault? (settings.withLimits settings.maxDepth limit)) with
  | none =>
    -- Then the limit is kept everywhere.
    refine absurd (checkedLength_le_iff.mpr fun deeper member => ?_) (Nat.not_le.mpr passed)
    exact Int.ofNat_le.mp (Session.limitFault?_eq_none.mp
      (List.findSome?_eq_none_iff.mp refused deeper member)).2
  | some fault =>
    obtain ⟨deeper, member, found⟩ := List.exists_of_findSome?_eq_some refused
    have notDeep : ¬settings.maxDepth < deeper.depth := Int.not_lt.mpr (shallow deeper member)
    have isLength : fault = .lengthExceeded limit := by
      simp only [Session.limitFault?, withLimits, notDeep, if_false] at found
      exact (Option.some.inj (Option.ite_none_right_eq_some.mp found).2).symm
    rw [refused, isLength] at ends
    exact ends

/-- What is converted under some limit is converted to the same condition under every limit that is
not passed where it is looked at, and the others are reported. -/
theorem convertTree_of_checkedLength {condition : Condition}
    (converted : ({ settings with maxLength := reached } : Settings).convertTree tree =
      .ok condition) (limit : Nat) :
    ({ settings with maxLength := limit } : Settings).convertTree tree =
      if settings.checkedLength tree ≤ limit then .ok condition
      else .error (.lengthExceeded limit) := by
  obtain ⟨valid, succeeds, text, parameters⟩ := convertTree_eq_ok.mp converted
  obtain ⟨free, within⟩ := descents_within succeeds
  have shallow deeper member := (within deeper member).1
  rw [visit_of_bounded within] at text parameters
  split
  next fits =>
    have visited : ({ settings with maxLength := limit } : Settings).visit .fresh tree =
        settings.visitUnlimited .fresh tree :=
      visit_of_bounded fun deeper member =>
        ⟨shallow deeper member, Int.ofNat_le.mpr (checkedLength_le_iff.mp fits deeper member)⟩
    rw [← visited] at free text parameters
    exact convertTree_eq_ok.mpr ⟨valid, free, text, parameters⟩
  next passed =>
    exact convertTree_eq_error.mpr (.inr ⟨valid, fault_of_descents (Nat.not_le.mp passed) shallow⟩)

/-- The text is at least as long as what is compared with the limit. -/
theorem checkedLength_le_length {condition : Condition}
    (converted : ({ settings with maxLength := reached } : Settings).convertTree tree =
      .ok condition) :
    settings.checkedLength tree ≤ condition.sql.length := by
  obtain ⟨-, succeeds, text, -⟩ := convertTree_eq_ok.mp converted
  rw [← text, visit_of_bounded (descents_within succeeds).2]
  refine checkedLength_le_iff.mpr fun deeper member => ?_
  have begins : deeper.text.toList <+: (settings.visitUnlimited .fresh tree).session.text.toList :=
    Fragment.descents_text settings _ .fresh member
  simpa only [String.length_toList] using begins.length_le

/-- **The limit on the length bounds what is written before the last look at it.** An expression
that is converted under some limit is converted to the same condition under all limits from the
greatest length on that is looked at, and refused under all smaller ones. The text itself may be
longer; it fits into all limits that let it through only if nothing is written behind the last
look. -/
theorem convertIn_of_checkedLength {expression : String} (parsed : parse? expression = some tree)
    {condition : Condition}
    (converted : ({ settings with maxLength := reached } : Settings).convertIn expression =
      .ok condition) :
    let within (limit : Nat) : Settings := { settings with maxLength := limit }
    let checked := settings.checkedLength tree
    checked ≤ condition.sql.length ∧
      (∀ limit, (within limit).convertIn expression =
        if checked ≤ limit then .ok condition else .error (.fault (.lengthExceeded limit))) ∧
      ((∀ limit, (within limit).convertIn expression = .ok condition →
        condition.sql.length ≤ limit) ↔
        checked = condition.sql.length) := by
  intro within checked
  have treeConverted : ({ settings with maxLength := reached } : Settings).convertTree tree =
      .ok condition := by
    rw [convertIn_of_parse? _ parsed] at converted
    cases found : ({ settings with maxLength := reached } : Settings).convertTree tree with
    | error fault => simp [found, Except.mapError] at converted
    | ok _ => simpa [found, Except.mapError] using converted
  have bounded : checked ≤ condition.sql.length := checkedLength_le_length treeConverted
  have outcome (limit : Nat) : (within limit).convertIn expression =
      if checked ≤ limit then .ok condition else .error (.fault (.lengthExceeded limit)) := by
    rw [convertIn_of_parse? _ parsed, convertTree_of_checkedLength treeConverted limit]
    split <;> rfl
  refine ⟨bounded, outcome, fun fits => ?_, fun same limit passes => ?_⟩
  · have least := fits checked (by rw [outcome, if_pos (Nat.le_refl _)])
    omega
  · rw [outcome] at passes
    split at passes
    next reaches => exact same ▸ reaches
    next => cases passes

/-- An equality whose literal stands behind the last look at the limit. -/
theorem convertIn_of_checkedLength_literal :
    let expression := "name == \"alice\""
    let within (limit : Nat) : Settings := { ({} : Settings) with maxLength := limit }
    ∃ tree condition, parse? expression = some tree ∧ ({} : Settings).checkedLength tree = 7 ∧
      condition.sql = "name = 'alice'" ∧
      (within 50000).convertIn expression = .ok condition ∧
      (within 7).convertIn expression = .ok condition ∧
      (within 6).convertIn expression = .error (.fault (.lengthExceeded 6)) := by
  intro expression within
  obtain ⟨tree, parsed⟩ :=
    Option.isSome_iff_exists.mp (show (parse? expression).isSome by decide +kernel)
  have checked : ∀ found ∈ parse? expression, ({} : Settings).checkedLength found = 7 :=
    by decide +kernel
  have seven := checked tree parsed
  have written : (within 50000).convert expression = .ok "name = 'alice'" := by decide +kernel
  cases converted : (within 50000).convertIn expression with
  | error failure =>
    have failed : (within 50000).convert expression = .error failure :=
      congrArg (Except.map _) converted
    simp [failed] at written
  | ok condition =>
    have text : (within 50000).convert expression = .ok condition.sql :=
      congrArg (Except.map _) converted
    obtain ⟨-, outcome, -⟩ := convertIn_of_checkedLength parsed converted
    refine ⟨tree, condition, parsed, seven, Except.ok.inj (text.symm.trans written), rfl, ?_, ?_⟩
    · rw [outcome 7, seven, if_pos (Nat.le_refl 7)]
    · rw [outcome 6, seven, if_neg (by decide)]
      rfl

/-- Fourteen characters are let through by a limit of ten. -/
theorem convert_beyond_limit :
    (({ maxLength := 10 } : Settings).convert "name == \"alice\"" = .ok "name = 'alice'") ∧
      10 < "name = 'alice'".length := by
  decide +kernel

end Settings

end CelWhere
