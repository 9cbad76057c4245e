import CelWhere.Proofs.Alignment
import CelWhere.Proofs.Numeral
import CelWhere.Proofs.Restoration

/-! # Sessions that are used again

A visit does on a used session what it does on a fresh one. It asks neither for the text nor for the
parameters that are already there, apart from the limit on the length, so it appends what the fresh
session gets. Only the numbers of the placeholders are shifted, by the number of parameters before
them.

* `ShiftedBy` — two texts that differ in the numbers of their placeholders;
* `Session.Repeats` — what a used session is to a fresh one at the same place of a visit;
* `Fragment.run_repeats` — running a fragment keeps this, unless the used session passes the length
  limit. -/

namespace CelWhere

/-! ## Shifted placeholders -/

/-- The placeholders of parameters that stand behind others, in order. -/
def Dialect.placeholdersAfter (dialect : Dialect) (earlier count : Nat) : List String :=
  (List.range count).map fun index => dialect.placeholder (earlier + index + 1 : Nat)

/-- There are as many placeholders as parameters. -/
@[simp] theorem Dialect.length_placeholdersAfter (dialect : Dialect) (earlier count : Nat) :
    (dialect.placeholdersAfter earlier count).length = count := by
  simp [placeholdersAfter]

/-- One more parameter has one more placeholder, behind the others. -/
theorem Dialect.placeholdersAfter_succ (dialect : Dialect) (earlier count : Nat) :
    dialect.placeholdersAfter earlier (count + 1) =
      dialect.placeholdersAfter earlier count ++
      [dialect.placeholder (earlier + count + 1 : Nat)] := by
  simp [placeholdersAfter, List.range_succ]

/-- The placeholder of a later parameter is no shorter. -/
theorem Dialect.length_placeholder_mono (dialect : Dialect) {first second : Nat}
    (le : first ≤ second) :
    (dialect.placeholder first).length ≤ (dialect.placeholder second).length := by
  have digits := Integer.length_toText_mono le
  cases dialect with
  | postgresql | duckdb | bigquery =>
    simp only [placeholder, String.length_append]
    omega
  | mysql | sqlite => simp [placeholder]

/-- Two texts with the same segments and a number of placeholders between them, which are numbered
from one on in the first text, and behind earlier parameters in the second. -/
def ShiftedBy (dialect : Dialect) (earlier count : Nat) (first second : String) : Prop :=
  ∃ (segments : List String) (last : String),
    segments.length = count ∧
    first = weave segments (dialect.placeholders count) last ∧
    second = weave segments (dialect.placeholdersAfter earlier count) last

namespace ShiftedBy

variable {dialect : Dialect} {earlier count : Nat} {first second : String}

theorem start : ShiftedBy dialect earlier 0 "" "" :=
  ⟨[], "", rfl, rfl, rfl⟩

/-- Text that stands behind both belongs to the last segment. -/
theorem write (shifted : ShiftedBy dialect earlier count first second) (text : String) :
    ShiftedBy dialect earlier count (first ++ text) (second ++ text) := by
  obtain ⟨segments, last, same, rfl, rfl⟩ := shifted
  exact ⟨segments, last ++ text, same, (weave_append ..).symm, (weave_append ..).symm⟩

/-- A parameter ends the last segment with its two placeholders. -/
theorem bind (shifted : ShiftedBy dialect earlier count first second) :
    ShiftedBy dialect earlier (count + 1) (first ++ dialect.placeholder (count + 1 : Nat))
      (second ++ dialect.placeholder (earlier + count + 1 : Nat)) := by
  obtain ⟨segments, last, same, rfl, rfl⟩ := shifted
  have firstSame : segments.length = (dialect.placeholders count).length := by simp [same]
  have secondSame : segments.length = (dialect.placeholdersAfter earlier count).length :=
    by simp [same]
  refine ⟨segments ++ [last], "", by simp [same], ?_, ?_⟩
  · rw [dialect.placeholders_succ, weave_snoc firstSame]
  · rw [dialect.placeholdersAfter_succ, weave_snoc secondSame]

/-- Without placeholders the two texts are the same. -/
theorem eq (shifted : ShiftedBy dialect earlier 0 first second) : first = second := by
  obtain ⟨segments, last, same, rfl, rfl⟩ := shifted
  obtain rfl : segments = [] := List.length_eq_zero_iff.mp same
  rfl

end ShiftedBy

/-! ## Repeated visits -/

/-- A used session that repeats on top of a base what a fresh session does: both stand at the same
place, and the used session has appended to the base the parameters of the fresh one and its text
with shifted placeholders. -/
structure Session.Repeats (settings : Settings) (base fresh used : Session) : Prop where
  /-- The depths are the same. -/
  depth : used.depth = fresh.depth
  /-- The same number of comprehensions is around. -/
  nesting : used.nesting = fresh.nesting
  /-- The same variables are bound. -/
  scope : used.scope = fresh.scope
  /-- Each placeholder of the fresh session has its parameter. -/
  counted : fresh.placeholders = fresh.parameters.size
  /-- The placeholders of the used session are numbered behind those of the base. -/
  placeholders : used.placeholders = base.parameters.size + fresh.parameters.size
  /-- The parameters are appended. -/
  parameters : used.parameters = base.parameters ++ fresh.parameters
  /-- The text is appended, with shifted placeholders. -/
  text : ∃ added, used.text = base.text ++ added ∧
    ShiftedBy settings.dialect base.parameters.size fresh.parameters.size fresh.text added
  /-- The text of the used session is no shorter. -/
  length : fresh.text.length ≤ used.text.length
  /-- Literals that are written out are no parameters. -/
  inline : settings.mode = .inline → fresh.parameters = #[]

namespace Session.Repeats

variable {settings : Settings} {base fresh used : Session}

theorem start (rest : base.AtRest) : Repeats settings base .fresh base where
  depth := rest.depth
  nesting := rest.nesting
  scope := rest.scope
  counted := rfl
  placeholders := rest.counted
  parameters := by simp [Session.fresh]
  text := ⟨"", by simp, .start⟩
  length := Nat.zero_le _
  inline _ := rfl

variable (repeats : Repeats settings base fresh used)

include repeats

/-- Both sessions write the same text. -/
theorem write (text : String) : Repeats settings base (fresh.write text) (used.write text) :=
  { repeats with
    text := by
      obtain ⟨added, appended, shifted⟩ := repeats.text
      exact ⟨added ++ text, by rw [write_text, appended, String.append_assoc], shifted.write text⟩
    length := by
      simp only [write_text, String.length_append]
      exact Nat.add_le_add_right repeats.length _ }

/-- Both sessions bind the same parameter. -/
theorem bind (bound : settings.mode = .parameterized) (value : Literal) :
    Repeats settings base (fresh.bind settings.dialect value)
      (used.bind settings.dialect value) where
  depth := repeats.depth
  nesting := repeats.nesting
  scope := repeats.scope
  counted := by simp [Session.bind, repeats.counted]
  placeholders := by
    simp only [Session.bind, repeats.placeholders, Array.size_push]
    omega
  parameters := by simp [Session.bind, repeats.parameters]
  text := by
    obtain ⟨added, appended, shifted⟩ := repeats.text
    -- Both numbers come from the counters, which are the numbers of the parameters so far.
    refine ⟨added ++ settings.dialect.placeholder (base.parameters.size + fresh.parameters.size +
      1 : Nat), ?_, ?_⟩
    · simp only [Session.bind, appended, repeats.placeholders, String.append_assoc]
    · simpa only [Session.bind, repeats.counted, Array.size_push] using shifted.bind
  length := by
    have longer := settings.dialect.length_placeholder_mono
      (show fresh.placeholders + 1 ≤ used.placeholders + 1 by
        rw [repeats.counted, repeats.placeholders]
        omega)
    simp only [Session.bind, String.length_append]
    exact Nat.add_le_add repeats.length longer
  inline inline := by simp [bound] at inline

/-- Changing the depth of both sessions alike. -/
theorem changeDepth (change : Nat → Nat) :
    Repeats settings base { fresh with depth := change fresh.depth }
      { used with depth := change used.depth } :=
  { repeats with depth := congrArg change repeats.depth }

/-- Changing the nesting of both sessions alike. -/
theorem changeNesting (change : Nat → Nat) :
    Repeats settings base { fresh with nesting := change fresh.nesting }
      { used with nesting := change used.nesting } :=
  { repeats with nesting := congrArg change repeats.nesting }

theorem enter (name : String) : Repeats settings base (fresh.enter name) (used.enter name) :=
  { repeats with scope := by simp only [Session.enter, repeats.scope] }

theorem leave (name : String) : Repeats settings base (fresh.leave name) (used.leave name) :=
  { repeats with scope := by simp only [Session.leave, repeats.scope] }

/-- A text that is too long in the fresh session is too long in the used one. -/
theorem exceeds {limit : Int} (long : fresh.exceeds limit) : used.exceeds limit := by
  have length := repeats.length
  rw [exceeds_iff] at long ⊢
  omega

/-- The limits see both sessions alike, unless the used one has passed the length limit. -/
theorem limitFault :
    used.limitFault? settings = some (.lengthExceeded settings.maxLength) ∨
      used.limitFault? settings = fresh.limitFault? settings := by
  unfold limitFault?
  rw [repeats.depth]
  by_cases deep : settings.maxDepth < fresh.depth
  · rw [if_pos deep, if_pos deep]
    exact .inr rfl
  · rw [if_neg deep, if_neg deep]
    by_cases long : used.exceeds settings.maxLength
    · exact .inl (if_pos long)
    · have alsoShort : ¬fresh.exceeds settings.maxLength :=
        fun freshLong => long (repeats.exceeds freshLong)
      rw [if_neg long, if_neg alsoShort]
      exact .inr rfl

end Session.Repeats

/-- What a run on a used session does beside the run on a fresh one: it passes the length limit, or
it ends in the same way with sessions that repeat. -/
def Outcome.Repeats (settings : Settings) (base : Session) (fresh used : Outcome) : Prop :=
  used.fault = some (.lengthExceeded settings.maxLength) ∨
    used.fault = fresh.fault ∧ Session.Repeats settings base fresh.session used.session

namespace Outcome.Repeats

variable {settings : Settings} {base : Session} {fresh used : Outcome}

/-- Setting back the place at the end of both runs. -/
theorem closing {change : Session → Session} (repeats : Repeats settings base fresh used)
    (kept : Session.Repeats settings base fresh.session used.session →
      Session.Repeats settings base (change fresh.session) (change used.session)) :
    Repeats settings base (fresh.closing change) (used.closing change) := by
  rcases repeats with exceeded | ⟨same, sessions⟩
  · exact .inl exceeded
  · exact .inr ⟨same, kept sessions⟩

/-- Going on after both runs. -/
theorem andThen {next : Session → Outcome} (repeats : Repeats settings base fresh used)
    (kept : Session.Repeats settings base fresh.session used.session →
      Repeats settings base (next fresh.session) (next used.session)) :
    Repeats settings base (fresh.andThen next) (used.andThen next) := by
  rcases repeats with exceeded | ⟨same, sessions⟩
  · -- The run on the used session has ended.
    exact .inl (by simp [Outcome.andThen, exceeded])
  · unfold Outcome.andThen
    cases ended : fresh.fault with
    | none =>
      rw [same, ended]
      exact kept sessions
    | some fault =>
      rw [same, ended]
      exact .inr ⟨same, sessions⟩

end Outcome.Repeats

/-- **A run repeats on a used session** what it does on a fresh one. -/
theorem Fragment.run_repeats (settings : Settings) (base : Session) (fragment : Fragment)
    {fresh used : Session} (repeats : Session.Repeats settings base fresh used) :
    Outcome.Repeats settings base (fragment.run settings fresh) (fragment.run settings used) := by
  induction fragment generalizing fresh used with
  | text sql => exact .inr ⟨rfl, repeats.write sql⟩
  | literal value =>
    simp only [run]
    cases mode : settings.mode with
    | parameterized => exact .inr ⟨rfl, repeats.bind mode value⟩
    | inline =>
      cases value.inlineText settings.dialect with
      | ok spelling => exact .inr ⟨rfl, repeats.write spelling⟩
      | error fault => exact .inr ⟨rfl, repeats⟩
  | append first second firstIh secondIh =>
    exact (firstIh repeats).andThen fun between => secondIh between
  | nested body ih =>
    have deeper := repeats.changeDepth (· + 1)
    simp only [run]
    rcases deeper.limitFault with exceeded | same
    · rw [exceeded]
      exact .inl rfl
    · rw [same]
      cases Session.limitFault? settings { fresh with depth := fresh.depth + 1 } with
      | some fault => exact .inr ⟨rfl, repeats⟩
      | none => exact (ih deeper).closing fun after => after.changeDepth (· - 1)
  | comprehension body ih =>
    have inner := repeats.changeNesting (· + 1)
    simp only [run, repeats.nesting] at inner ⊢
    split
    · exact .inr ⟨rfl, repeats⟩
    · exact (ih inner).closing fun after => after.changeNesting (· - 1)
  | binding name body ih =>
    exact (ih (repeats.enter name)).closing fun after => after.leave name
  -- The checks of variables and fields ask only for the scope.
  | unlessBound name fault =>
    simp only [run, repeats.scope]
    exact .inr ⟨rfl, repeats⟩
  | known table field =>
    simp only [run, repeats.scope]
    exact .inr ⟨rfl, repeats⟩
  | fail fault => exact .inr ⟨rfl, repeats⟩

/-- **A used session behaves like a fresh one.** After any visits, whether they succeeded or failed,
a further visit that the length limit does not end has the outcome that it has on a fresh session,
with the same fault if it fails. The parameters of the fresh session are appended, and its text,
also that of a failing visit, with the placeholders numbered behind the parameters that were there.
With literals written out, the text itself is appended. -/
theorem Settings.visit_used (settings : Settings) {earlier : List Tree} {before : Session}
    (reached : before ∈ settings.history earlier) (tree : Tree)
    (fits : (settings.visit before tree).fault ≠ some (.lengthExceeded settings.maxLength)) :
    let used := settings.visit before tree
    let fresh := settings.visit .fresh tree
    used.fault = fresh.fault ∧
    used.session.parameters = before.parameters ++ fresh.session.parameters ∧
    (∃ added, used.session.text = before.text ++ added ∧
      ShiftedBy settings.dialect before.parameters.size fresh.session.parameters.size
      fresh.session.text added) ∧
    (settings.mode = .inline → used.session.text = before.text ++ fresh.session.text) := by
  intro used fresh
  have start : Session.Repeats settings before .fresh before :=
    .start (atRest_of_mem_history reached)
  rcases Fragment.run_repeats settings before (settings.context.fragment tree) start with
    exceeded | ⟨same, repeats⟩
  · exact absurd exceeded fits
  · refine ⟨same, repeats.parameters, repeats.text, fun inline => ?_⟩
    obtain ⟨added, appended, shifted⟩ := repeats.text
    rw [repeats.inline inline] at shifted
    obtain rfl := shifted.eq
    exact appended

/-- Two visits that fail behind a parameter each. -/
theorem Settings.visit_used_failing :
    let settings : Settings := { mode := .parameterized }
    let number (text : String) : Tree := .node .literal [.token ⟨.int, text⟩]
    let earlier : Tree :=
      .node .multiplication [.node .multiplicationMod [number "7"], .node .memberObject []]
    let tree : Tree := .node .conditionalOr [number "2", .node .ident [.token ⟨.ident, "select"⟩]]
    let before : Session := { text := "MOD($1, ", parameters := #[.int 7], placeholders := 1 }
    before ∈ settings.history [earlier] ∧
    (settings.visit before tree).fault = some (.reservedName "select" "SQL") ∧
    (settings.visit .fresh tree).fault = some (.reservedName "select" "SQL") ∧
    (settings.visit before tree).session.parameters = #[.int 7, .int 2] ∧
    ∃ added, (settings.visit before tree).session.text = "MOD($1, " ++ added ∧ added = "$2 OR " ∧
      ShiftedBy .postgresql 1 1 "$1 OR " added := by
  intro settings number earlier tree before
  have reached : before ∈ settings.history [earlier] := .tail _ (.head _)
  have fault : (settings.visit before tree).fault = some (.reservedName "select" "SQL") := by rfl
  have fits : (settings.visit before tree).fault ≠ some (.lengthExceeded settings.maxLength) := by
    rw [fault]
    simp
  obtain ⟨same, parameters, ⟨added, appended, shifted⟩, -⟩ := visit_used settings reached tree fits
  refine ⟨reached, fault, same ▸ fault, parameters, added, appended, ?_, shifted⟩
  have written : (settings.visit before tree).session.text = "MOD($1, " ++ "$2 OR " := by rfl
  rw [written] at appended
  exact (String.append_right_inj _).mp appended.symm

end CelWhere
