import CelWhere.Conversion
import CelWhere.Proofs.Provenance
import Mathlib.Data.List.Forall2

/-! # Written and bound literals

The same fragment can be run with its literals written out or bound as parameters. The two runs go
through the same steps: they stand at the same depth and under the same variables, and their texts
differ only where a literal stands. There one run has the spelling of the literal and the other the
next placeholder.

* `weave` — segments of text with one text behind each;
* `Session.Aligned` — what two sessions of the two runs have in common;
* `Outcome.Follows` — what the run with bound literals does beside a run with written literals that
  succeeds;
* `Fragment.run_follows` — running a fragment keeps sessions aligned, unless the bound run passes
  the length limit. The conversion of a tree runs the fragment of the tree. -/

namespace CelWhere

variable {value : Literal} {spelling : String} {settings : Settings} {tree : Tree}

/-! ## Segments and what stands between them -/

/-- Segments of text, each with a text behind it, and a last segment. -/
def weave : List String → List String → String → String
  | segment :: segments, hole :: holes, last => segment ++ hole ++ weave segments holes last
  | _, _, last => last

/-- What is written behind the last segment is written behind all of them. -/
theorem weave_append (segments holes : List String) (last text : String) :
    weave segments holes (last ++ text) = weave segments holes last ++ text := by
  induction segments generalizing holes with
  | nil => rfl
  | cons segment segments ih =>
    cases holes with
    | nil => rfl
    | cons hole holes => simp only [weave, ih, String.append_assoc]

/-- One more segment takes the place of the last one, with a text behind it. -/
theorem weave_snoc {segments holes : List String} (same : segments.length = holes.length)
    (segment hole : String) :
    weave (segments ++ [segment]) (holes ++ [hole]) "" = weave segments holes segment ++ hole := by
  induction segments generalizing holes with
  | nil =>
    obtain rfl : holes = [] := List.length_eq_zero_iff.mp same.symm
    simp [weave]
  | cons head segments ih =>
    cases holes with
    | nil => simp at same
    | cons first holes =>
      have shorter : segments.length = holes.length := by simpa using same
      simp only [List.cons_append, weave, ih shorter, String.append_assoc]

/-- The placeholders of the first parameters, in order. -/
def Dialect.placeholders (dialect : Dialect) (count : Nat) : List String :=
  (List.range count).map fun index => dialect.placeholder (index + 1 : Nat)

/-- There are as many placeholders as parameters. -/
@[simp] theorem Dialect.length_placeholders (dialect : Dialect) (count : Nat) :
    (dialect.placeholders count).length = count := by
  simp [placeholders]

/-- One more parameter has one more placeholder, behind the others. -/
theorem Dialect.placeholders_succ (dialect : Dialect) (count : Nat) :
    dialect.placeholders (count + 1) =
      dialect.placeholders count ++ [dialect.placeholder (count + 1 : Nat)] := by
  simp [placeholders, List.range_succ]

/-! ## Spellings -/

/-- How a literal of a tree is spelled: an integer by its decimal digits, a float by the text of the
token of the tree that denotes it, strings and bytes by the literals of the dialect. -/
def Literal.SpelledIn (dialect : Dialect) (tree : Tree) : Literal → String → Prop
  | .int value, text => text = Integer.toText value
  | .float source value, text =>
    text = source ∧ ⟨.float, source⟩ ∈ tree.tokens ∧ Binary64.read? source.toList = some value
  | .string value, text => text = dialect.stringLiteral value
  | .bytes value, text => text = dialect.bytesLiteral value

/-- The tokens that a literal is made from: a float holds the text of its token and the double that
the text denotes, and a string was looked through for null bytes. -/
def Literal.IsFrom (token : Token) : Literal → Prop
  | .int _ => token.kind = .int ∨ token.kind = .uint
  | .float source value => token = ⟨.float, source⟩ ∧ Binary64.read? source.toList = some value
  | .string value => (token.kind = .string ∨ token.kind = .multiline) ∧ '\x00' ∉ value.toList
  | .bytes _ => token.kind = .bytes

/-- The literal of a token is made from it. -/
theorem isFrom_of_literalOf {token : Token} {value : Literal}
    (made : literalOf token = .literal value) :
    value.IsFrom token := by
  obtain ⟨kind, text⟩ := token
  have integer {result : Except Fault Int} (isInteger : kind = .int ∨ kind = .uint)
      (made : Fragment.attempt result (fun number => .literal (.int number)) = .literal value) :
      value.IsFrom ⟨kind, text⟩ := by
    cases result with
    | error fault => simp at made
    | ok number =>
      obtain rfl := Fragment.literal.inj made
      exact isInteger
  cases kind with
  | int =>
    exact integer (.inl rfl) made
  | uint =>
    simp only [literalOf] at made
    exact integer (.inr rfl) made
  | float =>
    simp only [literalOf] at made
    split at made
    next found =>
      obtain rfl := Fragment.literal.inj made
      exact ⟨rfl, found⟩
    · simp at made
  | string | multiline =>
    simp only [literalOf, withoutNull, nullByteFault?] at made
    split at made
    · simp at made
    next passed =>
      obtain rfl := Fragment.literal.inj made
      refine ⟨by simp, fun member => ?_⟩
      simp [member] at passed
  | bytes =>
    obtain rfl := Fragment.literal.inj made
    rfl
  | null | bool | ident | other => simp [literalOf] at made

/-- What is written for the literal of a token of a tree is its spelling. -/
theorem Literal.spelledIn_of_inlineText {dialect : Dialect} {text : String}
    (source : ∃ token ∈ tree.tokens, literalOf token = .literal value)
    (written : value.inlineText dialect = .ok text) :
    value.SpelledIn dialect tree text := by
  obtain ⟨token, member, made⟩ := source
  cases value with
  | int value => exact inlineText_int written
  | float source value =>
    obtain ⟨rfl, denoted⟩ := isFrom_of_literalOf made
    exact ⟨(Except.ok.inj written).symm, member, denoted⟩
  | string value => exact (Except.ok.inj written).symm
  | bytes value => exact inlineText_bytes written

/-- Two texts with the same segments: in one of them a placeholder stands behind each segment but
the last, numbered from one on, and in the other the spelling of the parameter with that number. -/
def SameUpToParameters (dialect : Dialect) (tree : Tree) (parameters : List Literal)
    (bound written : String) :
    Prop :=
  ∃ (segments : List String) (last : String) (spellings : List String),
    segments.length = parameters.length ∧
    List.Forall₂ (Literal.SpelledIn dialect tree) parameters spellings ∧
    bound = weave segments (dialect.placeholders parameters.length) last ∧
    written = weave segments spellings last

namespace SameUpToParameters

variable {dialect : Dialect} {tree : Tree} {parameters : List Literal} {bound written : String}

theorem start : SameUpToParameters dialect tree [] "" "" :=
  ⟨[], "", [], rfl, .nil, rfl, rfl⟩

theorem write (same : SameUpToParameters dialect tree parameters bound written) (text : String) :
    SameUpToParameters dialect tree parameters (bound ++ text) (written ++ text) := by
  obtain ⟨segments, last, spellings, count, spelled, rfl, rfl⟩ := same
  -- No parameter is added, so only the text behind the last segment changes.
  exact ⟨segments, last ++ text, spellings, count, spelled, (weave_append ..).symm,
    (weave_append ..).symm⟩

/-- A literal ends the last segment: one side writes the next placeholder, the other the
spelling. -/
theorem bind (same : SameUpToParameters dialect tree parameters bound written)
    (spelled : value.SpelledIn dialect tree spelling) :
    SameUpToParameters dialect tree (parameters ++ [value])
      (bound ++ dialect.placeholder (parameters.length + 1 : Nat)) (written ++ spelling) := by
  obtain ⟨segments, last, spellings, count, earlier, rfl, rfl⟩ := same
  have spellingsCount : segments.length = spellings.length := count.trans earlier.length_eq
  have placeholdersCount : segments.length = (dialect.placeholders parameters.length).length := by
    rw [dialect.length_placeholders, count]
  -- What was the last segment now has a text behind it, and a new last segment is empty.
  refine ⟨segments ++ [last], "", spellings ++ [spelling], by simp [count], ?_, ?_, ?_⟩
  · exact List.rel_append earlier (.cons spelled .nil)
  · rw [List.length_append, List.length_singleton, dialect.placeholders_succ,
      weave_snoc placeholdersCount]
  · rw [weave_snoc spellingsCount]

end SameUpToParameters

/-! ## Aligned sessions -/

/-- A session with written literals and one with bound literals that stand at the same place: the
same depth, nesting and variables, and the same text up to the parameters. -/
structure Session.Aligned (dialect : Dialect) (tree : Tree) (written bound : Session) : Prop where
  /-- The depths are the same. -/
  depth : bound.depth = written.depth
  /-- The same number of comprehensions is around. -/
  nesting : bound.nesting = written.nesting
  /-- The same variables are bound. -/
  scope : bound.scope = written.scope
  /-- Each placeholder has its parameter. -/
  counted : bound.placeholders = bound.parameters.size
  /-- The texts differ only at the parameters. -/
  texts : SameUpToParameters dialect tree bound.parameters.toList bound.text written.text

namespace Session.Aligned

variable (change : Nat → Nat) (name : String)

variable {dialect : Dialect} {tree : Tree} {written bound : Session}

theorem fresh : Aligned dialect tree .fresh .fresh :=
  ⟨rfl, rfl, rfl, rfl, .start⟩

variable (aligned : Aligned dialect tree written bound)

include aligned

theorem write (text : String) : Aligned dialect tree (written.write text) (bound.write text) :=
  { aligned with texts := aligned.texts.write text }

/-- Writing a spelling and binding its literal keeps sessions aligned. -/
theorem bind (spelled : value.SpelledIn dialect tree spelling) :
    Aligned dialect tree (written.write spelling) (bound.bind dialect value) where
  depth := aligned.depth
  nesting := aligned.nesting
  scope := aligned.scope
  counted := by simp [Session.bind, aligned.counted]
  texts := by
    -- The placeholder is numbered by the counter, which is the number of parameters so far.
    have next := aligned.texts.bind spelled
    simpa [Session.bind, aligned.counted] using next

/-- Changing the depth of both sessions alike keeps them aligned. -/
theorem changeDepth :
    Aligned dialect tree { written with depth := change written.depth }
      { bound with depth := change bound.depth } :=
  { aligned with depth := congrArg change aligned.depth }

/-- Changing the nesting of both sessions alike keeps them aligned. -/
theorem changeNesting :
    Aligned dialect tree { written with nesting := change written.nesting }
      { bound with nesting := change bound.nesting } :=
  { aligned with nesting := congrArg change aligned.nesting }

theorem enter : Aligned dialect tree (written.enter name) (bound.enter name) :=
  { aligned with scope := by simp only [Session.enter, aligned.scope] }

theorem leave : Aligned dialect tree (written.leave name) (bound.leave name) :=
  { aligned with scope := by simp only [Session.leave, aligned.scope] }

end Session.Aligned

/-- What a run with bound literals does beside a run with written literals that succeeds: it passes
the length limit, or it succeeds too and the sessions are aligned. -/
def Outcome.Follows (settings : Settings) (tree : Tree) (written : Session) (bound : Outcome) :
    Prop :=
  bound.fault = some (.lengthExceeded settings.maxLength) ∨
    bound.fault = none ∧ Session.Aligned settings.dialect tree written bound.session

namespace Outcome.Follows

variable {settings : Settings} {tree : Tree} {written : Session}

/-- A run that reaches an aligned session follows. -/
theorem succeed {bound : Session} (aligned : Session.Aligned settings.dialect tree written bound) :
    Follows settings tree written ⟨bound, none⟩ :=
  .inr ⟨rfl, aligned⟩

/-- Setting back the place at the end of both runs keeps them together. -/
theorem closing {bound : Outcome} {change : Session → Session}
    (follows : Follows settings tree written bound)
    (kept : Session.Aligned settings.dialect tree written bound.session →
      Session.Aligned settings.dialect tree (change written) (change bound.session)) :
    Follows settings tree (change written) (bound.closing change) := by
  rcases follows with exceeded | ⟨succeeds, aligned⟩
  · -- A run that has passed the limit fails whatever its session is set back to.
    exact .inl exceeded
  · exact .inr ⟨succeeds, kept aligned⟩

end Outcome.Follows

/-- A chain of runs succeeds only if both of its runs do. -/
theorem Outcome.fault_andThen {outcome : Outcome} {next : Session → Outcome}
    (succeeds : (outcome.andThen next).fault = none) :
    outcome.fault = none ∧ outcome.andThen next = next outcome.session := by
  unfold andThen at succeeds ⊢
  cases found : outcome.fault with
  | none => simp
  | some fault => simp [found] at succeeds

/-- Where a session has passed no limit, an aligned session is not too deep either, but its text can
be too long. -/
theorem Session.Aligned.limitFault {written bound : Session}
    (aligned : Aligned settings.dialect tree written bound)
    (allowed : written.limitFault? { settings with mode := .inline } = none) :
    bound.limitFault? { settings with mode := .parameterized } = none ∨
      bound.limitFault? { settings with mode := .parameterized } =
      some (.lengthExceeded settings.maxLength) := by
  unfold limitFault? at allowed ⊢
  rw [aligned.depth]
  split at allowed
  · simp at allowed
  · next shallow =>
    rw [if_neg shallow]
    by_cases long : bound.exceeds settings.maxLength
    · exact .inr (if_pos long)
    · exact .inl (if_neg long)

/-- **The two modes run in step.** From aligned sessions, where the run with written literals
succeeds, the run with bound literals follows it. -/
theorem Fragment.run_follows (settings : Settings) (tree : Tree) (fragment : Fragment)
    (sourced : fragment.EachLiteral fun value => ∃ token ∈ tree.tokens, literalOf token =
      .literal value) {written bound : Session}
    (aligned : Session.Aligned settings.dialect tree written bound)
    (succeeds : (fragment.run { settings with mode := .inline } written).fault = none) :
    Outcome.Follows settings tree (fragment.run { settings with mode := .inline } written).session
      (fragment.run { settings with mode := .parameterized } bound) := by
  -- The sessions before a part are not those before the whole, so both are general in the
  -- induction.
  induction fragment generalizing written bound with
  | text sql => exact .succeed (aligned.write sql)
  | literal value =>
    have source := sourced value (by simp [literals])
    simp only [run] at succeeds ⊢
    cases spelling : value.inlineText settings.dialect with
    | error fault => simp [spelling] at succeeds
    | ok spelling =>
      -- Binding cannot fail: one run writes the spelling, the other the placeholder.
      exact .succeed (aligned.bind (Literal.spelledIn_of_inlineText source ‹_›))
  | append first second firstIh secondIh =>
    obtain ⟨firstSourced, secondSourced⟩ := (eachLiteral_append first second).mp sourced
    obtain ⟨firstSucceeds, unchained⟩ := Outcome.fault_andThen succeeds
    simp only [run] at succeeds ⊢
    rw [unchained] at succeeds ⊢
    rcases firstIh firstSourced aligned firstSucceeds with exceeded | ⟨boundSucceeds, between⟩
    · -- The second part is not reached.
      exact .inl (by simp [Outcome.andThen, exceeded])
    · simpa [Outcome.andThen, boundSucceeds] using secondIh secondSourced between succeeds
  | nested body ih =>
    have deeper := aligned.changeDepth (· + 1)
    simp only [run] at succeeds ⊢
    -- The depth limit sees both runs alike; only the length limit can stop the run with bound
    -- literals alone.
    cases limit : Session.limitFault? { settings with mode := .inline }
      { written with depth := written.depth + 1 } with
    | some fault => simp [limit] at succeeds
    | none =>
      simp only [limit, Outcome.closing_fault] at succeeds ⊢
      rcases deeper.limitFault limit with allowed | exceeded
      · rw [allowed]
        exact (ih sourced deeper succeeds).closing fun after => after.changeDepth (· - 1)
      · rw [exceeded]
        exact .inl rfl
  | comprehension body ih =>
    have inner := aligned.changeNesting (· + 1)
    by_cases full : comprehensionLimit ≤ written.nesting
    · simp [run, full] at succeeds
    · -- The nesting is the same, so the limit on it stops both runs or neither.
      have alsoFull : ¬comprehensionLimit ≤ bound.nesting := by rwa [aligned.nesting]
      simp only [run, if_neg full, if_neg alsoFull, Outcome.closing_fault] at succeeds ⊢
      exact (ih sourced inner succeeds).closing fun after => after.changeNesting (· - 1)
  | binding name body ih =>
    exact (ih sourced (aligned.enter name) succeeds).closing fun after => after.leave name
  -- The checks of variables and fields ask only for the scope.
  | unlessBound name fault =>
    simp only [run, aligned.scope] at succeeds ⊢
    exact .inr ⟨succeeds, aligned⟩
  | known table field =>
    simp only [run, aligned.scope] at succeeds ⊢
    exact .inr ⟨succeeds, aligned⟩
  | fail fault => simp [run] at succeeds

/-- A conversion succeeds with what the run of the tree's fragment reaches. -/
theorem Settings.convertTree_eq_ok {condition : Condition} :
    settings.convertTree tree = .ok condition ↔
      settings.fault? = none ∧ (settings.visit .fresh tree).fault = none ∧
        (settings.visit .fresh tree).session.text = condition.sql ∧
        (settings.visit .fresh tree).session.parameters = condition.parameters := by
  obtain ⟨sql, parameters⟩ := condition
  unfold convertTree
  cases settings.fault? with
  | some fault => simp
  | none => cases found : (settings.visit .fresh tree).fault <;> simp [found]

/-- A conversion fails with the fault of the settings, or else with the one that the run of the
tree's fragment ends with. -/
theorem Settings.convertTree_eq_error {fault : Fault} :
    settings.convertTree tree = .error fault ↔
      settings.fault? = some fault ∨ settings.fault? = none ∧ (settings.visit .fresh tree).fault =
      some fault := by
  unfold convertTree
  cases settings.fault? with
  | some fault => simp
  | none => cases found : (settings.visit .fresh tree).fault <;> simp [found]

/-- **Written and bound literals agree.** Where a tree is converted with its literals written out,
and the length limit does not stop the conversion with bound literals, that one succeeds too. Both
texts have the same segments: one has the placeholders behind them, numbered from one on without
gap, and the other has in the place of each placeholder the spelling of its parameter. -/
theorem Settings.convertTree_parameterized_of_inline (settings : Settings) (tree : Tree)
    {written : Condition}
    (succeeds : ({ settings with mode := .inline } : Settings).convertTree tree = .ok written)
    (fits : ({ settings with mode := .parameterized } : Settings).convertTree tree ≠
      .error (.lengthExceeded settings.maxLength)) :
    ∃ bound, ({ settings with mode := .parameterized } : Settings).convertTree tree = .ok bound ∧
      SameUpToParameters settings.dialect tree bound.parameters.toList bound.sql written.sql := by
  obtain ⟨valid, fault, text, -⟩ := convertTree_eq_ok.mp succeeds
  have sourced := settings.context.literals_of_tokens tree
  rcases Fragment.run_follows settings tree _ sourced .fresh fault with
    exceeded | ⟨boundFault, aligned⟩
  · -- A run that passes the limit is a conversion that fails with it.
    refine absurd ?_ fits
    have boundValid : ({ settings with mode := .parameterized } : Settings).fault? = none := valid
    have boundExceeded : (({ settings with mode := .parameterized } : Settings).visit
        .fresh tree).fault =
      some (.lengthExceeded settings.maxLength) := exceeded
    simp only [convertTree, boundValid, boundExceeded]
  · let bound := (({ settings with mode := .parameterized } : Settings).visit .fresh tree).session
    refine ⟨⟨bound.text, bound.parameters⟩, convertTree_eq_ok.mpr ⟨valid, boundFault, rfl, rfl⟩, ?_⟩
    rw [← text]
    exact aligned.texts

/-- A method that writes its receiver and its argument twice binds four parameters. -/
theorem Settings.convertTree_parameterized_of_inline_indexOf :
    let tree := Tree.node .memberDotArg [.node .literal [.token ⟨.string, "\"it's\""⟩],
      .token ⟨.ident, "indexOf"⟩, .node .exprList [.node .literal [.token ⟨.int, "0x1F"⟩]]]
    let sql := "CASE WHEN POSITION(31 IN 'it''s') > 0 THEN POSITION(31 IN 'it''s') - 1 ELSE -1 END"
    ({} : Settings).convertTree tree = .ok ⟨sql, #[]⟩ ∧
    ({ mode := .parameterized } : Settings).convertTree tree ≠
    .error (.lengthExceeded defaultMaxLength) ∧
    ∃ bound, ({ mode := .parameterized } : Settings).convertTree tree = .ok bound ∧
      bound.parameters.size = 4 ∧
      SameUpToParameters .postgresql tree bound.parameters.toList bound.sql sql := by
  intro tree sql
  have succeeds : ({} : Settings).convertTree tree = .ok ⟨sql, #[]⟩ := by rfl
  have fits : ({ mode := .parameterized } : Settings).convertTree tree ≠
      .error (.lengthExceeded defaultMaxLength) := by
    rintro ⟨⟩
  obtain ⟨bound, converted, same⟩ := convertTree_parameterized_of_inline {} tree succeeds fits
  refine ⟨succeeds, fits, bound, converted, ?_, same⟩
  obtain rfl := Except.ok.inj converted
  rfl

end CelWhere
