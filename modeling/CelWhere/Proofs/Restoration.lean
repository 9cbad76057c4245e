import CelWhere.Conversion
import Mathlib.Data.List.Chain

/-! # What a run leaves behind

A run only adds to the text and to the parameters, and it sets the depth, the nesting and the
variables back on every way out, whether it succeeds or fails at some point inside. So a session is
at rest after every visit.

* `Fragment.runGuarded` — runs under any check of going deeper, of which the limits are one
  (`Fragment.run_withLimits`);
* `Session.Continues` — what one session is to another that a run starts from;
* `Fragment.runGuarded_continues` — every run continues its session;
* `Session.AtRest` — sessions between visits, and `Settings.atRest_of_mem_history` for all that
  visits lead to. -/

namespace CelWhere

variable {session : Session} (settings : Settings)

/-! ## Runs under a guard -/

/-- The settings with other limits. -/
def Settings.withLimits (settings : Settings) (maxDepth maxLength : Int) : Settings :=
  { settings with maxDepth, maxLength }

/-- Runs a fragment under a guard: a check of the session that is made whenever the run goes one
level deeper. -/
def Fragment.runGuarded (settings : Settings) (guard : Session → Option Fault) :
    Fragment → Session → Outcome
  | .append first second, session =>
    (first.runGuarded settings guard session).andThen (second.runGuarded settings guard)
  | .nested body, session =>
    let deeper := { session with depth := session.depth + 1 }
    match guard deeper with
    | some fault => { session, fault := some fault }
    | none => (body.runGuarded settings guard deeper).closing fun after => { after with depth :=
      after.depth - 1 }
  | .comprehension body, session =>
    if comprehensionLimit ≤ session.nesting then
      { session, fault := some (.comprehensionDepthExceeded session.nesting) }
    else
      (body.runGuarded settings guard { session with nesting := session.nesting + 1 }).closing
        fun after =>
        { after with nesting := after.nesting - 1 }
  | .binding name body, session =>
    (body.runGuarded settings guard (session.enter name)).closing (·.leave name)
  | leaf, session => leaf.run settings session

/-- A run under limits is a run that the limits guard. -/
theorem Fragment.run_withLimits (maxDepth maxLength : Int) (fragment : Fragment)
    (session : Session) :
    fragment.run (settings.withLimits maxDepth maxLength) session =
      fragment.runGuarded settings (Session.limitFault? (settings.withLimits maxDepth maxLength))
      session := by
  induction fragment generalizing session with
  | append first second firstIh secondIh =>
    simp only [run, runGuarded, firstIh]
    congr
    funext between
    exact secondIh between
  | nested body ih =>
    simp only [run, runGuarded]
    cases Session.limitFault? (settings.withLimits maxDepth maxLength)
      { session with depth := session.depth + 1 } with
    | some fault => rfl
    | none => simp only [ih]
  | comprehension body ih => simp only [run, runGuarded, ih]
  | binding name body ih => simp only [run, runGuarded, ih]
  -- The other fragments do not go deeper, and ask for no limit.
  | text | literal | unlessBound | known | fail => rfl

/-- A run is guarded by the limits of its settings. -/
theorem Fragment.run_eq_runGuarded (fragment : Fragment) (session : Session) :
    fragment.run settings session =
      fragment.runGuarded settings (Session.limitFault? settings) session :=
  fragment.run_withLimits settings settings.maxDepth settings.maxLength session

/-! ## Continued sessions -/

/-- What a session is to the one that a run starts from: it stands at the same place, and its text
and parameters begin with the earlier ones. Variables can be lost, since leaving the inner one of
two scopes of a variable unbinds it. -/
structure Session.Continues (before after : Session) : Prop where
  /-- The depth is set back. -/
  depth : after.depth = before.depth
  /-- The nesting is set back. -/
  nesting : after.nesting = before.nesting
  /-- No variable stays bound that was not bound before. -/
  scope : after.scope ⊆ before.scope
  /-- The text grows at its end. -/
  text : before.text.toList <+: after.text.toList
  /-- The parameters grow at their end. -/
  parameters : before.parameters.toList <+: after.parameters.toList
  /-- Each new placeholder has its parameter. -/
  counted : before.placeholders = before.parameters.size →
    after.placeholders = after.parameters.size

namespace Session.Continues

variable {before between after : Session}

theorem refl (session : Session) : session.Continues session :=
  ⟨rfl, rfl, List.Subset.refl _, List.prefix_rfl, List.prefix_rfl, id⟩

/-- A session continues what an earlier one continues. -/
theorem trans (first : before.Continues between) (second : between.Continues after) :
    before.Continues after where
  depth := second.depth.trans first.depth
  nesting := second.nesting.trans first.nesting
  scope := List.Subset.trans second.scope first.scope
  text := first.text.trans second.text
  parameters := first.parameters.trans second.parameters
  counted := second.counted ∘ first.counted

theorem write (session : Session) (text : String) : session.Continues (session.write text) :=
  { refl session with text := by simp }

/-- Binding a parameter continues a session. -/
theorem bind (dialect : Dialect) (session : Session) (value : Literal) :
    session.Continues (session.bind dialect value) :=
  { refl session with
    text := by simp [Session.bind]
    parameters := by simp [Session.bind]
    counted := by
      intro counted
      simp [Session.bind, counted] }

/-- Going deeper and coming back continues a session. -/
theorem deeper (inside : Session.Continues { before with depth := before.depth + 1 } after) :
    before.Continues { after with depth := after.depth - 1 } :=
  { inside with
    depth := by
      have depth := inside.depth
      simp only at depth ⊢
      omega }

/-- Entering and leaving a comprehension continues a session. -/
theorem nested (inside : Session.Continues { before with nesting := before.nesting + 1 } after) :
    before.Continues { after with nesting := after.nesting - 1 } :=
  { inside with
    nesting := by
      have nesting := inside.nesting
      simp only at nesting ⊢
      omega }

/-- The scope of a variable continues a session. -/
theorem bound {name : String} (inside : (before.enter name).Continues after) :
    before.Continues (after.leave name) :=
  { inside with
    scope := by
      intro other member
      obtain ⟨kept, different⟩ := List.mem_filter.mp member
      -- What is still bound inside is the variable itself or was bound before it.
      have entered := inside.scope kept
      simp only [Session.enter] at entered
      split at entered
      · exact entered
      · rcases List.mem_cons.mp entered with rfl | earlier
        · simp at different
        · exact earlier }

end Session.Continues

/-- Running two fragments continues a session if each of them does. -/
theorem Outcome.andThen_continues {outcome : Outcome} {next : Session → Outcome}
    (first : session.Continues outcome.session)
    (second : outcome.session.Continues (next outcome.session).session) :
    session.Continues (outcome.andThen next).session := by
  unfold andThen
  cases outcome.fault with
  | none => exact first.trans second
  | some fault => exact first

/-- **Every run continues its session**, whatever guards it, and also if it fails. -/
theorem Fragment.runGuarded_continues (guard : Session → Option Fault) (fragment : Fragment)
    (session : Session) :
    session.Continues (fragment.runGuarded settings guard session).session := by
  induction fragment generalizing session with
  | text sql => exact .write session sql
  | literal value =>
    simp only [runGuarded, run]
    cases settings.mode with
    | parameterized => exact .bind settings.dialect session value
    | inline =>
      cases value.inlineText settings.dialect with
      | ok spelling => exact .write session spelling
      | error fault => exact .refl session
  | append first second firstIh secondIh =>
    exact Outcome.andThen_continues (firstIh session) (secondIh _)
  | nested body ih =>
    simp only [runGuarded]
    cases guard { session with depth := session.depth + 1 } with
    | some fault => exact .refl session
    | none => exact (ih _).deeper
  | comprehension body ih =>
    simp only [runGuarded]
    split
    · exact .refl session
    · exact (ih _).nested
  | binding name body ih => exact (ih _).bound
  | unlessBound | known | fail => exact .refl session

/-- Every run continues its session. -/
theorem Fragment.run_continues (fragment : Fragment) (session : Session) :
    session.Continues (fragment.run settings session).session := by
  rw [run_eq_runGuarded]
  exact fragment.runGuarded_continues settings _ session

/-- A visit continues its session. -/
theorem Settings.visit_continues (session : Session) (tree : Tree) :
    session.Continues (settings.visit session tree).session :=
  Fragment.run_continues settings _ session

/-! ## Sessions between visits -/

/-- A session between visits: at no depth, in no comprehension and without variables, with a
parameter for each placeholder. -/
structure Session.AtRest (session : Session) : Prop where
  /-- The depth is that of no expression. -/
  depth : session.depth = 0
  /-- There is no comprehension around. -/
  nesting : session.nesting = 0
  /-- No variable is bound. -/
  scope : session.scope = []
  /-- Each placeholder has its parameter. -/
  counted : session.placeholders = session.parameters.size

theorem Session.AtRest.fresh : Session.fresh.AtRest :=
  ⟨rfl, rfl, rfl, rfl⟩

/-- What continues a session at rest is at rest. -/
theorem Session.Continues.atRest {before after : Session} (continues : before.Continues after)
    (rest : before.AtRest) : after.AtRest where
  depth := continues.depth.trans rest.depth
  nesting := continues.nesting.trans rest.nesting
  scope := by
    have within := continues.scope
    rw [rest.scope] at within
    exact List.subset_nil.mp within
  counted := continues.counted rest.counted

namespace Settings

/-- The sessions that visits of trees lead to, one after the other: the fresh one first, and then
the one that each visit leaves, also if it fails. -/
def history (settings : Settings) (trees : List Tree) : List Session :=
  .fresh :: (settings.visitAll .fresh trees).map (·.session)

/-- There is an outcome for each tree. -/
@[simp] theorem length_visitAll (session : Session) (trees : List Tree) :
    (settings.visitAll session trees).length = trees.length := by
  induction trees generalizing session with
  | nil => rfl
  | cons tree rest ih => simp [visitAll, ih]

/-- Visits continue a session one after the other. -/
theorem visitAll_isChain (session : Session) (trees : List Tree) :
    (session :: (settings.visitAll session trees).map (·.session)).IsChain Session.Continues := by
  induction trees generalizing session with
  | nil => exact .singleton session
  | cons tree rest ih =>
    exact .cons_cons (settings.visit_continues session tree) (ih _)

/-- Visits from a session at rest lead to sessions at rest. -/
theorem atRest_of_mem_visitAll {settings : Settings} {reached : Session} {trees : List Tree}
    (rest : session.AtRest) (member : reached ∈ (settings.visitAll session trees).map (·.session)) :
    reached.AtRest := by
  induction trees generalizing session with
  | nil => simp [visitAll] at member
  | cons tree others ih =>
    have visited := (settings.visit_continues session tree).atRest rest
    rw [visitAll, List.map_cons, List.mem_cons] at member
    rcases member with rfl | later
    · exact visited
    · exact ih visited later

/-- Every session of a history is at rest. -/
theorem atRest_of_mem_history {settings : Settings} {trees : List Tree}
    (member : session ∈ settings.history trees) :
    session.AtRest := by
  rcases List.mem_cons.mp member with rfl | later
  · exact .fresh
  · exact atRest_of_mem_visitAll .fresh later

/-- **Every visit restores the session.** Whatever trees are visited under whatever settings, there
is a session behind each visit, whether the visit succeeded or failed. It is at depth zero, in no
comprehension and without variables, its text and its parameters begin with those before the visit,
and it has counted its parameters. -/
theorem history_restored (settings : Settings) (trees : List Tree) :
    (settings.history trees).length = trees.length + 1 ∧
    (settings.history trees).IsChain fun before after =>
      after.depth = 0 ∧ after.nesting = 0 ∧ after.scope = [] ∧
      before.text.toList <+: after.text.toList ∧
        before.parameters.toList <+: after.parameters.toList ∧
      after.placeholders = after.parameters.size := by
  refine ⟨by simp [history], ?_⟩
  -- Each visit continues the session before it, and all sessions of the history are at rest.
  refine (settings.visitAll_isChain .fresh trees).imp_of_mem_imp
    fun before after _ reached continues => ?_
  have rest : after.AtRest := atRest_of_mem_history reached
  exact ⟨rest.depth, rest.nesting, rest.scope, continues.text, continues.parameters, rest.counted⟩

end Settings

end CelWhere
