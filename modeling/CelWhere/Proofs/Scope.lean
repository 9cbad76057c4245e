import CelWhere.Convert.Locality.Basic
import CelWhere.Proofs.Alignment

/-! # The scopes of variables

The bound variables are one set. A comprehension puts its variable in and takes it out behind its
body, also if a comprehension around it had bound the same name before. So a comprehension that ends
takes its variable away from all that stands behind it, as far as the end of the scope that it
stands in.

* `Fragment.bound` — the variables whose scopes a fragment holds, and `Fragment.run_scope` for what
  is left of the variables after a run;
* `Fragment.Gap` — a place in a fragment, with the scopes around it and those that end before it;
* `Fragment.Gap.run_fill` — what is known of a variable at a place;
* `Fragment.Checks` — checks that a bound variable is exempt from, and `Fragment.demanded` for what
  they ask of other names;
* `Comprehension.fragment_tree` — what stands in the scope of a comprehension's variable. -/

namespace CelWhere

variable {fragment : Fragment}

namespace Fragment

/-! ## Variables after a run -/

/-- The variables whose scopes a fragment holds. -/
def bound : Fragment → List String
  | .append first second => first.bound ++ second.bound
  | .nested body | .comprehension body => body.bound
  | .binding name body => name :: body.bound
  | .text _ | .literal _ | .unlessBound .. | .known .. | .fail _ => []

/-- Binding a variable adds it. -/
theorem mem_enter_scope (session : Session) (name other : String) :
    other ∈ (session.enter name).scope ↔ other = name ∨ other ∈ session.scope := by
  unfold Session.enter
  by_cases inScope : name ∈ session.scope
  · have known : other = name → other ∈ session.scope := by
      rintro rfl
      exact inScope
    simpa [inScope] using known
  · simp [inScope]

/-- Binding a variable and unbinding it, with others unbound between, leaves the variables that are
neither. -/
theorem filter_leave_enter (session : Session) (name : String) (names : List String) :
    ((session.enter name).scope.filter (· ∉ names)).filter (· ≠ name) =
      session.scope.filter (· ∉ name :: names) := by
  have joint : ∀ scope : List String,
      (scope.filter (· ∉ names)).filter (· ≠ name) = scope.filter (· ∉ name :: names) := by
    intro scope
    rw [List.filter_filter]
    refine List.filter_congr fun other _ => ?_
    simp [not_or]
  unfold Session.enter
  by_cases inScope : name ∈ session.scope
  · simp only [List.contains_eq_mem, inScope, decide_true, if_true]
    exact joint session.scope
  · simp only [List.contains_eq_mem, inScope, decide_false, Bool.false_eq_true, if_false]
    rw [joint]
    exact List.filter_cons_of_neg (by simp)

/-- **What a run takes away.** A run that succeeds unbinds the variables whose scopes it went
through, and no others. -/
theorem run_scope (settings : Settings) (fragment : Fragment) (session : Session)
    (succeeds : (fragment.run settings session).fault = none) :
    (fragment.run settings session).session.scope = session.scope.filter (· ∉ fragment.bound) := by
  induction fragment generalizing session with
  | append first second firstIh secondIh =>
    simp only [run] at succeeds ⊢
    obtain ⟨firstSucceeds, unchained⟩ := Outcome.fault_andThen succeeds
    rw [unchained] at succeeds ⊢
    rw [secondIh _ succeeds, firstIh _ firstSucceeds, List.filter_filter]
    refine List.filter_congr fun name _ => ?_
    simp only [bound, List.mem_append, not_or, Bool.decide_and, Bool.and_comm]
  | nested body ih =>
    simp only [run] at succeeds ⊢
    split at succeeds
    · simp at succeeds
    · exact ih _ succeeds
  | comprehension body ih =>
    simp only [run] at succeeds ⊢
    by_cases deep : comprehensionLimit ≤ session.nesting
    · simp [deep] at succeeds
    · rw [if_neg deep] at succeeds ⊢
      exact ih _ succeeds
  | binding name body ih =>
    have inside := ih _ succeeds
    show ((body.run settings (session.enter name)).session.scope.filter (· ≠ name)) = _
    rw [inside]
    exact filter_leave_enter session name body.bound
  | literal value =>
    have kept : ((literal value).run settings session).session.scope = session.scope := by
      simp only [run]
      split
      · rfl
      · split
        · rfl
        · rfl
    rw [kept]
    exact (List.filter_eq_self.mpr (by simp [bound])).symm
  -- The other fragments leave the variables as they are.
  | text | unlessBound | known | fail => exact (List.filter_eq_self.mpr (by simp [bound])).symm

/-- A variable is still bound after a run that succeeds if it was bound and the run went through no
scope of it. -/
theorem mem_run_scope (settings : Settings) {session : Session} (name : String)
    (succeeds : (fragment.run settings session).fault = none) :
    name ∈ (fragment.run settings session).session.scope ↔
      name ∈ session.scope ∧ name ∉ fragment.bound := by
  rw [run_scope settings fragment session succeeds, List.mem_filter, decide_eq_true_eq]

/-! ## Places -/

/-- A fragment with a gap in it, where another fragment can stand. -/
inductive Gap
  /-- Nothing stands around the gap. -/
  | here
  /-- The gap is in the first of two parts. -/
  | before (gap : Gap) (second : Fragment)
  /-- The gap is in the second of two parts. -/
  | behind (first : Fragment) (gap : Gap)
  /-- The gap is in an expression one level deeper. -/
  | nested (gap : Gap)
  /-- The gap is in a comprehension. -/
  | comprehension (gap : Gap)
  /-- The gap is in the scope of a variable. -/
  | binding (name : String) (gap : Gap)

namespace Gap

/-- Puts a fragment into a gap. -/
def fill (content : Fragment) : Gap → Fragment
  | .here => content
  | .before gap second => .append (gap.fill content) second
  | .behind first gap => .append first (gap.fill content)
  | .nested gap => .nested (gap.fill content)
  | .comprehension gap => .comprehension (gap.fill content)
  | .binding name gap => .binding name (gap.fill content)

/-- The variables in whose scopes the gap is. -/
def around : Gap → List String
  | .here => []
  | .before gap _ | .behind _ gap | .nested gap | .comprehension gap => gap.around
  | .binding name gap => name :: gap.around

/-- The variables of scopes that end before the gap. -/
def closed : Gap → List String
  | .here => []
  | .behind first gap => first.bound ++ gap.closed
  | .before gap _ | .nested gap | .comprehension gap | .binding _ gap => gap.closed

variable {settings : Settings} {left right : Fragment}

/-- Fragments that run alike can stand for each other at every place. -/
theorem run_congr (same : ∀ session, left.run settings session = right.run settings session)
    (gap : Gap) (session : Session) :
    (gap.fill left).run settings session = (gap.fill right).run settings session := by
  induction gap generalizing session with
  | here => exact same session
  | before gap second ih => simp only [fill, run, ih]
  | behind first gap ih =>
    have rest : (gap.fill left).run settings = (gap.fill right).run settings := funext ih
    simp only [fill, run, rest]
  | nested gap ih => simp only [fill, run, ih]
  | comprehension gap ih => simp only [fill, run, ih]
  | binding name gap ih => simp only [fill, run, ih]

/-- **What is known at a place.** If a place is in no scope of a variable, then the variable is
bound there if it is bound at the start and no scope of it ends before. Fragments that run alike in
that case can stand for each other. -/
theorem run_fill {name : String} {isBound : Prop} (gap : Gap) (free : name ∉ gap.around)
    (same : ∀ session : Session, (name ∈ session.scope ↔ isBound ∧ name ∉ gap.closed) →
      left.run settings session = right.run settings session)
    (session : Session) (start : name ∈ session.scope ↔ isBound) :
    (gap.fill left).run settings session = (gap.fill right).run settings session := by
  induction gap generalizing session isBound with
  | here =>
    refine same session ?_
    rw [start]
    simp [closed]
  | before gap second ih =>
    simp only [fill, run, ih free same session start]
  | behind first gap ih =>
    simp only [fill, run, Outcome.andThen]
    cases succeeds : (first.run settings session).fault with
    | some fault => rfl
    | none =>
      -- The first part has gone through all of its scopes.
      have between : name ∈ (first.run settings session).session.scope ↔
          isBound ∧ name ∉ first.bound := by
        rw [mem_run_scope settings name succeeds, start]
      refine ih free (fun inside known => same inside ?_) _ between
      rw [known, closed, List.mem_append, not_or, and_assoc]
  | nested gap ih =>
    simp only [fill, run]
    rw [ih free same { session with depth := session.depth + 1 } start]
  | comprehension gap ih =>
    simp only [fill, run]
    rw [ih free same { session with nesting := session.nesting + 1 } start]
  | binding other gap ih =>
    simp only [around, List.mem_cons, not_or] at free
    have entered : name ∈ (session.enter other).scope ↔ isBound := by
      rw [mem_enter_scope, start]
      simp [free.1]
    simp only [fill, run]
    rw [ih free.2 same (session.enter other) entered]

end Gap

/-! ## Checks of names -/

/-- A check that is made of a name unless it is a variable. -/
inductive Checks : Fragment → String → Prop
  /-- The check that the name is a valid one. -/
  | valid (name : String) (fault : Fault) : Checks (.unlessBound name fault) name
  /-- The check that the schemas have the table of that name, with a field. -/
  | known (table field : String) : Checks (.known table field) table

/-- What a check asks of a name that is no variable. -/
def demanded (settings : Settings) : Fragment → Fragment
  | .unlessBound _ fault => .fail fault
  | .known table field =>
    match settings.catalog.unknownFault? table field with
    | some fault => if settings.validate then .fail fault else .empty
    | none => .empty
  | other => other

variable {settings : Settings} {check : Fragment} {name : String} {session : Session}

/-- A variable is exempt from a check. -/
theorem Checks.run_of_mem (checks : check.Checks name) (isBound : name ∈ session.scope) :
    check.run settings session = empty.run settings session := by
  have written : session.write "" = session := by simp [Session.write]
  cases checks with
  | valid _ fault => simp [run, empty, written, isBound]
  | known _ field => simp [run, empty, written, isBound]

/-- Any other name is not. -/
theorem Checks.run_of_not_mem (checks : check.Checks name) (free : name ∉ session.scope) :
    check.run settings session = (check.demanded settings).run settings session := by
  have written : session.write "" = session := by simp [Session.write]
  cases checks with
  | valid _ fault => simp [run, demanded, free]
  | known _ field =>
    rw [run, demanded]
    cases unknown : settings.catalog.unknownFault? name field with
    | none => simp [run, empty, written]
    | some fault =>
      by_cases validated : settings.validate
      · simp [run, validated, free]
      · simp [run, empty, written, validated]

/-- A check at a place that is in no scope of its variable: the variable is exempt if it is bound at
the start and no scope of it has ended before. -/
theorem Gap.run_check (gap : Gap) (checks : check.Checks name) (free : name ∉ gap.around)
    {ended : List String} (session : Session) (start : name ∈ session.scope ↔ name ∉ ended) :
    (gap.fill check).run settings session =
      (gap.fill (if name ∈ ended ++ gap.closed then check.demanded settings else .empty)).run
      settings session := by
  refine gap.run_fill free (fun inside known => ?_) session start
  rw [← not_or, ← List.mem_append] at known
  by_cases lost : name ∈ ended ++ gap.closed
  · rw [if_pos lost, checks.run_of_not_mem (by simpa only [known, not_not] using lost)]
  · rw [if_neg lost, checks.run_of_mem (known.mpr lost)]

/-- A check within a part of the scope of its variable, if neither has an inner scope of the
variable around it: the variable is exempt unless a scope of it has ended before, outside the part
or in it. -/
theorem Gap.run_bound_check (gap inner : Gap) (checks : check.Checks name)
    (free : name ∉ gap.around) (innerFree : name ∉ inner.around) (session : Session) :
    (Fragment.binding name (gap.fill (inner.fill check))).run settings session =
      (Fragment.binding name (gap.fill (inner.fill
        (if name ∈ gap.closed ++ inner.closed then check.demanded settings
          else .empty)))).run settings session := by
  have entered : name ∈ (session.enter name).scope ↔ True := by simp [mem_enter_scope]
  rw [run, run]
  congr 1
  refine gap.run_fill free (fun inside known => ?_) _ entered
  rw [true_and] at known
  exact inner.run_check checks innerFree inside known

/-! ## Expressions that are written in order -/

/-- A fragment writes some expressions in order, with fixed texts around them. -/
inductive Writes : Fragment → List Fragment → Prop
  /-- A fixed text. -/
  | text (sql : String) : Writes (.text sql) []
  /-- An expression, one level deeper. -/
  | nested (body : Fragment) : Writes (.nested body) [body]
  /-- The expressions of one fragment and then those of another. -/
  | append {first second : Fragment} {firstParts secondParts : List Fragment}
      (one : Writes first firstParts) (other : Writes second secondParts) :
      Writes (first ++ second) (firstParts ++ secondParts)

/-- The scopes of a fragment are those of its expressions. -/
theorem Writes.bound {parts : List Fragment} (writes : fragment.Writes parts) :
    fragment.bound = parts.flatMap Fragment.bound := by
  induction writes with
  | text sql => rfl
  | nested body =>
    rw [List.flatMap_singleton]
    rfl
  | append one other oneIh otherIh =>
    rw [List.flatMap_append, ← oneIh, ← otherIh]
    rfl

/-- Each expression has its place, behind the scopes of the expressions before it. -/
theorem Writes.gap {part : Fragment} {parts before after : List Fragment}
    (writes : fragment.Writes parts) (split : parts = before ++ part :: after) :
    ∃ gap : Gap, fragment = gap.fill part ∧ gap.around = [] ∧
      gap.closed = before.flatMap Fragment.bound := by
  induction writes generalizing before after with
  | text sql => simp at split
  | nested body =>
    cases before with
    | nil =>
      obtain ⟨rfl, rfl⟩ := List.cons.inj split
      exact ⟨.nested .here, rfl, rfl, rfl⟩
    | cons head tail => simp at split
  | @append first second firstParts secondParts one other oneIh otherIh =>
    rcases List.append_eq_append_iff.mp split with ⟨between, rfl, rest⟩ | ⟨between, rfl, rest⟩
    · -- The expression stands in the second fragment.
      obtain ⟨gap, rfl, free, closed⟩ := otherIh rest
      refine ⟨.behind first gap, rfl, free, ?_⟩
      rw [Gap.closed, closed, one.bound, List.flatMap_append]
    · cases between with
      | nil =>
        -- It is the first one there.
        have rest : secondParts = [] ++ part :: after := rest.symm
        obtain ⟨gap, rfl, free, closed⟩ := otherIh rest
        refine ⟨.behind first gap, rfl, free, ?_⟩
        rw [Gap.closed, closed, one.bound, List.append_nil, List.flatMap_nil, List.append_nil]
      | cons head tail =>
        obtain ⟨rfl, rfl⟩ := List.cons.inj rest
        obtain ⟨gap, rfl, free, closed⟩ := oneIh rfl
        exact ⟨.before gap second, rfl, free, closed⟩

end Fragment

/-! ## Comprehensions -/

/-- A comprehension over the elements of an array. -/
inductive Comprehension
  /-- Whether a condition holds for all elements. -/
  | all (source iterator condition : Tree)
  /-- Whether a condition holds for some element. -/
  | any (source iterator condition : Tree)
  /-- Whether a condition holds for exactly one element. -/
  | one (source iterator condition : Tree)
  /-- The elements that meet a condition. -/
  | filter (source iterator condition : Tree)
  /-- The values of an expression for all elements. -/
  | map (source iterator value : Tree)
  /-- The values of an expression for the elements that meet a condition. -/
  | mapWhere (source iterator condition value : Tree)

namespace Comprehension

/-- The call of a method with arguments. -/
def call (object : Tree) (method : String) (arguments : List Tree) : Tree :=
  .node .memberDotArg [object, .token ⟨.ident, method⟩, .node .exprList arguments]

/-- The tree of a comprehension. -/
def tree : Comprehension → Tree
  | .all source iterator condition => call source "all" [iterator, condition]
  | .any source iterator condition => call source "exists" [iterator, condition]
  | .one source iterator condition => call source "exists_one" [iterator, condition]
  | .filter source iterator condition => call source "filter" [iterator, condition]
  | .map source iterator value => call source "map" [iterator, value]
  | .mapWhere source iterator condition value => call source "map" [iterator, condition, value]

/-- The tree that names the variable. -/
def iterator : Comprehension → Tree
  | .all _ iterator _ | .any _ iterator _ | .one _ iterator _ | .filter _ iterator _
  | .map _ iterator _ | .mapWhere _ iterator _ _ => iterator

/-- The trees that are converted in the scope of the variable, in the order in which they are
written. -/
def parts : Comprehension → List Tree
  | .all source _ condition | .any source _ condition | .one source _ condition
  | .filter source _ condition => [source, condition]
  | .map source _ value => [value, source]
  | .mapWhere source _ condition value => [value, source, condition]

open Fragment

variable (context : Context) (visit : Tree → Fragment)

/-- The elements of an array are written as rows with the array among them. -/
theorem rowsAs_writes (source : Tree) (name : String) :
    (Convert.rowsAs context (fun tree => .nested (visit tree)) source name).Writes
      [visit source] := by
  have array : (context.dialect.unnest (.nested (visit source))).Writes [visit source] := by
    cases context.dialect with
    | postgresql | duckdb | bigquery | mysql | sqlite =>
      exact ((Writes.text _).append (.nested _)).append (.text _)
  exact array.append (.text _)

/-- A test over the rows writes the array before the condition. -/
theorem quantified_writes {iterator : Tree} {name : String} (named : iterator.identName = .ok name)
    {method opening middle closing : String} (source condition : Tree) :
    ∃ body : Fragment, Fragment.comprehension
      (Convert.quantified context (fun tree => .nested (visit tree)) method opening
      middle closing source [iterator, condition]) = .comprehension (.binding name body) ∧
        body.Writes [visit source, visit condition] := by
  have rows := (Writes.text opening).append (rowsAs_writes context visit source name)
  simp only [Convert.quantified, named, attempt_ok]
  exact ⟨_, rfl, ((rows.append (.text middle)).append (.nested (visit condition))).append
    (.text closing)⟩

/-- A subquery writes the collected value before the array. -/
theorem collect_writes {value : Fragment} {values : List Fragment} (writes : value.Writes values)
    (source : Tree) (name : String) :
    (Convert.collect context (fun tree => .nested (visit tree)) value source name).Writes
      (values ++ [visit source]) := by
  have opened := ((Writes.text context.dialect.collectOpen).append writes).append
    (.text context.dialect.collectClose)
  rw [List.nil_append, List.append_nil] at opened
  have behind := opened.append (.text " FROM ")
  rw [List.append_nil] at behind
  exact behind.append (rowsAs_writes context visit source name)

/-- The conversion of a call. -/
theorem fragment_call (object : Tree) (method : String) (arguments : List Tree) :
    context.fragment (call object method arguments) =
      Convert.callMethod context context.child object method arguments := by
  rw [context.fragment_eq]
  rfl

/-- **The scope of a comprehension.** A comprehension writes its parts in the scope of its
variable. -/
theorem fragment_tree (comprehension : Comprehension) {name : String}
    (named : comprehension.iterator.identName = .ok name) :
    ∃ body : Fragment, context.fragment comprehension.tree = .comprehension (.binding name body) ∧
      body.Writes (comprehension.parts.map context.fragment) := by
  cases comprehension with
  | all source iterator condition | any source iterator condition | one source iterator condition =>
    rw [tree, fragment_call]
    exact quantified_writes context context.fragment named source condition
  | filter source iterator condition =>
    have named : iterator.identName = .ok name := named
    rw [tree, fragment_call]
    show ∃ body, Fragment.comprehension (Convert.filtered context context.child source
      [iterator, condition]) = _ ∧ _
    simp only [Convert.filtered, named, attempt_ok]
    have collected := collect_writes context context.fragment (.text name) source name
    exact ⟨_, rfl, ((collected.append (.text _)).append (.nested _)).append (.text _)⟩
  | map source iterator value =>
    have named : iterator.identName = .ok name := named
    rw [tree, fragment_call]
    show ∃ body, Fragment.comprehension (Convert.mapped context context.child source
      [iterator, value]) = _ ∧ _
    simp only [Convert.mapped, named, attempt_ok]
    exact ⟨_, rfl, (collect_writes context _ (.nested _) source name).append (.text _)⟩
  | mapWhere source iterator condition value =>
    have named : iterator.identName = .ok name := named
    rw [tree, fragment_call]
    show ∃ body, Fragment.comprehension (Convert.mapped context context.child source
      [iterator, condition, value]) = _ ∧ _
    simp only [Convert.mapped, named, attempt_ok]
    have collected :=
      collect_writes context context.fragment (.nested (context.fragment value)) source name
    exact ⟨_, rfl, ((collected.append (.text _)).append (.nested _)).append (.text _)⟩

end Comprehension

namespace Settings

open Fragment

/-- **Variables are taken away by inner scopes.** After a visit that succeeds, exactly those
variables are gone whose name a comprehension of the tree binds, so all are there again only if it
binds none of them. Within a part of a comprehension, and outside of inner comprehensions over the
same name, the variable is exempt from a check exactly if no comprehension over that name has ended
before, in the part itself or in the parts that are written before it. -/
theorem visit_scoped (settings : Settings) (tree : Tree) (session : Session) :
    let fragment := settings.context.fragment
    let outcome := settings.visit session tree
    (outcome.fault = none → outcome.session.scope = session.scope.filter
      (· ∉ (fragment tree).bound)) ∧
    (outcome.fault = none →
      (outcome.session.scope = session.scope ↔ ∀ name ∈ session.scope,
        name ∉ (fragment tree).bound)) ∧
    ∀ (comprehension : Comprehension) (name : String) (before after : List Tree) (part : Tree)
      (check : Fragment) (outer inner : Gap),
      comprehension.iterator.identName = .ok name → comprehension.parts = before ++ part :: after →
      fragment tree = outer.fill (fragment comprehension.tree) → fragment part = inner.fill check →
      check.Checks name → name ∉ inner.around →
      ∃ scope : Gap, fragment comprehension.tree = scope.fill (fragment part) ∧
      scope.around = [name] ∧
        scope.closed = before.flatMap (fun tree => (fragment tree).bound) ∧
        outcome = (outer.fill (scope.fill (inner.fill
          (if name ∈ scope.closed ++ inner.closed then check.demanded settings else .empty)))).run
            settings session := by
  intro fragment outcome
  have left := run_scope settings (fragment tree) session
  refine ⟨left, ?_, ?_⟩
  · intro succeeds
    rw [show outcome.session.scope = _ from left succeeds, List.filter_eq_self]
    simp only [decide_eq_true_eq]
  · intro comprehension name before after part check outer inner named split stands
      filled checks free
    obtain ⟨body, binds, writes⟩ := comprehension.fragment_tree settings.context named
    have parts : comprehension.parts.map fragment =
        before.map fragment ++ fragment part :: after.map fragment := by
      rw [split, List.map_append, List.map_cons]
    obtain ⟨gap, whole, around, closed⟩ := writes.gap parts
    refine ⟨.comprehension (.binding name gap), ?_, ?_, ?_, ?_⟩
    · rw [whole] at binds
      exact binds
    · rw [Gap.around, Gap.around, around]
    · rw [Gap.closed, Gap.closed, closed, List.flatMap_map]
    · have visited : outcome = (outer.fill (fragment comprehension.tree)).run settings session := by
        rw [← stands]
        rfl
      rw [visited]
      refine outer.run_congr (fun start => ?_) session
      rw [show fragment comprehension.tree = _ from binds, whole, filled]
      -- Entering the comprehension happens alike, whatever becomes of the check inside.
      refine Gap.run_congr (fun inside => ?_) (.comprehension .here) start
      exact gap.run_bound_check inner checks (by simp [around]) free inside

/-- Behind an inner comprehension over a reserved word, the word is checked although an outer
comprehension binds it. -/
theorem visit_scoped_shadowed :
    let array : Tree := .node .ident [.token ⟨.ident, "l"⟩]
    let word : Tree := .node .ident [.token ⟨.ident, "select"⟩]
    let shadowing := Comprehension.any array word array
    let comprehension := Comprehension.any array word (.node .conditionalAnd [shadowing.tree, word])
    let context := ({} : Settings).context
    let behind : Gap := .behind (.append (.nested (context.fragment shadowing.tree)) " AND ")
      (.nested (.before .here "select"))
    "select" ∉ behind.around ∧ "select" ∈ behind.closed ∧
    ∃ scope : Gap, scope.around = ["select"] ∧
      ({} : Settings).visit .fresh comprehension.tree =
        (scope.fill (behind.fill (.fail (.reservedName "select" "SQL")))).run {} .fresh := by
  intro array word shadowing comprehension context behind
  have reserved : columnNameFault? "select" = some (.reservedName "select" "SQL") :=
    by decide +kernel
  have wordFragment : context.fragment word =
      .append (.unlessBound "select" (.reservedName "select" "SQL")) "select" := by
    rw [context.fragment_eq]
    show reference "select" = _
    rw [reference, reserved]
    rfl
  have filled : context.fragment (.node .conditionalAnd [shadowing.tree, word]) =
      behind.fill (.unlessBound "select" (.reservedName "select" "SQL")) := by
    rw [context.fragment_eq]
    show Fragment.append (.append (.nested (context.fragment shadowing.tree)) " AND ")
      (.nested (context.fragment word)) = _
    rw [wordFragment]
    rfl
  have free : "select" ∉ behind.around := by simp [behind, Gap.around]
  obtain ⟨body, binds, -⟩ :=
    shadowing.fragment_tree context (rfl : shadowing.iterator.identName = .ok "select")
  have ended : "select" ∈ behind.closed := by simp [behind, Gap.closed, Fragment.bound, binds]
  obtain ⟨-, -, exempt⟩ := visit_scoped {} comprehension.tree .fresh
  obtain ⟨scope, -, around, -, outcome⟩ :=
    exempt comprehension "select" [array] [] _ _ .here behind rfl rfl rfl
    filled (.valid _ _) free
  refine ⟨free, ended, scope, around, ?_⟩
  rw [outcome, if_pos (List.mem_append_right _ ended)]
  rfl

/-- A variable that is a reserved word is refused behind an inner comprehension over the same name,
and not behind one over another name; and a variable is lost after a visit that binds its name
again. -/
theorem not_restored_shadowed :
    ({} : Settings).convert "l.exists(select, l.exists(select, true) && select == 1)" =
      .error (.fault (.reservedName "select" "SQL")) ∧
    ({} : Settings).convert "l.exists(select, l.exists(other, true) && select == 1)" =
      .ok ("EXISTS (SELECT 1 FROM UNNEST(l) AS select WHERE " ++
        "EXISTS (SELECT 1 FROM UNNEST(l) AS other WHERE TRUE) AND select = 1)") ∧
    (parse? "l.exists(x, true)").map (fun tree =>
      (({} : Settings).visit { scope := ["x"] } tree).session.scope) =
      some [] := by
  refine ⟨?_, ?_, ?_⟩
  · decide +kernel
  · decide +kernel
  · decide +kernel

end Settings

end CelWhere
