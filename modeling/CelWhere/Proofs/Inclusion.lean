import CelWhere.Proofs.Alignment
import CelWhere.Proofs.Restoration

/-! # What a run goes through

A run that succeeds has run all the parts of its fragment, each in a session that it reached on the
way, and what they wrote is in the output.

* `Session.Extends` — a session has all that another one has written;
* `Fragment.Includes` — a part is run in every run of a fragment that succeeds;
* `Fragment.pieces` — the fragments that stand in a row, which are all included. -/

namespace CelWhere

/-! ## Sessions on the way -/

/-- The text and the parameters of a session begin with those of another. -/
structure Session.Extends (before after : Session) : Prop where
  /-- The text grows at its end. -/
  text : before.text.toList <+: after.text.toList
  /-- The parameters grow at their end. -/
  parameters : before.parameters.toList <+: after.parameters.toList

namespace Session.Extends

variable {before between after : Session}

theorem refl (session : Session) : session.Extends session :=
  ⟨List.prefix_rfl, List.prefix_rfl⟩

theorem trans (first : before.Extends between) (second : between.Extends after) :
    before.Extends after :=
  ⟨first.text.trans second.text, first.parameters.trans second.parameters⟩

end Session.Extends

/-- A session extends the one that it continues. -/
theorem Session.Continues.extends {before after : Session} (continues : before.Continues after) :
    before.Extends after :=
  ⟨continues.text, continues.parameters⟩

namespace Fragment

/-! ## Parts of a run -/

/-- A part is run between two sessions: it succeeds in a session on the way, in no fewer
comprehensions than at the start, and what it has written stays. -/
structure RunsBetween (settings : Settings) (part : Fragment) (start final between : Session) :
    Prop where
  /-- The session on the way has all that was written at the start. -/
  behind : start.Extends between
  /-- No comprehension is left that was entered before the start. -/
  nesting : start.nesting ≤ between.nesting
  /-- The part succeeds. -/
  succeeds : (part.run settings between).fault = none
  /-- What it has written is still there at the end. -/
  stays : (part.run settings between).session.Extends final

/-- In every run of a fragment that succeeds, a part is run. -/
def Includes (fragment part : Fragment) : Prop :=
  ∀ settings session, (fragment.run settings session).fault = none →
    ∃ between, part.RunsBetween settings session (fragment.run settings session).session between

namespace Includes

variable {fragment first second body part inner : Fragment}

theorem refl (fragment : Fragment) : fragment.Includes fragment :=
  fun _ session succeeds => ⟨session, .refl session, Nat.le_refl _, succeeds, .refl _⟩

theorem trans (outer : fragment.Includes part) (deeper : part.Includes inner) :
    fragment.Includes inner := by
  intro settings session succeeds
  obtain ⟨between, ran⟩ := outer settings session succeeds
  obtain ⟨inside, innerRan⟩ := deeper settings between ran.succeeds
  exact ⟨inside, ran.behind.trans innerRan.behind, Nat.le_trans ran.nesting innerRan.nesting,
    innerRan.succeeds, innerRan.stays.trans ran.stays⟩

/-- A check that always fails has no run that succeeds. -/
theorem fail (fault : Fault) : (Fragment.fail fault).Includes part := by
  intro settings session succeeds
  simp [run] at succeeds

/-- The first of two fragments is run. -/
theorem append_left (first second : Fragment) : (first ++ second).Includes first := by
  intro settings session succeeds
  obtain ⟨firstSucceeds, unchained⟩ := Outcome.fault_andThen succeeds
  refine ⟨session, .refl session, Nat.le_refl _, firstSucceeds, ?_⟩
  show Session.Extends _ ((first.run settings session).andThen (second.run settings)).session
  rw [unchained]
  exact (second.run_continues settings _).extends

/-- The second of two fragments is run behind the first. -/
theorem append_right (first second : Fragment) : (first ++ second).Includes second := by
  intro settings session succeeds
  obtain ⟨-, unchained⟩ := Outcome.fault_andThen succeeds
  have firstContinues := first.run_continues settings session
  have secondSucceeds : (second.run settings (first.run settings session).session).fault =
      none := by
    rw [← unchained]
    exact succeeds
  refine ⟨(first.run settings session).session, firstContinues.extends, firstContinues.nesting.ge,
    secondSucceeds, ?_⟩
  show Session.Extends _ ((first.run settings session).andThen (second.run settings)).session
  rw [unchained]
  exact .refl _

/-- An expression one level deeper is run. -/
theorem nested (body : Fragment) : (Fragment.nested body).Includes body := by
  intro settings session succeeds
  simp only [run] at succeeds ⊢
  cases limited : Session.limitFault? settings { session with depth := session.depth + 1 } with
  | some fault => simp [limited] at succeeds
  | none =>
    simp only [limited] at succeeds ⊢
    exact ⟨{ session with depth := session.depth + 1 },
      { behind := ⟨List.prefix_rfl, List.prefix_rfl⟩
        nesting := Nat.le_refl _
        succeeds := succeeds
        stays := ⟨List.prefix_rfl, List.prefix_rfl⟩ }⟩

/-- The scope of a variable is run. -/
theorem binding (name : String) (body : Fragment) : (Fragment.binding name body).Includes body := by
  intro settings session succeeds
  exact ⟨session.enter name,
    { behind := ⟨List.prefix_rfl, List.prefix_rfl⟩
      nesting := Nat.le_refl _
      succeeds := succeeds
      stays := ⟨List.prefix_rfl, List.prefix_rfl⟩ }⟩

/-- What stands in a comprehension is run, with one more comprehension around it. -/
theorem comprehension (body : Fragment) : (Fragment.comprehension body).Includes body := by
  intro settings session succeeds
  simp only [run] at succeeds ⊢
  split at succeeds
  · simp at succeeds
  next room =>
    rw [if_neg room]
    exact ⟨{ session with nesting := session.nesting + 1 },
      { behind := ⟨List.prefix_rfl, List.prefix_rfl⟩
        nesting := Nat.le_succ _
        succeeds := succeeds
        stays := ⟨List.prefix_rfl, List.prefix_rfl⟩ }⟩

/-- What follows a result is run, whatever the result is. -/
theorem attempt {α : Type} {result : Except Fault α} {next : α → Fragment}
    (each : ∀ value, result = .ok value → (next value).Includes part) :
    (Fragment.attempt result next).Includes part := by
  cases result with
  | error fault => exact .fail fault
  | ok value => exact each value rfl

end Includes

/-! ## Fragments in a row -/

/-- The fragments that a fragment consists of, one after the other, and what stands in the scope of
a variable. -/
def pieces : Fragment → List Fragment
  | .append first second => first.pieces ++ second.pieces
  | .binding _ body | .comprehension body => body.pieces
  | other => [other]

@[simp] theorem pieces_append (first second : Fragment) :
    (first ++ second).pieces = first.pieces ++ second.pieces :=
  rfl

@[simp] theorem pieces_text (sql : String) : (Fragment.text sql).pieces = [.text sql] := rfl

@[simp] theorem pieces_known (table field : String) :
    (Fragment.known table field).pieces = [.known table field] := rfl

@[simp] theorem pieces_binding (name : String) (body : Fragment) :
    (Fragment.binding name body).pieces = body.pieces :=
  rfl

@[simp] theorem pieces_comprehension (body : Fragment) :
    (Fragment.comprehension body).pieces = body.pieces := rfl

@[simp] theorem pieces_nested (body : Fragment) :
    (Fragment.nested body).pieces = [.nested body] := rfl

/-- Every piece of a fragment is run. -/
theorem includes_of_mem_pieces {fragment part : Fragment} (member : part ∈ fragment.pieces) :
    fragment.Includes part := by
  induction fragment with
  | append first second firstIh secondIh =>
    rcases List.mem_append.mp member with early | late
    · exact (Includes.append_left first second).trans (firstIh early)
    · exact (Includes.append_right first second).trans (secondIh late)
  | binding name body ih => exact (Includes.binding name body).trans (ih member)
  | comprehension body ih => exact (Includes.comprehension body).trans (ih member)
  | text | literal | nested | unlessBound | known | fail =>
    obtain rfl := List.mem_singleton.mp member
    exact .refl _

/-- The fragments that are joined by a text are run. -/
theorem Includes.join {separator : String} {fragments : List Fragment} {part : Fragment}
    (member : part ∈ fragments) :
    (Fragment.join separator fragments).Includes part := by
  induction fragments with
  | nil => cases member
  | cons fragment rest ih =>
    cases rest with
    | nil =>
      obtain rfl := List.mem_singleton.mp member
      exact .refl _
    | cons next more =>
      rcases List.mem_cons.mp member with rfl | later
      · exact (append_left _ _).trans (append_left _ _)
      · exact (append_right _ _).trans (ih later)

end Fragment

end CelWhere
