import CelWhere.Conversion
import CelWhere.Proofs.Lexical.Text

/-! # Fragments that are read alike

With literals written out, the text of a fragment does not depend on the session in which it is run,
apart from the checks that can end the run. Two fragments are compared by what reading their texts
does:

* `Fragment.inlined?` — the text of a fragment, and `Fragment.run_inlined` for the run that writes
  it;
* `Lexical.Leads` — two fragments are read alike, from a boundary and awaited brackets to others. -/

namespace CelWhere

/-! ## The text of a fragment -/

/-- The text of a fragment with its literals written out; there is none if the fragment always
fails. -/
def Fragment.inlined? (dialect : Dialect) : Fragment → Option (List Char)
  | .text sql => some sql.toList
  | .literal value => (value.inlineText dialect).toOption.map String.toList
  | .append first second =>
    (first.inlined? dialect).bind fun one => (second.inlined? dialect).map fun two => one ++ two
  | .nested body => body.inlined? dialect
  | .comprehension body => body.inlined? dialect
  | .binding _ body => body.inlined? dialect
  | .unlessBound _ _ => some []
  | .known _ _ => some []
  | .fail _ => none

/-- The text of two fragments is that of the one and then of the other. -/
theorem Fragment.inlined?_append {dialect : Dialect} {first second : Fragment} {text : List Char} :
    (first ++ second).inlined? dialect = some text ↔
      ∃ one two, first.inlined? dialect = some one ∧ second.inlined? dialect = some two ∧
      one ++ two = text := by
  show (first.append second).inlined? dialect = some text ↔ _
  simp only [inlined?, Option.bind_eq_some_iff, Option.map_eq_some_iff]
  constructor
  · rintro ⟨one, foundOne, two, foundTwo, same⟩
    exact ⟨one, two, foundOne, foundTwo, same⟩
  · rintro ⟨one, two, foundOne, foundTwo, same⟩
    exact ⟨one, foundOne, two, foundTwo, same⟩

/-- **A run writes the text of its fragment.** -/
theorem Fragment.run_inlined {settings : Settings} (inline : settings.mode = .inline)
    (fragment : Fragment) {session : Session}
    (succeeds : (fragment.run settings session).fault = none) :
    ∃ text, fragment.inlined? settings.dialect = some text ∧
      (fragment.run settings session).session.text = session.text ++ String.ofList text := by
  -- The text of a part is written behind that of the parts before it.
  induction fragment generalizing session with
  | text sql => exact ⟨sql.toList, rfl, by simp [run]⟩
  | literal value =>
    simp only [run, inline] at succeeds ⊢
    cases written : value.inlineText settings.dialect with
    | error fault => simp [written] at succeeds
    | ok spelling => exact ⟨spelling.toList, by simp [inlined?, written, Except.toOption], by simp⟩
  | append first second firstIh secondIh =>
    simp only [run, Outcome.andThen] at succeeds ⊢
    cases firstFault : (first.run settings session).fault with
    | some fault => simp [firstFault] at succeeds
    | none =>
      simp only [firstFault] at succeeds ⊢
      obtain ⟨one, foundOne, wroteOne⟩ := firstIh firstFault
      obtain ⟨two, foundTwo, wroteTwo⟩ := secondIh succeeds
      refine ⟨one ++ two, inlined?_append.mpr ⟨one, two, foundOne, foundTwo, rfl⟩, ?_⟩
      rw [wroteTwo, wroteOne, String.append_assoc, String.ofList_append]
  | nested body ih =>
    -- A limit that is passed ends the run before anything is written.
    simp only [run] at succeeds ⊢
    split at succeeds
    · simp at succeeds
    · exact ih succeeds
  | comprehension body ih =>
    simp only [run] at succeeds ⊢
    split at succeeds
    · simp at succeeds
    next allowed =>
      rw [if_neg allowed]
      exact ih succeeds
  | binding name body ih => exact ih succeeds
  | unlessBound name fault => exact ⟨[], rfl, by simp [run]⟩
  | known table field => exact ⟨[], rfl, by simp [run]⟩
  | fail fault => simp [run] at succeeds

namespace Lexical

/-! ## Fragments that are read alike -/

/-- Wherever the first of two fragments has a text, the second has one too, and the two are read
alike. -/
def Leads (dialect : Dialect) (before : Boundary) (awaited : List Char) (first second : Fragment)
    (after : Boundary) (remaining : List Char) : Prop :=
  ∀ one, first.inlined? dialect = some one →
    ∃ two, second.inlined? dialect = some two ∧ TextLeads before awaited one two after remaining

namespace Leads

variable {dialect : Dialect} {b₁ b₂ b₃ : Boundary} {s₁ s₂ s₃ : List Char}
variable {first second third fourth : Fragment}

/-- A fragment that always fails has no text. -/
theorem fail {fault : Fault} : Leads dialect b₁ s₁ (.fail fault) second b₂ s₂ := by
  intro one found
  simp [Fragment.inlined?] at found

/-- Texts of fragments are read alike if they are. -/
theorem ofText {left right : String} (leads : TextLeads b₁ s₁ left.toList right.toList b₂ s₂) :
    Leads dialect b₁ s₁ (.text left) (.text right) b₂ s₂ := by
  intro one found
  obtain rfl := Option.some.inj found
  exact ⟨_, rfl, leads⟩

/-- One fragment after the other. -/
theorem append (one : Leads dialect b₁ s₁ first second b₂ s₂)
    (two : Leads dialect b₂ s₂ third fourth b₃ s₃) :
    Leads dialect b₁ s₁ (first ++ third) (second ++ fourth) b₃ s₃ := by
  intro whole found
  obtain ⟨left, right, foundLeft, foundRight, rfl⟩ := Fragment.inlined?_append.mp found
  obtain ⟨left', foundLeft', leftLeads⟩ := one left foundLeft
  obtain ⟨right', foundRight', rightLeads⟩ := two right foundRight
  exact ⟨_, Fragment.inlined?_append.mpr ⟨left', right', foundLeft', foundRight', rfl⟩,
    leftLeads.append rightLeads⟩

/-- Brackets that were awaited before are awaited below. -/
theorem frame (one : Leads dialect b₁ s₁ first second b₂ s₂) (others : List Char) :
    Leads dialect b₁ (s₁ ++ others) first second b₂ (s₂ ++ others) := by
  intro written found
  obtain ⟨other, foundOther, leads⟩ := one written found
  exact ⟨other, foundOther, leads.frame others⟩

/-- A fragment that ends outside of quoted regions ends right behind one at most. -/
theorem behind (one : Leads dialect b₁ s₁ first second b₂ s₂) (outside : b₂ ≠ .within) :
    Leads dialect b₁ s₁ first second .behind s₂ := by
  intro written found
  obtain ⟨other, foundOther, leads⟩ := one written found
  exact ⟨other, foundOther, leads.behind outside⟩

/-- A check writes nothing. -/
theorem check {checked : Fragment} (silent : checked.inlined? dialect = some [])
    (one : Leads dialect b₁ s₁ first second b₂ s₂) :
    Leads dialect b₁ s₁ (checked ++ first) (checked ++ second) b₂ s₂ := by
  refine append (fun written found => ?_) one
  obtain rfl := Option.some.inj (silent.symm.trans found)
  exact ⟨[], silent, .nil⟩

end Leads

/-- A fragment that is read like another is read like itself. -/
theorem Leads.left {dialect : Dialect} {b₁ b₂ : Boundary} {s₁ s₂ : List Char}
    {first second : Fragment} (one : Leads dialect b₁ s₁ first second b₂ s₂) :
    Leads dialect b₁ s₁ first first b₂ s₂ := by
  intro text found
  obtain ⟨other, -, leads⟩ := one text found
  refine ⟨text, found, fun place allowed => ?_⟩
  obtain ⟨after, -, -, matched⟩ := leads place allowed
  exact ⟨after, rfl, rfl, matched⟩

end Lexical

end CelWhere
