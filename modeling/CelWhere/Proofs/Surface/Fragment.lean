import CelWhere.Convert.Locality.Basic
import CelWhere.Proofs.Grammar
import CelWhere.Proofs.Inclusion
import CelWhere.Proofs.Surface.Text

/-! # Fragments that are read without harm

The text of a fragment is looked at from two sides: which null bytes it has, and what stands outside
of its quoted regions. Both can be told from the fragments that it consists of.

* `Fragment.parts`, `Fragment.texts` — these fragments, and the fixed texts among them;
* `Surface.Source` — an expression with the context that it is converted in, and
  `Surface.Source.Fit` for its parts;
* `Surface.Clean`, `Surface.Calm` — what is shown of the fragment of each part of an expression. -/

namespace CelWhere

/-! ## What a fragment consists of -/

namespace Fragment

variable {second first : Fragment}

/-- The fragments that a fragment consists of, itself among them. -/
def parts : Fragment → List Fragment
  | .append first second => .append first second :: (first.parts ++ second.parts)
  | .nested body => .nested body :: body.parts
  | .comprehension body => .comprehension body :: body.parts
  | .binding name body => .binding name body :: body.parts
  | .text sql => [.text sql]
  | .literal value => [.literal value]
  | .unlessBound name fault => [.unlessBound name fault]
  | .known table field => [.known table field]
  | .fail fault => [.fail fault]

/-- The fixed texts of a fragment. -/
def texts : Fragment → List String
  | .append first second => first.texts ++ second.texts
  | .nested body | .comprehension body | .binding _ body => body.texts
  | .text sql => [sql]
  | .literal _ | .unlessBound .. | .known .. | .fail _ => []

theorem self_mem_parts (fragment : Fragment) : fragment ∈ fragment.parts := by
  cases fragment <;> exact .head _

/-- The parts of two fragments are the whole and the parts of both. -/
theorem mem_parts_append {part : Fragment} :
    part ∈ (first ++ second).parts ↔
      part = first ++ second ∨ part ∈ first.parts ∨ part ∈ second.parts := by
  show part ∈ (first.append second) :: (first.parts ++ second.parts) ↔ _
  rw [List.mem_cons, List.mem_append]
  exact Iff.rfl

theorem mem_texts_append {sql : String} :
    sql ∈ (first ++ second).texts ↔ sql ∈ first.texts ∨ sql ∈ second.texts :=
  List.mem_append

/-- Every part of a fragment is run. -/
theorem includes_of_mem_parts {fragment part : Fragment} (member : part ∈ fragment.parts) :
    fragment.Includes part := by
  induction fragment with
  | append first second firstIh secondIh =>
    rcases mem_parts_append.mp member with rfl | early | late
    · exact .refl _
    · exact (Includes.append_left first second).trans (firstIh early)
    · exact (Includes.append_right first second).trans (secondIh late)
  | nested body ih =>
    rcases List.mem_cons.mp member with rfl | deeper
    · exact .refl _
    · exact (Includes.nested body).trans (ih deeper)
  | comprehension body ih =>
    rcases List.mem_cons.mp member with rfl | deeper
    · exact .refl _
    · exact (Includes.comprehension body).trans (ih deeper)
  | binding name body ih =>
    rcases List.mem_cons.mp member with rfl | deeper
    · exact .refl _
    · exact (Includes.binding name body).trans (ih deeper)
  | text | literal | unlessBound | known | fail =>
    obtain rfl := List.mem_singleton.mp member
    exact .refl _

end Fragment

/-! ## Calls and signs -/

namespace Tree

/-- Whether a tree is a call of a function. -/
def calls (function : String) : Tree → Bool
  | .node .identArg (.token name :: _) => name.text = function
  | _ => false

/-- The text that a call writes without looking for null bytes: the format of a formatted string, or
the literal for the unit of an interval. -/
def unchecked? : Tree → Option String
  | .node .memberDotArg [object, .token name, .node .exprList [_]] =>
    if name.text = "format" then object.stringLiteral?.map (·.stringValue) else none
  | .node .identArg [.token name, .node .exprList [_, unit]] =>
    if name.text = "interval" then unit.givenLiteral?.map (·.text) else none
  | _ => none

/-- The operand of a minus sign. -/
def negated? : Tree → Option Tree
  | .node .unary [.node .unaryNeg _, operand] => some operand
  | _ => none

/-- All strings of a tree are quoted as complete literals of a dialect. -/
def WellQuoted (dialect : Dialect) (tree : Tree) : Prop :=
  ∀ quotation subject string token, Quoting.Quotation.tree subject string token quotation
    ∈ tree.parts →
    string.stringLiteral? = some token → quotation.Safe dialect token.stringValue.toList

end Tree

namespace Surface

variable {text more : List Char}

/-! ## Sources -/

/-- An expression with the context that it is converted in. -/
structure Source where
  /-- The context of the conversion. -/
  context : Context
  /-- The expression. -/
  tree : Tree
  /-- It follows the grammar. -/
  grammatical : tree.Grammatical

namespace Source

variable (source : Source)

/-- The dialect of the text. -/
abbrev dialect : Dialect := source.context.dialect

/-- The strings of the expression are quoted as complete literals, and it has no call of
`interval`. -/
def Regular : Prop :=
  source.tree.WellQuoted source.dialect ∧ ∀ part ∈ source.tree.parts, part.calls "interval" = false

/-- A tree all of whose parts are parts of the expression. -/
def Fit (tree : Tree) : Prop :=
  ∀ part ∈ tree.parts, part ∈ source.tree.parts

/-- A fragment is that of a call that writes a text with a null byte. -/
def BearsNull (fragment : Fragment) : Prop :=
  ∃ part ∈ source.tree.parts, source.context.fragment part = fragment ∧
    ∃ text ∈ part.unchecked?, '\x00' ∈ text.toList

/-- A fragment is that of a minus sign before an operand that starts with one. -/
def DoublesMinus (fragment : Fragment) : Prop :=
  ∃ part ∈ source.tree.parts, source.context.fragment part = fragment ∧
    ∃ operand ∈ part.negated?, ∃ rest, (source.context.fragment operand).inlined? source.dialect =
    some ('-' :: rest)

variable {source}

/-- Parts of the expression are closed under taking children. -/
theorem hereditary_fit : Tree.Hereditary source.Fit := Tree.Hereditary.parts

theorem Fit.mem {tree : Tree} (fit : source.Fit tree) : tree ∈ source.tree.parts :=
  fit tree tree.self_mem_parts

/-- A minus sign before another one starts the text. -/
theorem DoublesMinus.starts {fragment : Fragment} (doubles : source.DoublesMinus fragment)
    (written : fragment.inlined? source.dialect = some text) :
    ∃ rest, text = '-' :: '-' :: rest := by
  obtain ⟨part, -, rfl, operand, isOperand, rest, operandWritten⟩ := doubles
  unfold Tree.negated? at isOperand
  split at isOperand
  next sign operand' =>
    obtain rfl : operand' = operand := by simpa using isOperand
    refine ⟨rest, ?_⟩
    rw [Context.fragment_eq] at written
    change (.text "-" ++ .nested (source.context.fragment operand') : Fragment).inlined?
      source.dialect =
      some text at written
    obtain ⟨one, two, foundOne, foundTwo, rfl⟩ := Fragment.inlined?_append.mp written
    obtain rfl := Option.some.inj foundOne
    obtain rfl : two = '-' :: rest := Option.some.inj (foundTwo.symm.trans operandWritten)
    rfl
  · simp at isOperand

end Source

/-! ## Clean and calm fragments -/

/-- A fixed text has a null byte only where it is excused, or below a call that writes one. -/
def Clean (source : Source) (excused : Prop) (fragment : Fragment) : Prop :=
  ∀ sql ∈ fragment.texts, '\x00' ∈ sql.toList →
    excused ∨ ∃ part ∈ fragment.parts, source.BearsNull part

/-- The text closes its quoted regions, its marks fit a profile, and minus signs meet in it exactly
if one is written before another one. -/
def Calm (source : Source) (profile : Profile) (fragment : Fragment) : Prop :=
  ∀ text, fragment.inlined? source.dialect = some text →
    Place.outside.finish source.dialect text = .outside ∧
    Fits source.dialect profile (Place.outside.marks source.dialect text) ∧
    (meets (some '-') (some '-') (Place.outside.marks source.dialect text) = true ↔
      ∃ part ∈ fragment.parts, source.DoublesMinus part)

variable {source : Source} {excused : Prop} {profile one two three : Profile}
  {first second fragment : Fragment}

/-- Minus signs meet at the start of a text that has them there. -/
theorem meets_of_doublesMinus (doubles : source.DoublesMinus fragment)
    (written : fragment.inlined? source.dialect = some text) :
    meets (some '-') (some '-') (Place.outside.marks source.dialect text) = true := by
  obtain ⟨rest, rfl⟩ := doubles.starts written
  rfl

/-- More is excused, and there are more parts. -/
theorem Clean.mono {more : Prop} (clean : Clean source excused first) (excuses : excused → more)
    (texts : second.texts = first.texts) (parts : first.parts ⊆ second.parts) :
    Clean source more second := by
  intro sql member hasNull
  rcases clean sql (texts ▸ member) hasNull with excuse | ⟨part, within, bears⟩
  · exact .inl (excuses excuse)
  · exact .inr ⟨part, parts within, bears⟩

/-- Two clean fragments one after the other. -/
theorem Clean.append (left : Clean source excused first) (right : Clean source excused second) :
    Clean source excused (first ++ second) := by
  intro sql member hasNull
  rcases Fragment.mem_texts_append.mp member with inFirst | inSecond
  · refine (left sql inFirst hasNull).imp_right ?_
    rintro ⟨part, within, bears⟩
    exact ⟨part, Fragment.mem_parts_append.mpr (.inr (.inl within)), bears⟩
  · refine (right sql inSecond hasNull).imp_right ?_
    rintro ⟨part, within, bears⟩
    exact ⟨part, Fragment.mem_parts_append.mpr (.inr (.inr within)), bears⟩

/-- Two calm fragments one after the other, if their ends do not clash. -/
theorem Calm.append (left : Calm source one first) (right : Calm source two second)
    (fitting : one.append? two = some three) : Calm source three (first ++ second) := by
  intro text written
  have whole := written
  obtain ⟨leftText, rightText, leftWritten, rightWritten, rfl⟩ :=
    Fragment.inlined?_append.mp written
  obtain ⟨leftFinish, leftFits, leftDashes⟩ := left leftText leftWritten
  obtain ⟨rightFinish, rightFits, rightDashes⟩ := right rightText rightWritten
  rw [Place.finish_append, leftFinish]
  refine ⟨rightFinish, ?_, ?_⟩
  · rw [Place.marks_append, leftFinish]
    exact leftFits.append rightFits fitting
  · constructor
    · intro meet
      rw [Place.marks_append, leftFinish, leftFits.meets_dashes rightFits fitting,
        Bool.or_eq_true, leftDashes, rightDashes] at meet
      rcases meet with ⟨part, within, doubles⟩ | ⟨part, within, doubles⟩
      · exact ⟨part, Fragment.mem_parts_append.mpr (.inr (.inl within)), doubles⟩
      · exact ⟨part, Fragment.mem_parts_append.mpr (.inr (.inr within)), doubles⟩
    · rintro ⟨part, within, doubles⟩
      rcases Fragment.mem_parts_append.mp within with rfl | inFirst | inSecond
      · exact meets_of_doublesMinus doubles whole
      · rw [Place.marks_append, leftFinish, leftFits.meets_dashes rightFits fitting,
          Bool.or_eq_true]
        exact .inl (leftDashes.mpr ⟨part, inFirst, doubles⟩)
      · rw [Place.marks_append, leftFinish, leftFits.meets_dashes rightFits fitting,
          Bool.or_eq_true]
        exact .inr (rightDashes.mpr ⟨part, inSecond, doubles⟩)

/-- Marks around a fragment write nothing. -/
theorem Calm.around {body : Fragment} (calm : Calm source profile body)
    (parts : fragment.parts = fragment :: body.parts)
    (same : fragment.inlined? source.dialect = body.inlined? source.dialect) :
    Calm source profile fragment := by
  intro text written
  obtain ⟨finish, fits, dashes⟩ := calm text (same ▸ written)
  refine ⟨finish, fits, ?_⟩
  rw [parts]
  constructor
  · intro meet
    obtain ⟨part, within, doubles⟩ := dashes.mp meet
    exact ⟨part, .tail _ within, doubles⟩
  · rintro ⟨part, within, doubles⟩
    rcases List.mem_cons.mp within with rfl | below
    · exact meets_of_doublesMinus doubles written
    · exact dashes.mpr ⟨part, below, doubles⟩

/-- A text is read to a place, with marks that fit a profile and without minus signs that meet. -/
structure Reads (dialect : Dialect) (text : List Char) (place : Place) (profile : Profile) :
    Prop where
  /-- Where the text ends. -/
  finish : Place.outside.finish dialect text = place
  /-- Its marks fit. -/
  fits : Fits dialect profile (Place.outside.marks dialect text)
  /-- No minus signs meet. -/
  apart : meets (some '-') (some '-') (Place.outside.marks dialect text) = false

/-- A fragment without parts of its own whose text is read to its end. -/
theorem Calm.leaf (alone : fragment.parts = [fragment])
    (reads : ∀ text, fragment.inlined? source.dialect = some text →
      Reads source.dialect text .outside profile) :
    Calm source profile fragment := by
  intro text written
  obtain ⟨finish, fits, apart⟩ := reads text written
  refine ⟨finish, fits, ?_⟩
  rw [alone]
  constructor
  · intro meet
    simp [apart] at meet
  · rintro ⟨part, within, doubles⟩
    obtain rfl := List.mem_singleton.mp within
    exact meets_of_doublesMinus doubles written

/-- More of a text whose marks have a profile. -/
theorem Reads.append {dialect : Dialect} {place : Place} (reads : Reads dialect text place one)
    (fits : Fits dialect two (place.marks dialect more))
    (apart : meets (some '-') (some '-') (place.marks dialect more) = false)
    (fitting : one.append? two = some three) :
    Reads dialect (text ++ more) (place.finish dialect more) three := by
  obtain ⟨rfl, textFits, textApart⟩ := reads
  refine ⟨Place.finish_append _ _ _, ?_, ?_⟩
  · rw [Place.marks_append]
    exact textFits.append fits fitting
  · rw [Place.marks_append, textFits.meets_dashes fits fitting, textApart, apart]
    rfl

/-- More of a text that stays in its region. -/
theorem Reads.stay {dialect : Dialect} {quote : Char}
    (reads : Reads dialect text (.inside quote) one) (stays : Stays dialect quote more) :
    Reads dialect (text ++ more) (.inside quote) one := by
  obtain ⟨finish, fits, apart⟩ := reads
  obtain ⟨count, marks, single⟩ := stays.marks
  have last : (Place.outside.marks dialect text).getLast? = some none := by
    have within : Place.outside.finish dialect text ≠ .outside := by simp [finish]
    rw [← List.nil_append (Place.outside.marks dialect text)]
    exact Place.getLast?_marks (by simp) within
  refine ⟨by rw [Place.finish_append, finish, stays.finish], ?_, ?_⟩
  · rw [Place.marks_append, finish, marks]
    exact fits.regions last single
  · rw [Place.marks_append, finish, marks, meets_append, apart, meets_of_not_mem (by simp), last]
    rfl

end Surface

end CelWhere
