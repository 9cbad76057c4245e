import CelWhere.Proofs.Lexical.Blanked
import CelWhere.Proofs.Surface.Fragment

/-! # Templates

A construct is a template with fixed texts and with slots for its parts. The fragment of a construct
is looked at together with that of the blanked tree, from three sides: where quotes are doubled, the
two are read alike and leave nothing open; null bytes come from certain calls; and comments are
opened only by minus signs. What is read first and last in each slot is known by a profile, so that
all of this is a computation along the template.

* `Surface.Sound` — what is shown of the two fragments of each part of an expression;
* `Surface.Quoted` — contents of strings that stay in their quoted regions;
* `Surface.Sound.template` — a construct is sound if its pieces can stand one after the other. -/

namespace CelWhere

/-- The dialects in which quotes are doubled inside strings and nothing else is escaped. -/
def Dialect.standard : List Dialect := [.postgresql, .duckdb, .sqlite]

namespace Surface

variable {b₁ b₂ : Boundary} {s₁ s₂ : List Char}

open CelWhere.Lexical (Boundary Leads Plain Quotable TextLeads)

/-! ## Sound fragments -/

/-- Quotes are doubled in the dialect of an expression, and the units of its intervals are names. -/
def Source.Standard (source : Source) : Prop :=
  source.dialect ∈ Dialect.standard ∧ source.tree.UnitsNamed

/-- What may stand before a fragment: a quoted region only if the fragment starts with none. -/
def Profile.before (profile : Profile) : Boundary :=
  if profile.start.region then .clear else .behind

/-- A fragment, with the one of the blanked tree beside it. -/
structure Sound (source : Source) (profile : Profile) (one two : Fragment) : Prop where
  /-- Where quotes are doubled, both are read alike and leave nothing open. -/
  closed : source.Standard → Leads source.dialect profile.before [] one two .behind []
  /-- Null bytes come from certain calls. -/
  clean : Clean source False one
  /-- Quoted regions are closed, and comments are opened only by minus signs. -/
  calm : source.Regular → Calm source profile one

/-- Fragments of which nothing is known but that they are sound. -/
abbrev IsSound (source : Source) (one two : Fragment) : Prop :=
  Sound source .any one two

variable {source : Source} {excused : Prop} {profile more : Profile} {one two one' two' : Fragment}

/-- What can stand right behind a quoted region can stand elsewhere. -/
theorem leads_of_before {before : Boundary} {awaited : List Char}
    (leads : Leads source.dialect profile.before [] one two .behind [])
    (allowed : before = .clear ∨ before = profile.before) :
    Leads source.dialect before awaited one two .behind awaited := by
  intro text found
  obtain ⟨other, foundOther, reads⟩ := leads.frame awaited text found
  refine ⟨other, foundOther, fun place allows => reads place ?_⟩
  rcases allowed with rfl | rfl
  · obtain rfl : place = .outside := allows
    unfold Profile.before
    split
    · rfl
    · exact .inl rfl
  · exact allows

namespace Sound

/-- A fragment that always fails. -/
theorem fail (fault : Fault) : Sound source profile (.fail fault) two := by
  refine ⟨fun _ => .fail, fun sql member => absurd member (by simp [Fragment.texts]),
    fun _ => .leaf rfl ?_⟩
  intro text written
  simp [Fragment.inlined?] at written

/-- What follows a result is sound if it is for each value. -/
theorem attempt {α : Type} {result : Except Fault α} {next next' : α → Fragment}
    (each : ∀ value, result = .ok value → Sound source profile (next value) (next' value)) :
    Sound source profile (.attempt result next) (.attempt result next') := by
  cases result with
  | error fault => exact fail fault
  | ok value => exact each value rfl

/-- What follows a check for null bytes is sound if it is where there are none, and if the other
text passes. -/
theorem withoutNull {usage text other : String} (passes : nullByteFault? usage other = none)
    (each : '\x00' ∉ text.toList → Sound source profile one two) :
    Sound source profile (withoutNull usage text one) (withoutNull usage other two) := by
  unfold CelWhere.withoutNull
  rw [passes]
  unfold nullByteFault?
  split
  · exact fail _
  next passed =>
    refine each fun hasNull => ?_
    simp [hasNull] at passed

section

variable (sound : Sound source profile one two)

include sound

/-- A profile that tells less. -/
theorem mono (less : profile.within more) : Sound source more one two := by
  refine ⟨fun standard => leads_of_before (sound.closed standard) ?_, sound.clean,
    fun regular text written => ?_⟩
  · -- A fragment that starts with a region by the one profile does so by the other.
    simp only [Profile.within, Edge.within, Bool.and_eq_true, Bool.or_eq_true, Bool.not_eq_true']
      at less
    unfold Profile.before
    split
    · exact .inl rfl
    · right
      rw [if_neg]
      simp_all
  · obtain ⟨finish, fits, dashes⟩ := sound.calm regular text written
    exact ⟨finish, fits.mono less, dashes⟩

/-- A fragment stands beside itself. -/
theorem left : Sound source profile one one :=
  ⟨fun standard => (sound.closed standard).left, sound.clean, sound.calm⟩

theorem nested : Sound source profile (.nested one) (.nested two) :=
  ⟨sound.closed, sound.clean.mono id rfl (List.subset_cons_self _ _),
    fun regular => (sound.calm regular).around rfl rfl⟩

theorem comprehension : Sound source profile (.comprehension one) (.comprehension two) :=
  ⟨sound.closed, sound.clean.mono id rfl (List.subset_cons_self _ _),
    fun regular => (sound.calm regular).around rfl rfl⟩

theorem binding (name : String) : Sound source profile (.binding name one) (.binding name two) :=
  ⟨sound.closed, sound.clean.mono id rfl (List.subset_cons_self _ _),
    fun regular => (sound.calm regular).around rfl rfl⟩

/-- A check that writes nothing. -/
theorem check {checked : Fragment} (alone : checked.parts = [checked])
    (silent : checked.inlined? source.dialect = some []) (noTexts : checked.texts = []) :
    Sound source profile (checked ++ one) (checked ++ two) := by
  have fitting : Profile.plain.append? profile = some profile := by
    simp [Profile.append?, Profile.plain, Edge.clashes, Edge.join]
  have clean : Clean source False checked := fun sql member => absurd member (by simp [noTexts])
  have calm : Calm source .plain checked := .leaf alone fun text written => by
    obtain rfl := Option.some.inj (silent.symm.trans written)
    exact ⟨rfl, .nil, rfl⟩
  exact ⟨fun standard => .check silent (sound.closed standard), clean.append sound.clean,
    fun regular => calm.append (sound.calm regular) fitting⟩

end

end Sound

/-! ## Spans of texts -/

/-- The content of a string, with that of the blanked tree, stays in its quoted region. Null bytes
may be excused. -/
structure Quoted (source : Source) (excused : Prop) (quote : Char) (text other : String) :
    Prop where
  /-- Where quotes are doubled, neither closes the region. -/
  quotable : source.Standard → Quotable text.toList ∧ Quotable other.toList
  /-- It stays in the region. -/
  stays : source.Regular → Stays source.dialect quote text.toList
  /-- It has a null byte only where that is excused. -/
  clean : '\x00' ∈ text.toList → excused

/-- A span of the text of a construct. -/
inductive Span (source : Source) (excused : Prop)
  /-- Fixed text, by its characters. -/
  | fixed (text : List Char)
  /-- A word. -/
  | word (text : String) (isWord : IsWord text.toList)
  /-- A number. -/
  | numeral (text : String) (isNumeral : IsNumeral text.toList)
  /-- Text in a quoted region. -/
  | content {text other : String} {quote : Char} (quoted : Quoted source excused quote text other)

namespace Span

variable {place place' : Place}

/-- The text of a span. -/
def left : Span source excused → String
  | .fixed text => String.ofList text
  | .word text _ | .numeral text _ => text
  | @content _ _ text _ _ _ => text

/-- The text of a span in the fragment of the blanked tree. -/
def right : Span source excused → String
  | .fixed text => String.ofList text
  | .word text _ | .numeral text _ => text
  | @content _ _ _ other _ _ => other

/-- A text with the texts of spans behind it. -/
def leftFrom (text : String) (spans : List (Span source excused)) : String :=
  spans.foldl (fun text span => text ++ span.left) text

/-- A text with the texts of spans behind it, in the fragment of the blanked tree. -/
def rightFrom (text : String) (spans : List (Span source excused)) : String :=
  spans.foldl (fun text span => text ++ span.right) text

/-- What a span leads to where quotes are doubled: a boundary and the brackets that are awaited. -/
def lead (boundary : Boundary) (awaited : List Char) : Span source excused →
    Option (Boundary × List Char)
  | .fixed text => Lexical.through boundary awaited text
  | .word _ _ | .numeral _ _ => some (boundary, awaited)
  | .content _ => if boundary = .within then some (.within, awaited) else none

/-- The two texts of a span are read alike. -/
theorem leads {span : Span source excused} (standard : source.Standard)
    (computed : span.lead b₁ s₁ = some (b₂, s₂)) :
    TextLeads b₁ s₁ span.left.toList span.right.toList b₂ s₂ := by
  cases span with
  | fixed text =>
    rw [left, right, String.toList_ofList]
    exact .fixed computed
  | word text isWord =>
    obtain ⟨rfl, rfl⟩ := Prod.mk.inj (Option.some.inj computed)
    exact .plain (plain_of_harmless isWord.isNumeral.spelled) b₁ s₁
  | numeral text isNumeral =>
    obtain ⟨rfl, rfl⟩ := Prod.mk.inj (Option.some.inj computed)
    exact .plain (plain_of_harmless isNumeral.spelled) b₁ s₁
  | content quoted =>
    obtain ⟨rfl, same⟩ := Option.ite_none_right_eq_some.mp computed
    obtain ⟨rfl, rfl⟩ := Prod.mk.inj (Option.some.inj same)
    exact .content (quoted.quotable standard).1 (quoted.quotable standard).2 s₁

/-- What spans one after the other lead to. -/
def leadAll : Boundary → List Char → List (Span source excused) → Option (Boundary × List Char)
  | boundary, awaited, [] => some (boundary, awaited)
  | boundary, awaited, span :: rest =>
    (span.lead boundary awaited).bind fun (boundary, awaited) => leadAll boundary awaited rest

/-- Spans behind texts that are read alike keep them so. -/
theorem leadsAll {spans : List (Span source excused)} {text other : String} {b₃ : Boundary}
    {s₃ : List Char} (standard : source.Standard)
    (before : TextLeads b₁ s₁ text.toList other.toList b₂ s₂)
    (computed : leadAll b₂ s₂ spans = some (b₃, s₃)) :
    TextLeads b₁ s₁ (leftFrom text spans).toList (rightFrom other spans).toList b₃ s₃ := by
  induction spans generalizing text other b₂ s₂ with
  | nil =>
    obtain ⟨rfl, rfl⟩ := Prod.mk.inj (Option.some.inj computed)
    exact before
  | cons span rest ih =>
    obtain ⟨⟨boundary, awaited⟩, first, others⟩ := Option.bind_eq_some_iff.mp computed
    refine ih ?_ others
    rw [String.toList_append, String.toList_append]
    exact before.append (leads standard first)

/-- Where a span leads, and the profile that it makes of the one before it. Words and numbers are
content where they stand in a quoted region. -/
def run (place : Place) (profile : Profile) : Span source excused → Option (Place × Profile)
  | .fixed text =>
    if text.contains '\x00' then none
    else
      (Profile.ofMarks? (place.marks source.dialect text)).bind fun more =>
        (profile.append? more).map fun whole => (place.finish source.dialect text, whole)
  | .word _ _ => outsideOrQuoted .plain
  | .numeral _ _ => outsideOrQuoted .number
  | @content _ _ _ _ quote _ => if place = .inside quote then some (place, profile) else none
where
  /-- The profile of text that may stand at any place. -/
  outsideOrQuoted (more : Profile) : Option (Place × Profile) :=
    match place with
    | .outside => (profile.append? more).map fun whole => (.outside, whole)
    | .inside quote => if quotes.contains quote then some (.inside quote, profile) else none
    | .escaped _ => none

variable {first second third : Profile}

/-- Text that may stand at any place is read as its profile tells. -/
theorem reads_outsideOrQuoted {text more : List Char}
    (reads : Reads source.dialect text place first) (isNumeral : IsNumeral more)
    (fits : Fits source.dialect second (more.map some))
    (computed : run.outsideOrQuoted place first second = some (place', third)) :
    Reads source.dialect (text ++ more) place' third := by
  cases place with
  | outside =>
    obtain ⟨finish, marks⟩ : _ ∧ Place.outside.marks source.dialect more = _ := isNumeral.outside
    obtain ⟨whole, fitting, same⟩ := Option.map_eq_some_iff.mp computed
    obtain ⟨rfl, rfl⟩ := Prod.mk.inj same
    have together := reads.append (marks ▸ fits) (marks ▸ isNumeral.spaced) fitting
    rwa [finish] at together
  | inside quote =>
    obtain ⟨isQuote, same⟩ := Option.ite_none_right_eq_some.mp computed
    obtain ⟨rfl, rfl⟩ := Prod.mk.inj (Option.some.inj same)
    exact reads.stay (isNumeral.stays (List.contains_iff_mem.mp isQuote))
  | escaped quote => simp [run.outsideOrQuoted] at computed

/-- A span behind a text is read as its run tells, if the expression is regular. -/
theorem reads {span : Span source excused} {text : List Char} (regular : source.Regular)
    (before : Reads source.dialect text place first)
    (computed : span.run place first = some (place', second)) :
    Reads source.dialect (text ++ span.left.toList) place' second := by
  cases span with
  | fixed sql =>
    obtain ⟨-, computed⟩ := Option.ite_none_left_eq_some.mp computed
    obtain ⟨more, found, computed⟩ := Option.bind_eq_some_iff.mp computed
    obtain ⟨whole, fitting, same⟩ := Option.map_eq_some_iff.mp computed
    obtain ⟨rfl, rfl⟩ := Prod.mk.inj same
    obtain ⟨fits, apart⟩ := Fits.ofMarks? found
    rw [left, String.toList_ofList]
    exact before.append fits apart fitting
  | word word isWord => exact reads_outsideOrQuoted before isWord.isNumeral isWord.fits computed
  | numeral number isNumeral => exact reads_outsideOrQuoted before isNumeral isNumeral.fits computed
  | content quoted =>
    obtain ⟨rfl, same⟩ := Option.ite_none_right_eq_some.mp computed
    obtain ⟨rfl, rfl⟩ := Prod.mk.inj (Option.some.inj same)
    exact before.stay (quoted.stays regular)

/-- A span that runs has a null byte only where it is excused. -/
theorem clean {span : Span source excused} {found : Place × Profile}
    (computed : span.run place first = some found) (hasNull : '\x00' ∈ span.left.toList) :
    excused := by
  cases span with
  | fixed sql =>
    obtain ⟨noNull, -⟩ := Option.ite_none_left_eq_some.mp computed
    rw [left, String.toList_ofList] at hasNull
    exact absurd (List.contains_iff_mem.mpr hasNull) noNull
  | word word isWord => exact absurd hasNull isWord.null_not_mem
  | numeral number isNumeral => exact absurd hasNull isNumeral.null_not_mem
  | content quoted => exact quoted.clean hasNull

/-- Where spans lead one after the other. -/
def runAll : Place → Profile → List (Span source excused) → Option (Place × Profile)
  | place, profile, [] => some (place, profile)
  | place, profile, span :: rest =>
    (span.run place profile).bind fun (place, profile) => runAll place profile rest

/-- Spans behind a text are read as their runs tell. -/
theorem readsAll {spans : List (Span source excused)} {text : String} (regular : source.Regular)
    (before : Reads source.dialect text.toList place first)
    (computed : runAll place first spans = some (place', second)) :
    Reads source.dialect (leftFrom text spans).toList place' second := by
  induction spans generalizing text place first with
  | nil =>
    obtain ⟨rfl, rfl⟩ := Prod.mk.inj (Option.some.inj computed)
    exact before
  | cons span rest ih =>
    obtain ⟨⟨place, profile⟩, one, others⟩ := Option.bind_eq_some_iff.mp computed
    refine ih ?_ others
    rw [String.toList_append]
    exact reads regular before one

/-- Spans behind a text have a null byte only where it is excused. -/
theorem cleanAll {spans : List (Span source excused)} {text : String} {found : Place × Profile}
    (before : '\x00' ∈ text.toList → excused) (computed : runAll place first spans = some found)
    (hasNull : '\x00' ∈ (leftFrom text spans).toList) : excused := by
  induction spans generalizing text place first with
  | nil => exact before hasNull
  | cons span rest ih =>
    obtain ⟨⟨place, profile⟩, one, others⟩ := Option.bind_eq_some_iff.mp computed
    refine ih ?_ others hasNull
    intro within
    rw [String.toList_append] at within
    exact (List.mem_append.mp within).elim before (clean one)

/-- The profile of a text that is put together from spans and ends outside of quoted regions. -/
def profile? (spans : List (Span source excused)) : Option Profile :=
  (runAll .outside .plain spans).bind fun (place, profile) => if place = .outside
    then some profile else none

variable {head : Span source excused} {rest : List (Span source excused)}

/-- A text that is put together from spans is read as its profile tells. -/
theorem reads_of_profile? (computed : profile? (head :: rest) = some profile)
    (regular : source.Regular) :
    Reads source.dialect (leftFrom head.left rest).toList .outside profile := by
  obtain ⟨⟨place, found⟩, run, ends⟩ := Option.bind_eq_some_iff.mp computed
  obtain ⟨rfl, same⟩ := Option.ite_none_right_eq_some.mp ends
  obtain rfl : found = profile := Option.some.inj same
  obtain ⟨⟨place, first⟩, headRun, restRun⟩ := Option.bind_eq_some_iff.mp run
  have start : Reads source.dialect [] .outside .plain := ⟨rfl, .nil, rfl⟩
  exact readsAll regular (reads regular start headRun) restRun

/-- Such a text has only null bytes that are excused, and it is calm. -/
theorem of_profile? (computed : profile? (head :: rest) = some profile) :
    Clean source excused (.text (leftFrom head.left rest)) ∧
      (source.Regular → Calm source profile (.text (leftFrom head.left rest))) := by
  obtain ⟨⟨place, found⟩, run, -⟩ := Option.bind_eq_some_iff.mp computed
  obtain ⟨⟨place, first⟩, headRun, restRun⟩ := Option.bind_eq_some_iff.mp run
  refine ⟨fun sql member hasNull => .inl ?_, fun regular => .leaf rfl fun text written => ?_⟩
  · obtain rfl := List.mem_singleton.mp member
    exact cleanAll (clean headRun) restRun hasNull
  · obtain rfl := Option.some.inj written
    exact reads_of_profile? computed regular

end Span

/-! ## Pieces of constructs -/

/-- A piece of a construct. -/
inductive Piece (source : Source) (excused : Prop)
  /-- Fixed text, by its characters. -/
  | fixed (text : List Char)
  /-- Text put together from spans. -/
  | spans (head : Span source excused) (rest : List (Span source excused))
  /-- A number between fixed texts. -/
  | number (before : List Char) (value : Int) (after : List Char)
  /-- A part of the construct. -/
  | slot {one two : Fragment} {profile : Profile} (sound : Sound source profile one two)

namespace Piece

/-- The fragment of a piece. -/
def left : Piece source excused → Fragment
  | .fixed text => .text (String.ofList text)
  | .spans head rest => .text (Span.leftFrom head.left rest)
  | .number before value after => .number (String.ofList before) value (String.ofList after)
  | @slot _ _ one _ _ _ => one

/-- The fragment of a piece for the blanked tree. -/
def right : Piece source excused → Fragment
  | .fixed text => .text (String.ofList text)
  | .spans head rest => .text (Span.rightFrom head.right rest)
  | .number before value after => .number (String.ofList before) value (String.ofList after)
  | @slot _ _ _ two _ _ => two

/-- A fragment with the fragments of pieces behind it. -/
def leftFrom (fragment : Fragment) (pieces : List (Piece source excused)) : Fragment :=
  pieces.foldl (fun fragment piece => fragment ++ piece.left) fragment

/-- A fragment with the fragments of pieces for the blanked tree behind it. -/
def rightFrom (fragment : Fragment) (pieces : List (Piece source excused)) : Fragment :=
  pieces.foldl (fun fragment piece => fragment ++ piece.right) fragment

/-- The spans of a number between fixed texts. -/
def numberSpans (before : List Char) (value : Int) (after : List Char) :
    List (Span source excused) :=
  [.fixed before, .numeral _ (isNumeral_toText value), .fixed after]

/-- What a piece leads to where quotes are doubled. -/
def lead (boundary : Boundary) (awaited : List Char) : Piece source excused →
    Option (Boundary × List Char)
  | .fixed text => Lexical.through boundary awaited text
  | .spans head rest => Span.leadAll boundary awaited (head :: rest)
  | .number before value after =>
    Span.leadAll boundary awaited (numberSpans before value after : List (Span source excused))
  | @slot _ _ _ _ profile _ =>
    if boundary = .clear ∨ boundary = profile.before then some (.behind, awaited) else none

/-- The two fragments of a piece are read alike. -/
theorem leads {piece : Piece source excused} (standard : source.Standard)
    (computed : piece.lead b₁ s₁ = some (b₂, s₂)) :
    Leads source.dialect b₁ s₁ piece.left piece.right b₂ s₂ := by
  have spans {head : Span source excused} {rest : List (Span source excused)}
      (computed : Span.leadAll b₁ s₁ (head :: rest) = some (b₂, s₂)) :
      Leads source.dialect b₁ s₁ (.text (Span.leftFrom head.left rest))
        (.text (Span.rightFrom head.right rest)) b₂
        s₂ := by
    obtain ⟨⟨boundary, awaited⟩, first, others⟩ := Option.bind_eq_some_iff.mp computed
    exact .ofText (Span.leadsAll standard (Span.leads standard first) others)
  cases piece with
  | fixed text =>
    refine .ofText ?_
    rw [String.toList_ofList]
    exact .fixed computed
  | spans head rest => exact spans computed
  | number before value after =>
    show Leads source.dialect b₁ s₁ (.number _ value _) (.number _ value _) b₂ s₂
    unfold Fragment.number
    split
    · -- Numbers with too many digits are not written.
      exact .fail
    · have read : Span.leadAll b₁ s₁ (.fixed before :: [.numeral _ (isNumeral_toText value),
          .fixed after]) =
          some (b₂, s₂) := computed
      have alike := spans read
      exact alike
  | slot sound =>
    obtain ⟨allowed, same⟩ := Option.ite_none_right_eq_some.mp computed
    obtain ⟨rfl, rfl⟩ := Prod.mk.inj (Option.some.inj same)
    exact leads_of_before (sound.closed standard) allowed

/-- What pieces one after the other lead to. -/
def leadAll : Boundary → List Char → List (Piece source excused) → Option (Boundary × List Char)
  | boundary, awaited, [] => some (boundary, awaited)
  | boundary, awaited, piece :: rest =>
    (piece.lead boundary awaited).bind fun (boundary, awaited) => leadAll boundary awaited rest

/-- Pieces behind fragments that are read alike keep them so. -/
theorem leadsAll {pieces : List (Piece source excused)} {b₃ : Boundary} {s₃ : List Char}
    (standard : source.Standard) (before : Leads source.dialect b₁ s₁ one two b₂ s₂)
    (computed : leadAll b₂ s₂ pieces = some (b₃, s₃)) :
    Leads source.dialect b₁ s₁ (leftFrom one pieces) (rightFrom two pieces) b₃ s₃ := by
  induction pieces generalizing one two b₂ s₂ with
  | nil =>
    obtain ⟨rfl, rfl⟩ := Prod.mk.inj (Option.some.inj computed)
    exact before
  | cons piece rest ih =>
    obtain ⟨⟨boundary, awaited⟩, first, others⟩ := Option.bind_eq_some_iff.mp computed
    exact ih (before.append (leads standard first)) others

/-- Whether pieces one after the other leave nothing open. -/
def closes (profile : Profile) (pieces : List (Piece source excused)) : Bool :=
  match leadAll profile.before [] pieces with
  | some (boundary, []) => boundary ≠ .within
  | _ => false

/-- The profile of a piece. -/
def profile? : Piece source excused → Option Profile
  | .fixed text => Span.profile? [(.fixed text : Span source excused)]
  | .spans head rest => Span.profile? (head :: rest)
  | .number before value after =>
    Span.profile? (numberSpans before value after : List (Span source excused))
  | @slot _ _ _ _ profile _ => some profile

/-- A piece is read as its profile tells. -/
theorem of_profile? {piece : Piece source excused} (computed : piece.profile? = some profile) :
    Clean source excused piece.left ∧ (source.Regular → Calm source profile piece.left) := by
  cases piece with
  | fixed text => exact Span.of_profile? computed
  | spans head rest => exact Span.of_profile? computed
  | number before value after =>
    rw [left]
    unfold Fragment.number
    split
    · have failed : Sound source profile (.fail .unwritableInteger) .empty := .fail _
      exact ⟨failed.clean.mono False.elim rfl (List.Subset.refl _), failed.calm⟩
    · exact Span.of_profile? computed
  | slot sound =>
    obtain rfl := Option.some.inj computed
    exact ⟨sound.clean.mono False.elim rfl (List.Subset.refl _), sound.calm⟩

/-- The profile of pieces behind something that has one. -/
def runAll : Profile → List (Piece source excused) → Option Profile
  | profile, [] => some profile
  | profile, piece :: rest =>
    piece.profile?.bind fun more => (profile.append? more).bind fun whole => runAll whole rest

/-- Pieces behind a fragment are read as their profiles tell. -/
theorem of_runAll {pieces : List (Piece source excused)} (clean : Clean source excused one)
    (calm : source.Regular → Calm source profile one)
    (computed : runAll profile pieces = some more) :
    Clean source excused (leftFrom one pieces) ∧
      (source.Regular → Calm source more (leftFrom one pieces)) := by
  induction pieces generalizing one profile with
  | nil =>
    obtain rfl := Option.some.inj computed
    exact ⟨clean, calm⟩
  | cons piece rest ih =>
    obtain ⟨more, found, computed⟩ := Option.bind_eq_some_iff.mp computed
    obtain ⟨whole, fitting, others⟩ := Option.bind_eq_some_iff.mp computed
    obtain ⟨pieceClean, pieceCalm⟩ := of_profile? found
    exact ih (clean.append pieceClean)
      (fun regular => (calm regular).append (pieceCalm regular) fitting) others

/-- Whether pieces can stand one after the other: where quotes are doubled they leave nothing open,
and they have a profile that tells at least what another one tells. -/
def fit (profile : Profile) (head : Piece source excused) (rest : List (Piece source excused)) :
    Bool :=
  (closes profile (head :: rest) || !Dialect.standard.contains source.dialect) &&
    (head.profile?.bind fun first => runAll first rest).any (·.within profile)

end Piece

/-! ## Templates -/

section

variable (head : Piece source excused) (rest : List (Piece source excused))
  (computed : Piece.fit profile head rest)

include computed

/-- Where quotes are doubled, pieces that fit leave nothing open. -/
theorem Piece.leads_of_fit (standard : source.Standard) :
    Leads source.dialect profile.before [] (leftFrom head.left rest)
      (rightFrom head.right rest) .behind [] := by
  have closes : closes profile (head :: rest) = true := by
    have first := (Bool.and_eq_true_iff.mp computed).1
    simpa [standard.1] using first
  unfold Piece.closes at closes
  split at closes
  next boundary read =>
    obtain ⟨⟨between, awaited⟩, first, others⟩ := Option.bind_eq_some_iff.mp read
    exact (leadsAll standard (leads standard first) others).behind (by simpa using closes)
  · simp at closes

/-- Pieces that fit are read as their profile tells. -/
theorem Piece.of_fit :
    Clean source excused (leftFrom head.left rest) ∧
      (source.Regular → Calm source profile (leftFrom head.left rest)) := by
  have fits := (Bool.and_eq_true_iff.mp computed).2
  cases run : head.profile?.bind fun first => runAll first rest with
  | none => simp [run] at fits
  | some found =>
    have less : found.within profile := by simpa [run] using fits
    obtain ⟨first, headRun, restRun⟩ := Option.bind_eq_some_iff.mp run
    obtain ⟨headClean, headCalm⟩ := of_profile? headRun
    obtain ⟨clean, calm⟩ := of_runAll headClean headCalm restRun
    refine ⟨clean, fun regular text written => ?_⟩
    obtain ⟨finish, fits, dashes⟩ := calm regular text written
    exact ⟨finish, fits.mono less, dashes⟩

/-- **Templates.** A construct is sound if its pieces fit one after the other. Null bytes are
excused in a construct that is that of a call that writes them. -/
theorem Sound.templateUnless (bears : excused → source.BearsNull (Piece.leftFrom head.left rest)) :
    Sound source profile (Piece.leftFrom head.left rest) (Piece.rightFrom head.right rest) := by
  obtain ⟨clean, calm⟩ := Piece.of_fit head rest computed
  refine ⟨Piece.leads_of_fit head rest computed, fun sql member hasNull => .inr ?_, calm⟩
  -- Where a null byte is excused, the whole construct bears it.
  rcases clean sql member hasNull with excuse | below
  · exact ⟨_, Fragment.self_mem_parts _, bears excuse⟩
  · exact below

end

/-- A construct without excused null bytes. -/
theorem Sound.template (head : Piece source False) (rest : List (Piece source False))
    (computed : Piece.fit profile head rest) :
    Sound source profile (Piece.leftFrom head.left rest) (Piece.rightFrom head.right rest) :=
  .templateUnless head rest computed False.elim

/-- A text is sound if it fits by itself. -/
theorem Sound.text (sql : String) {characters : List Char}
    (spelled : sql = String.ofList characters)
    (computed : Piece.fit profile (.fixed characters : Piece source False) []) :
    Sound source profile (.text sql) (.text sql) := by
  rw [spelled]
  exact .template (.fixed characters) [] computed

/-- Literals are sound if the spans of their texts fit; null bytes are looked for where literals are
made. -/
theorem Sound.literal {value other : Literal} (head : Span source True)
    (rest : List (Span source True)) (computed : Piece.fit profile (.spans head rest) [])
    (spelled : ∀ text, value.inlineText source.dialect = .ok text →
      text = Span.leftFrom head.left rest ∧
      other.inlineText source.dialect = .ok (Span.rightFrom head.right rest)) :
    Sound source profile (.literal value) (.literal other) := by
  have written {literal : Literal} {text : String}
      (inlined : literal.inlineText source.dialect = .ok text) :
      (Fragment.literal literal).inlined? source.dialect = some text.toList := by
    simp [Fragment.inlined?, inlined, Except.toOption]
  have inlined {text : List Char} (found : (Fragment.literal value).inlined? source.dialect =
      some text) :
      text = (Span.leftFrom head.left rest).toList ∧
        other.inlineText source.dialect = .ok (Span.rightFrom head.right rest) := by
    cases result : value.inlineText source.dialect with
    | error fault => simp [Fragment.inlined?, result, Except.toOption] at found
    | ok spelling =>
      obtain ⟨rfl, otherWritten⟩ := spelled spelling result
      exact ⟨(Option.some.inj ((written result).symm.trans found)).symm, otherWritten⟩
  refine ⟨fun standard text found => ?_, fun sql member => absurd member (by simp [Fragment.texts]),
    fun regular => .leaf rfl fun text found => ?_⟩
  · obtain ⟨rfl, otherWritten⟩ := inlined found
    obtain ⟨_, same, leads⟩ := Piece.leads_of_fit (.spans head rest) [] computed standard _ rfl
    obtain rfl := Option.some.inj same
    exact ⟨_, written otherWritten, leads⟩
  · obtain ⟨rfl, -⟩ := inlined found
    have fits := (Bool.and_eq_true_iff.mp computed).2
    cases run : Span.profile? (head :: rest) with
    | none => simp [Piece.profile?, run] at fits
    | some found =>
      have less : found.within profile := by simpa [Piece.profile?, Piece.runAll, run] using fits
      obtain ⟨finish, fits, apart⟩ := Span.reads_of_profile? run regular
      exact ⟨finish, fits.mono less, apart⟩

end Surface

end CelWhere
