import CelWhere.Proofs.Quoting

/-! # What stands outside of quoted regions

A text is read from left to right. A quote opens a region that the next quote of the same kind
closes, so that a doubled quote closes one region and opens another; in some dialects a backslash
inside a region escapes the character behind it. Each character outside of the regions leaves a
mark, and each region leaves one where it opens.

* `Surface.outside?` — the marks of a text whose regions are all closed;
* `Surface.meets` — two marks stand side by side;
* `Surface.Profile`, `Surface.Fits` — what is known about the ends of a list of marks, and lists of
  which it is true;
* `Surface.Fits.append` — lists that fit can stand side by side if their ends do not clash. -/

namespace CelWhere.Surface

/-! ## Reading -/

/-- A character outside of quoted regions, or none for a whole region. -/
abbrev Mark := Option Char

/-- The characters that open and close quoted regions. -/
def quotes : List Char := ['\'', '"', '\x60']

/-- Where a reader is. -/
inductive Place
  /-- Outside of quoted regions. -/
  | outside
  /-- In a region that a quote has opened. -/
  | inside (quote : Char)
  /-- In such a region, behind a backslash that escapes the next character. -/
  | escaped (quote : Char)
  deriving DecidableEq, Repr

/-- Whether a backslash escapes the character behind it in a quoted region. -/
def escapes : Dialect → Bool
  | .mysql | .bigquery => true
  | .postgresql | .sqlite | .duckdb => false

namespace Place

/-- Where a reader is behind a character. -/
def next (dialect : Dialect) : Place → Char → Place
  | .outside, c => if quotes.contains c then .inside c else .outside
  | .inside quote, c =>
    if c = quote then .outside else if c = '\\' && escapes dialect then .escaped quote
      else .inside quote
  | .escaped quote, _ => .inside quote

/-- Where a reader is behind a text. -/
def finish (dialect : Dialect) : Place → List Char → Place
  | place, [] => place
  | place, c :: rest => finish dialect (place.next dialect c) rest

/-- The mark that a character leaves. -/
def mark : Place → Char → List Mark
  | .outside, c => [if quotes.contains c then none else some c]
  | .inside _, _ | .escaped _, _ => []

/-- The marks that a text leaves. -/
def marks (dialect : Dialect) : Place → List Char → List Mark
  | _, [] => []
  | place, c :: rest => place.mark c ++ marks dialect (place.next dialect c) rest

variable {dialect : Dialect}

@[simp] theorem finish_append (place : Place) (first second : List Char) :
    place.finish dialect (first ++ second) =
      (place.finish dialect first).finish dialect second := by
  induction first generalizing place with
  | nil => rfl
  | cons c rest ih => exact ih _

@[simp] theorem marks_append (place : Place) (first second : List Char) :
    place.marks dialect (first ++ second) =
      place.marks dialect first ++ (place.finish dialect first).marks dialect second := by
  induction first generalizing place with
  | nil => rfl
  | cons c rest ih =>
    simp only [List.cons_append, marks, finish, ih, List.append_assoc]

/-- Inside a region the last mark is that of the region. -/
theorem getLast?_marks {place : Place} {earlier : List Mark} {text : List Char}
    (start : place ≠ .outside → earlier.getLast? = some none)
    (within : place.finish dialect text ≠ .outside) :
    (earlier ++ place.marks dialect text).getLast? = some none := by
  -- Marks are only left outside, and the one that leads inside is that of a region.
  induction text generalizing place earlier with
  | nil => simpa [marks] using start within
  | cons c rest ih =>
    rw [marks, ← List.append_assoc]
    refine ih ?_ within
    intro nowInside
    cases place with
    | outside =>
      by_cases isQuote : c ∈ quotes
      · simp [mark, isQuote]
      · simp [next, isQuote] at nowInside
    | inside quote => simpa [mark] using start (by simp)
    | escaped quote => simpa [mark] using start (by simp)

/-- The first mark of a text that starts outside is that of its first character. -/
theorem head?_marks (text : List Char) :
    (Place.outside.marks dialect text).head? = text.head?.map fun c => if quotes.contains c
      then none else some c := by
  cases text <;> rfl

end Place

/-! ## Marks side by side -/

/-- Whether one mark stands right before another one. -/
def meets (first second : Mark) : List Mark → Bool
  | one :: two :: rest => (one = first && two = second) || meets first second (two :: rest)
  | [_] | [] => false

/-- The marks of a text whose quoted regions are all closed. Where a doubled quote is no content of
a region, no region may stand right behind another one, since three quotes would open a region of
another kind. -/
def outside? (dialect : Dialect) (text : List Char) : Option (List Mark) :=
  let marks := Place.outside.marks dialect text
  if Place.outside.finish dialect text = .outside &&
    (Quoting.doubles dialect || !meets none none marks) then some marks
  else none

/-- Two marks meet in a list that is put together, or where its parts do. -/
theorem meets_append {x y : Mark} (first second : List Mark) :
    meets x y (first ++ second) =
      (meets x y first || meets x y second ||
        (first.getLast? = some x && second.head? = some y)) := by
  induction first with
  | nil => simp [meets]
  | cons one rest ih =>
    cases rest with
    | nil =>
      cases second with
      | nil => simp [meets]
      | cons two rest => simp [meets, Bool.or_comm]
    | cons two rest =>
      simp only [List.cons_append] at ih ⊢
      simp only [meets, ih, List.getLast?_cons_cons, Bool.or_assoc]

/-- A mark that a list does not have meets no other one. -/
theorem meets_of_not_mem {x y : Mark} {marks : List Mark} (absent : x ∉ marks) :
    meets x y marks = false := by
  induction marks with
  | nil => rfl
  | cons one rest ih =>
    have later := ih fun member => absent (.tail _ member)
    cases rest with
    | nil => rfl
    | cons two rest =>
      have other : one ≠ x := fun same => absent (same ▸ .head _)
      simpa [meets, other] using later

/-! ## The ends of lists of marks -/

/-- Which of the marks that can do harm at an end of a list may stand there. -/
structure Edge where
  /-- A minus. -/
  dash : Bool := false
  /-- A quoted region. -/
  region : Bool := false
  /-- The character of the opener of a comment that belongs to this end. -/
  stroke : Bool := false
  deriving DecidableEq, Repr

namespace Edge

/-- Whether a mark may stand at an end, given the character of the opener that belongs to it. -/
def allows (stroke : Char) (edge : Edge) : Mark → Bool
  | none => edge.region
  | some c => (c != '-' || edge.dash) && (c != stroke || edge.stroke)

/-- What one of two ends allows. -/
def join (one two : Edge) : Edge :=
  ⟨one.dash || two.dash, one.region || two.region, one.stroke || two.stroke⟩

/-- Whether harm can be done where an end meets a start. -/
def clashes (finish start : Edge) : Bool :=
  finish.dash && start.dash || finish.region && start.region || finish.stroke && start.stroke

/-- Whether one end allows no more than another. -/
def within (one two : Edge) : Bool :=
  (!one.dash || two.dash) && (!one.region || two.region) && (!one.stroke || two.stroke)

variable {stroke : Char} {one two : Edge} {mark : Mark}

/-- What the first of two ends allows. -/
theorem allows_join_left (allowed : one.allows stroke mark) :
    (one.join two).allows stroke mark := by
  cases mark with
  | none => simp_all [allows, join]
  | some c => grind [allows, join]

/-- What the second of two ends allows. -/
theorem allows_join_right (allowed : two.allows stroke mark) :
    (one.join two).allows stroke mark := by
  cases mark with
  | none => simp_all [allows, join]
  | some c => grind [allows, join]

/-- An end that allows more. -/
theorem allows_of_within (less : one.within two) (allowed : one.allows stroke mark) :
    two.allows stroke mark := by
  cases mark with
  | none => grind [allows, within]
  | some c => grind [allows, within]

end Edge

/-- What is known about a list of marks. -/
structure Profile where
  /-- What may stand at its start. -/
  start : Edge := {}
  /-- What may stand at its end. -/
  finish : Edge := {}
  /-- Whether it may have no mark. -/
  empty : Bool := false
  deriving DecidableEq, Repr

namespace Profile

/-- The profile of parts of which nothing is known but that they have no opener of a block comment
at their ends. -/
def any : Profile := ⟨{ dash := true, region := true }, { dash := true, region := true }, true⟩

/-- The profile of parts that do not end with a minus. -/
def firm : Profile := { any with finish := { region := true } }

/-- The profile of parts that start with a character other than a minus, if with any. -/
def gentle : Profile := { any with start := {} }

/-- The profile of lists without marks, or with marks that do no harm. -/
def plain : Profile := { empty := true }

/-- The profile of one mark. -/
def ofMark : Mark → Profile
  | none => ⟨{ region := true }, { region := true }, false⟩
  | some c =>
    ⟨{ dash := c = '-', stroke := c = '*' }, { dash := c = '-', stroke := c = '/' }, false⟩

/-- The profile of one list behind another, if their ends do not clash. -/
def append? (one two : Profile) : Option Profile :=
  if one.finish.clashes two.start then none
  else some {
    start := if one.empty then one.start.join two.start else one.start
    finish := if two.empty then one.finish.join two.finish else two.finish
    empty := one.empty && two.empty }

/-- The profile of a list, if no two marks of it do harm. -/
def ofMarks? : List Mark → Option Profile
  | [] => some plain
  | mark :: rest => (ofMarks? rest).bind (ofMark mark).append?

/-- Whether a profile tells at least what another one tells. -/
def within (one two : Profile) : Bool :=
  one.start.within two.start && one.finish.within two.finish && (!one.empty || two.empty)

end Profile

/-- A list of marks has the ends that a profile tells of. It has no opener of a block comment, and
where a doubled quote is no content of a region, no region stands right behind another one. -/
structure Fits (dialect : Dialect) (profile : Profile) (marks : List Mark) : Prop where
  /-- The first mark is allowed. -/
  start : ∀ mark, marks.head? = some mark → profile.start.allows '*' mark
  /-- The last mark is allowed. -/
  finish : ∀ mark, marks.getLast? = some mark → profile.finish.allows '/' mark
  /-- There may be no mark, if there is none. -/
  given : marks = [] → profile.empty = true
  /-- No block comment is opened. -/
  block : meets (some '/') (some '*') marks = false
  /-- Regions do not touch. -/
  apart : Quoting.doubles dialect = false → meets none none marks = false

namespace Fits

variable {dialect : Dialect} {one two three : Profile} {first second : List Mark}

theorem nil : Fits dialect .plain [] :=
  ⟨by simp, by simp, fun _ => rfl, rfl, fun _ => rfl⟩

/-- A single mark. -/
theorem singleton (mark : Mark) : Fits dialect (.ofMark mark) [mark] := by
  refine ⟨?_, ?_, by simp, rfl, fun _ => rfl⟩
  · rintro found ⟨⟩
    cases mark with
    | none => rfl
    | some c => grind [Profile.ofMark, Edge.allows]
  · rintro found ⟨⟩
    cases mark with
    | none => rfl
    | some c => grind [Profile.ofMark, Edge.allows]

/-- A profile that tells less. -/
theorem mono (fits : Fits dialect one first) (less : one.within two) : Fits dialect two first := by
  simp only [Profile.within, Bool.and_eq_true, Bool.or_eq_true, Bool.not_eq_true'] at less
  obtain ⟨⟨start, finish⟩, empty⟩ := less
  refine ⟨?_, ?_, ?_, fits.block, fits.apart⟩
  · intro mark found
    exact Edge.allows_of_within start (fits.start mark found)
  · intro mark found
    exact Edge.allows_of_within finish (fits.finish mark found)
  · intro isNil
    exact empty.resolve_left (by simp [fits.given isNil])

section

variable (left : Fits dialect one first) (right : Fits dialect two second)
  (fitting : one.append? two = some three)

include left right fitting

/-- Marks that meet where two lists do are kept apart by their ends. -/
theorem no_clash {x y : Mark}
    (harmful : (x, y) ∈ [(some '-', some '-'), (none, none), (some '/', some '*')]) :
    (first.getLast? = some x && second.head? = some y) = false := by
  have noClash : one.finish.clashes two.start = false := by
    simpa using (Option.ite_none_left_eq_some.mp fitting).1
  rw [Bool.eq_false_iff]
  intro meet
  obtain ⟨last, start⟩ : first.getLast? = some x ∧ second.head? = some y := by simpa using meet
  have allowedLast := left.finish x last
  have allowedStart := right.start y start
  simp only [List.mem_cons, List.not_mem_nil, or_false, Prod.mk.injEq] at harmful
  rcases harmful with ⟨rfl, rfl⟩ | ⟨rfl, rfl⟩ | ⟨rfl, rfl⟩
  · simp_all [Edge.allows, Edge.clashes]
  · simp_all [Edge.allows, Edge.clashes]
  · simp_all [Edge.allows, Edge.clashes]

/-- Minus signs meet in one of two lists if they meet in both together. -/
theorem meets_dashes : meets (some '-') (some '-') (first ++ second) =
    (meets (some '-') (some '-') first || meets (some '-') (some '-') second) := by
  rw [meets_append, left.no_clash right fitting (by simp), Bool.or_false]

/-- **Lists side by side.** A list behind another one fits the profile of both if their ends do not
clash. -/
theorem append : Fits dialect three (first ++ second) := by
  have same := (Option.ite_none_left_eq_some.mp fitting).2
  obtain rfl := Option.some.inj same
  refine ⟨?_, ?_, ?_, ?_, ?_⟩
  · -- The first mark is that of the second list only if the first list has none.
    intro mark found
    cases first with
    | nil =>
      simp only [left.given rfl, if_true]
      exact Edge.allows_join_right (right.start mark found)
    | cons head rest =>
      have allowed := left.start mark found
      split
      · exact Edge.allows_join_left allowed
      · exact allowed
  · intro mark found
    rw [List.getLast?_append] at found
    cases last : second.getLast? with
    | none =>
      simp only [right.given (List.getLast?_eq_none_iff.mp last), if_true]
      refine Edge.allows_join_left (left.finish mark ?_)
      simpa [last] using found
    | some other =>
      obtain rfl : other = mark := by simpa [last] using found
      have allowed := right.finish other last
      dsimp only
      split
      · exact Edge.allows_join_right allowed
      · exact allowed
  · intro isNil
    obtain ⟨noFirst, noSecond⟩ := List.append_eq_nil_iff.mp isNil
    simp only [left.given noFirst, right.given noSecond, Bool.and_true]
  · rw [meets_append, left.block, right.block, left.no_clash right fitting (by simp)]
    rfl
  · intro single
    rw [meets_append, left.apart single, right.apart single, left.no_clash right fitting (by simp)]
    rfl

end

/-- More regions behind a region. -/
theorem regions (fits : Fits dialect one first) (last : first.getLast? = some none) {count : Nat}
    (single : Quoting.doubles dialect = false → count = 0) :
    Fits dialect one (first ++ List.replicate count none) := by
  obtain ⟨front, rfl⟩ := List.getLast?_eq_some_iff.mp last
  have lastMark : (front ++ [none] ++ List.replicate count none : List Mark).getLast? =
      some none := by
    rw [List.append_assoc, List.singleton_append, ← List.replicate_succ, List.replicate_succ']
    simp
  refine ⟨?_, ?_, by simp, ?_, ?_⟩
  · intro mark found
    refine fits.start mark ?_
    cases front with
    | nil => exact found
    | cons head rest => exact found
  · intro mark found
    obtain rfl := Option.some.inj (lastMark.symm.trans found)
    exact fits.finish none last
  · rw [meets_append, fits.block, meets_of_not_mem (by simp), last]
    rfl
  · intro noDoubling
    rw [single noDoubling, List.replicate_zero, List.append_nil]
    exact fits.apart noDoubling

/-- A list that has a profile fits it, and no minus signs meet in it. -/
theorem ofMarks? {marks : List Mark} {profile : Profile}
    (found : Profile.ofMarks? marks = some profile) :
    Fits dialect profile marks ∧ meets (some '-') (some '-') marks = false := by
  induction marks generalizing profile with
  | nil =>
    obtain rfl := Option.some.inj found
    exact ⟨nil, rfl⟩
  | cons mark rest ih =>
    obtain ⟨behind, restFound, fitting⟩ := Option.bind_eq_some_iff.mp found
    obtain ⟨restFits, noDashes⟩ := ih restFound
    have here : Fits dialect (.ofMark mark) [mark] := singleton mark
    refine ⟨here.append restFits fitting, ?_⟩
    have together := here.meets_dashes restFits fitting
    rw [List.singleton_append, noDashes] at together
    exact together

end Fits

end CelWhere.Surface
