/-! # Quoted regions and brackets of SQL text

SQL text is read from left to right. Outside of quoted regions a single quote opens one; inside, a
doubled quote is content and a lone quote closes the region. What is left with every region
collapsed to one mark is the skeleton of the text, and the brackets of the skeleton can be matched.

Reading with a look at the next character cannot be cut at any place. The same reading character by
character, with a place between inside and outside where a quote has just been read, can:

* `readFrom`, `skeleton`, `EndsOutside`, `BracketsMatch` — reading with a look at the next
  character;
* `Place`, `finish`, `marks` — reading character by character, and `readFrom_eq` for their
  agreement;
* `Boundary`, `through` — what a fixed text does to the place and the open brackets;
* `TextLeads` — two texts are read alike, from a boundary and awaited brackets to others. -/

namespace CelWhere.Lexical

variable {text : List Char}

/-! ## Reading with a look ahead -/

/-- What reading a text gives. -/
structure Reading where
  /-- The characters outside of quoted regions, with `none` in the place of each region. -/
  skeleton : List (Option Char)
  /-- Whether the text ends inside a quoted region. -/
  inside : Bool
  deriving DecidableEq, Repr

/-- Puts a mark before the skeleton of a reading. -/
def Reading.cons (mark : Option Char) (reading : Reading) : Reading :=
  { reading with skeleton := mark :: reading.skeleton }

/-- Reads a text; the flag tells whether it starts inside a quoted region. A quote opens a region, a
doubled quote inside is content, and a lone quote closes. -/
def readFrom : Bool → List Char → Reading
  | inside, [] => ⟨[], inside⟩
  | false, head :: rest =>
    if head = '\'' then (readFrom true rest).cons none else (readFrom false rest).cons (some head)
  -- The doubled quote is tried first, so the quote of the last case is alone.
  | true, '\'' :: '\'' :: rest => readFrom true rest
  | true, head :: rest => readFrom (head ≠ '\'') rest

/-- The skeleton of a text: every quoted region is collapsed to one mark. -/
def skeleton (text : String) : List (Option Char) :=
  (readFrom false text.toList).skeleton

/-- A text that ends outside of its quoted regions. -/
def EndsOutside (text : String) : Prop :=
  (readFrom false text.toList).inside = false

instance (text : String) : Decidable (EndsOutside text) :=
  inferInstanceAs (Decidable ((readFrom false text.toList).inside = false))

/-! ## Brackets -/

/-- The bracket that closes what a character opens. -/
def closer? : Char → Option Char
  | '(' => some ')'
  | '[' => some ']'
  | _ => none

/-- Whether a character closes a bracket. -/
def isCloser (c : Char) : Bool :=
  c = ')' || c = ']'

/-- One mark of a skeleton with the closing brackets that are awaited, the next one first. -/
def bracket (awaited : List Char) : Option Char → Option (List Char)
  | none => some awaited
  | some c =>
    match closer? c with
    -- The bracket that was opened last has to be closed first.
    | some closing => some (closing :: awaited)
    | none =>
      if isCloser c then
        match awaited with
        | [] => none
        | next :: others => if next = c then some others else none
      else some awaited

/-- The closing brackets that are awaited behind a skeleton, unless a bracket in it closes another
than the last open one. -/
def brackets : List Char → List (Option Char) → Option (List Char)
  | awaited, [] => some awaited
  | awaited, mark :: rest => (bracket awaited mark).bind fun awaited => brackets awaited rest

/-- A text whose brackets outside of quoted regions are nested and matched. -/
def BracketsMatch (text : String) : Prop :=
  brackets [] (skeleton text) = some []

instance (text : String) : Decidable (BracketsMatch text) :=
  inferInstanceAs (Decidable (brackets [] (skeleton text) = some []))

/-- Brackets are matched one part after the other. -/
theorem brackets_append (awaited : List Char) (first second : List (Option Char)) :
    brackets awaited (first ++ second) = (brackets awaited first).bind fun awaited =>
      brackets awaited second := by
  induction first generalizing awaited with
  | nil => rfl
  | cons mark rest ih =>
    simp only [List.cons_append, brackets, Option.bind_assoc]
    cases bracket awaited mark with
    | none => rfl
    | some awaited => exact ih awaited

/-- What a mark does to the awaited brackets it does below any others. -/
theorem bracket_frame {awaited after : List Char} {mark : Option Char} (others : List Char)
    (read : bracket awaited mark = some after) :
    bracket (awaited ++ others) mark = some (after ++ others) := by
  cases mark with
  | none =>
    obtain rfl := Option.some.inj read
    rfl
  | some c =>
    simp only [bracket] at read ⊢
    cases opened : closer? c with
    | some closing =>
      simp only [opened, Option.some.injEq] at read ⊢
      rw [← read, List.cons_append]
    | none =>
      simp only [opened] at read ⊢
      by_cases isClosing : isCloser c
      · -- A closing bracket looks only at the first of the awaited ones.
        simp only [if_pos isClosing] at read ⊢
        cases awaited with
        | nil => simp at read
        | cons next rest =>
          by_cases same : next = c
          · simp only [List.cons_append, if_pos same, Option.some.injEq] at read ⊢
            rw [read]
          · simp [same] at read
      · simp only [if_neg isClosing, Option.some.injEq] at read ⊢
        rw [read]

/-- What a skeleton does to the awaited brackets it does below any others. -/
theorem brackets_frame {awaited after : List Char} {marks : List (Option Char)} (others : List Char)
    (read : brackets awaited marks = some after) :
    brackets (awaited ++ others) marks = some (after ++ others) := by
  induction marks generalizing awaited with
  | nil =>
    obtain rfl := Option.some.inj read
    rfl
  | cons mark rest ih =>
    obtain ⟨between, first, second⟩ := Option.bind_eq_some_iff.mp read
    simp only [brackets, bracket_frame others first, Option.bind_some]
    exact ih second

/-! ## Reading character by character -/

/-- Where reading stands between two characters. -/
inductive Place
  /-- Outside of quoted regions. -/
  | outside
  /-- Behind a quote that closes a region, unless another quote follows. -/
  | closing
  /-- Inside a quoted region. -/
  | inside
  deriving DecidableEq, Repr

/-- The place behind a character. -/
def Place.next (place : Place) (c : Char) : Place :=
  if c = '\'' then
    match place with
    | .inside => .closing
    | .outside | .closing => .inside
  else
    match place with
    | .inside => .inside
    | .outside | .closing => .outside

/-- What a character adds to the skeleton. -/
def Place.mark (place : Place) (c : Char) : List (Option Char) :=
  match place with
  | .inside => []
  | .closing => if c = '\'' then [] else [some c]
  | .outside => if c = '\'' then [none] else [some c]

/-- The place behind a text. -/
def finish (place : Place) (text : List Char) : Place :=
  text.foldl Place.next place

/-- What a text adds to the skeleton. -/
def marks : Place → List Char → List (Option Char)
  | _, [] => []
  | place, head :: rest => place.mark head ++ marks (place.next head) rest

variable (place : Place)

@[simp] theorem finish_nil : finish place [] = place := rfl

@[simp] theorem finish_cons (head : Char) (rest : List Char) :
    finish place (head :: rest) = finish (place.next head) rest := rfl

theorem finish_append (first second : List Char) :
    finish place (first ++ second) = finish (finish place first) second :=
  List.foldl_append

/-- What two texts add to the skeleton; the second one starts where the first one ends. -/
theorem marks_append (first second : List Char) :
    marks place (first ++ second) = marks place first ++ marks (finish place first) second := by
  induction first generalizing place with
  | nil => rfl
  | cons head rest ih =>
    simp only [List.cons_append, marks, finish_cons, ih, List.append_assoc]

/-- A text that does not start with a quote. -/
def NoQuoteFirst (text : List Char) : Prop :=
  text.head? ≠ some '\''

/-- Behind a quote that may have closed a region, what does not start with a quote is read as
outside. -/
theorem read_closing (noQuote : NoQuoteFirst text) :
    marks .closing text = marks .outside text ∧
      (finish .closing text = .inside ↔ finish .outside text = .inside) := by
  cases text with
  | nil => simp [marks]
  | cons head rest =>
    have isOther : head ≠ '\'' := by simpa [NoQuoteFirst] using noQuote
    simp [marks, Place.mark, Place.next, isOther]

/-- The place at which a text starts. -/
def Place.start (inside : Bool) : Place :=
  if inside then .inside else .outside

/-- **The two ways of reading agree.** -/
theorem readFrom_eq (inside : Bool) (text : List Char) :
    readFrom inside text = ⟨marks (.start inside) text, finish (.start inside) text = .inside⟩ := by
  -- The cases of the look ahead: the end, a quote and another character outside, a doubled quote
  -- and the rest inside.
  fun_induction readFrom inside text with
  | case1 inside => cases inside <;> simp [marks, Place.start]
  | case2 rest ih =>
    simp [ih, Reading.cons, marks, Place.start, Place.mark, Place.next]
  | case3 head rest isOther ih =>
    simp [ih, Reading.cons, marks, Place.start, Place.mark, Place.next, isOther]
  | case4 rest ih =>
    simp [ih, marks, Place.start, Place.mark, Place.next]
  | case5 head rest single ih =>
    by_cases isQuote : head = '\''
    · subst isQuote
      -- The region is closed here, because no second quote follows.
      have noQuote : NoQuoteFirst rest := by
        intro second
        obtain ⟨behind, same⟩ := List.head?_eq_some_iff.mp second
        exact single behind rfl same
      obtain ⟨sameMarks, samePlace⟩ := read_closing noQuote
      simp only [ne_eq, not_true_eq_false, decide_false] at ih ⊢
      simp [ih, marks, Place.start, Place.mark, Place.next, sameMarks, samePlace]
    · simp only [ne_eq, isQuote, not_false_eq_true, decide_true] at ih ⊢
      simp [ih, marks, Place.start, Place.mark, Place.next, isQuote]

/-! ## What a text does

A boundary says what is known of the place between two parts of a text. Right behind a quoted region
nothing may follow that starts with a quote, because the two regions would become one. -/

/-- What is known of the place between two parts of a text. -/
inductive Boundary
  /-- Outside of quoted regions, and not right behind one. -/
  | clear
  /-- Outside of quoted regions, perhaps right behind one. -/
  | behind
  /-- Inside a quoted region. -/
  | within
  deriving DecidableEq, Repr

/-- The places that a boundary allows. -/
def Boundary.Allows : Boundary → Place → Prop
  | .clear, place => place = .outside
  | .behind, place => place = .outside ∨ place = .closing
  | .within, place => place = .inside

/-- The boundary of a place. -/
def Place.boundary : Place → Boundary
  | .outside => .clear
  | .closing => .behind
  | .inside => .within

/-- The boundary of a place allows it. -/
theorem Place.boundary_allows : place.boundary.Allows place := by
  cases place with
  | outside => exact rfl
  | closing => exact .inr rfl
  | inside => exact rfl

/-- A place of a boundary from which a text can be read, if what follows does not depend on which it
is. -/
def Boundary.place? (boundary : Boundary) (text : List Char) : Option Place :=
  match boundary with
  | .clear => some .outside
  | .within => some .inside
  | .behind => if text = [] ∨ text.head? = some '\'' then none else some .outside

/-- The boundary and the awaited brackets behind a text. Text that starts with a quote must not
stand right behind a quoted region. -/
def through (boundary : Boundary) (awaited : List Char) (text : List Char) :
    Option (Boundary × List Char) :=
  if text = [] then some (boundary, awaited)
  else
    (boundary.place? text).bind fun place =>
      (brackets awaited (marks place text)).map fun awaited =>
        ((finish place text).boundary, awaited)

/-- From every place that a boundary allows, a text is read as from the one chosen for it. -/
theorem Boundary.read_eq {boundary : Boundary} {chosen place : Place}
    (found : boundary.place? text = some chosen) (allowed : boundary.Allows place) :
    marks place text = marks chosen text ∧ finish place text = finish chosen text := by
  cases boundary with
  | clear =>
    obtain rfl := Option.some.inj found
    obtain rfl : place = .outside := allowed
    exact ⟨rfl, rfl⟩
  | within =>
    obtain rfl := Option.some.inj found
    obtain rfl : place = .inside := allowed
    exact ⟨rfl, rfl⟩
  | behind =>
    simp only [place?, Option.ite_none_left_eq_some, not_or, Option.some.injEq] at found
    obtain ⟨⟨given, noQuote⟩, rfl⟩ := found
    obtain ⟨head, rest, rfl⟩ := List.exists_cons_of_ne_nil given
    have isOther : head ≠ '\'' := by simpa using noQuote
    -- The first character is no quote, so it is read alike from both places.
    rcases allowed with rfl | rfl <;> simp [marks, Place.mark, Place.next, isOther]

/-! ## Texts that are read alike -/

/-- Two texts are read alike from a boundary to another: they end at the same place and add the same
marks, and the brackets of these lead from the ones awaited before to the ones awaited after. -/
def TextLeads (before : Boundary) (awaited : List Char) (first second : List Char)
    (after : Boundary) (remaining : List Char) : Prop :=
  ∀ place, before.Allows place →
    after.Allows (finish place first) ∧ finish place second = finish place first ∧
      marks place second = marks place first ∧ brackets awaited (marks place first) = some remaining

namespace TextLeads

variable {b₁ b₂ b₃ : Boundary} {s₁ s₂ s₃ : List Char} {first second third fourth : List Char}

theorem nil : TextLeads b₁ s₁ [] [] b₁ s₁ := fun _ allowed => ⟨allowed, rfl, rfl, rfl⟩

/-- A fixed text leads where its computation says. -/
theorem fixed (computed : through b₁ s₁ first = some (b₂, s₂)) :
    TextLeads b₁ s₁ first first b₂ s₂ := by
  unfold through at computed
  split at computed
  next empty =>
    obtain ⟨rfl, rfl⟩ := Prod.mk.inj (Option.some.inj computed)
    exact empty ▸ nil
  intro place allowed
  obtain ⟨chosen, found, read⟩ := Option.bind_eq_some_iff.mp computed
  obtain ⟨sameMarks, sameFinish⟩ := Boundary.read_eq found allowed
  obtain ⟨awaited, matched, same⟩ := Option.map_eq_some_iff.mp read
  obtain ⟨rfl, rfl⟩ := Prod.mk.inj same
  rw [sameMarks, sameFinish]
  exact ⟨Place.boundary_allows _, rfl, rfl, matched⟩

/-- One text after the other leads from the start of the one to the end of the other. -/
theorem append (one : TextLeads b₁ s₁ first second b₂ s₂)
    (two : TextLeads b₂ s₂ third fourth b₃ s₃) :
    TextLeads b₁ s₁ (first ++ third) (second ++ fourth) b₃ s₃ := by
  intro place allowed
  obtain ⟨between, sameFinish, sameMarks, matched⟩ := one place allowed
  obtain ⟨after, sameFinish', sameMarks', matched'⟩ := two _ between
  -- The second text is read from where the first one ends, which is the same place for both.
  simp only [finish_append, marks_append, brackets_append, sameFinish, sameMarks, matched]
  exact ⟨after, sameFinish', by rw [sameMarks'], matched'⟩

/-- Brackets that were awaited before are awaited below. -/
theorem frame (one : TextLeads b₁ s₁ first second b₂ s₂) (others : List Char) :
    TextLeads b₁ (s₁ ++ others) first second b₂ (s₂ ++ others) := by
  intro place allowed
  obtain ⟨after, sameFinish, sameMarks, matched⟩ := one place allowed
  exact ⟨after, sameFinish, sameMarks, brackets_frame others matched⟩

/-- A boundary that is clear is one behind a region at most. -/
theorem behind (one : TextLeads b₁ s₁ first second b₂ s₂) (outside : b₂ ≠ .within) :
    TextLeads b₁ s₁ first second .behind s₂ := by
  intro place allowed
  obtain ⟨after, others⟩ := one place allowed
  refine ⟨?_, others⟩
  cases b₂ with
  | clear => exact .inl after
  | behind => exact after
  | within => exact absurd rfl outside

end TextLeads

/-! ## Plain text and quoted content -/

/-- A text without quotes and brackets. -/
def Plain (text : List Char) : Prop :=
  ∀ c ∈ text, c ≠ '\'' ∧ closer? c = none ∧ isCloser c = false

/-- By going through the text, not through all characters that there are. -/
instance (text : List Char) : Decidable (Plain text) :=
  List.decidableBAll _ text

/-- A text without quotes and brackets leads back to where it starts. -/
theorem TextLeads.plain (isPlain : Plain text) (boundary : Boundary) (awaited : List Char) :
    TextLeads boundary awaited text text boundary awaited := by
  induction text with
  | nil => exact .nil
  | cons head rest ih =>
    obtain ⟨noQuote, noOpener, noCloser⟩ := isPlain head (by simp)
    have first : TextLeads boundary awaited [head] [head] boundary awaited := by
      intro place allowed
      cases boundary with
      | clear =>
        obtain rfl : place = .outside := allowed
        simp [Boundary.Allows, marks, Place.next, Place.mark, brackets, bracket, noQuote,
          noOpener, noCloser]
      | behind =>
        rcases allowed with rfl | rfl <;>
          simp [Boundary.Allows, marks, Place.next, Place.mark, brackets, bracket, noQuote,
            noOpener, noCloser]
      | within =>
        obtain rfl : place = .inside := allowed
        simp [Boundary.Allows, marks, Place.next, Place.mark, brackets, noQuote]
    exact first.append (ih fun c member => isPlain c (by simp [member]))

/-- A text that can stand inside a quoted region: it does not close it. -/
def Quotable (text : List Char) : Prop :=
  finish .inside text = .inside ∧ marks .inside text = []

/-- Two texts that can stand inside a quoted region are read alike there. -/
theorem TextLeads.content {first second : List Char} (one : Quotable first) (two : Quotable second)
    (awaited : List Char) : TextLeads .within awaited first second .within awaited := by
  rintro place rfl
  obtain ⟨finishOne, marksOne⟩ := one
  obtain ⟨finishTwo, marksTwo⟩ := two
  rw [finishOne, finishTwo, marksOne, marksTwo]
  exact ⟨rfl, rfl, rfl, rfl⟩

end CelWhere.Lexical
