import CelWhere.Sql.Operator
import Mathlib.Data.List.Basic

/-! # Reading comparisons with negations

A condition is cut into words at the blanks outside parentheses and quotes. Negation binds looser
than comparisons, tests and memberships: it takes everything behind it, also where it stands in the
place of an operand.

* `Predicate`, `Predicate.value` — comparisons with negations, and their truth values, of which null
  is one;
* `words`, `Piece.ofWord`, `read?` — the words of a text, and the predicate that it is read as;
* `pieces_intercalate` — texts that leave no bracket and no quote open are words of their own;
* `Predicate.equivalent_not_compare_iff` — negating an operand and negating the comparison are the
  same for equality and inequality only. -/

namespace CelWhere

/-! ## Predicates -/

namespace Comparator

/-- Whether two truth values compare. The false one comes before the true one. -/
def holds : Comparator → Bool → Bool → Bool
  | .eq, left, right => left == right
  | .ne, left, right => left != right
  | .lt, left, right => !left && right
  | .le, left, right => !left || right
  | .gt, left, right => left && !right
  | .ge, left, right => left || !right

/-- Whether equality or inequality is asked for. -/
def isEquality : Comparator → Bool
  | .eq | .ne => true
  | _ => false

end Comparator

namespace Negation

/-- The constants that values are tested against. -/
inductive Constant
  | null
  | true
  | false
  deriving DecidableEq

namespace Constant

/-- The text of a constant. -/
def text : Constant → String
  | .null => "NULL"
  | .true => "TRUE"
  | .false => "FALSE"

/-- The truth value of a constant; null is none. -/
def value : Constant → Option Bool
  | .null => none
  | .true => some Bool.true
  | .false => some Bool.false

/-- The constant with a certain text. -/
def ofText? (text : List Char) : Option Constant :=
  [Constant.null, .true, .false].find? (text = ·.text.toList)

end Constant

variable {text : List Char}

/-- A comparison of operands, some of them negated. -/
inductive Predicate
  /-- An operand that is not looked into. -/
  | operand (text : List Char)
  /-- A negation. -/
  | not (body : Predicate)
  /-- A comparison by a sign. -/
  | compare (comparator : Comparator) (left right : Predicate)
  /-- A test against a constant, or against its opposite. -/
  | test (negated : Bool) (constant : Constant) (subject : Predicate)
  /-- A test whether a value is an element of an array. -/
  | member (array : List Char) (value : Predicate)
  deriving DecidableEq

/-! ## Truth values -/

/-- The values of operands, null among them, and the elements of arrays. -/
structure Assignment where
  /-- The value of an operand. -/
  truth : List Char → Option Bool
  /-- The elements of an array. -/
  elements : List Char → List (Option Bool)

/-- The truth value of a comparison, which is null if a side is. -/
def compared (comparator : Comparator) (left right : Option Bool) : Option Bool :=
  left.bind fun one => right.map fun two => comparator.holds one two

/-- The disjunction of truth values. -/
def either : Option Bool → Option Bool → Option Bool
  | some true, _ => some true
  | _, some true => some true
  | some false, some false => some false
  | _, _ => none

namespace Predicate

/-- The truth value of a predicate. -/
def value (assignment : Assignment) : Predicate → Option Bool
  | .operand text => (Constant.ofText? text).elim (assignment.truth text) Constant.value
  | .not body => (body.value assignment).map (!·)
  | .compare comparator left right =>
    compared comparator (left.value assignment) (right.value assignment)
  | .test negated constant subject =>
    some (decide (subject.value assignment = constant.value) != negated)
  | .member array value =>
    (assignment.elements array).foldr (fun element found =>
      either (compared .eq (value.value assignment) element) found)
      (some false)

/-- Two predicates have the same value, whatever the values of their operands. -/
def Equivalent (first second : Predicate) : Prop :=
  ∀ assignment, first.value assignment = second.value assignment

/-- A predicate that takes every assignment in which all operands have one value to that value, or
always to its opposite: an operand that is no constant, or its negation. -/
def Uniform (predicate : Predicate) : Prop :=
  ∃ negated : Bool, ∀ assignment truth, assignment.truth = (fun _ => some truth) →
    predicate.value assignment = some (truth != negated)

/-- An operand that is no constant is uniform. -/
theorem uniform_operand (free : Constant.ofText? text = none) : Uniform (.operand text) := by
  refine ⟨false, ?_⟩
  intro assignment truth same
  simp [value, free, same]

/-- The negation of such an operand is uniform. -/
theorem uniform_not_operand (free : Constant.ofText? text = none) :
    Uniform (.not (.operand text)) := by
  refine ⟨true, ?_⟩
  intro assignment truth same
  simp [value, free, same]

/-- **A negated operand and a negated comparison** have the same value for equality and inequality,
and for no other sign. -/
theorem equivalent_not_compare_iff {comparator : Comparator} {other : Predicate}
    (free : Constant.ofText? text = none) (uniform : other.Uniform) :
    Equivalent (.not (.compare comparator (.operand text) other))
        (.compare comparator (.not (.operand text)) other) ↔
      comparator.isEquality := by
  constructor
  · intro same
    obtain ⟨negated, values⟩ := uniform
    -- Operands that all have one value tell orders apart: which value does depends on the sign and
    -- on the other side.
    have uniformly : ∀ truth : Bool,
        (!comparator.holds truth (truth != negated)) =
        comparator.holds (!truth) (truth != negated) := by
      intro truth
      let assignment : Assignment := ⟨fun _ => some truth, fun _ => []⟩
      have equal := same assignment
      simp only [value, free, Option.elim_none, values assignment truth rfl] at equal
      exact Option.some.inj equal
    have onFalse := uniformly false
    have onTrue := uniformly true
    cases comparator with
    | eq | ne => rfl
    | lt | le | gt | ge => cases negated <;> simp [Comparator.holds] at onFalse onTrue
  · intro equality assignment
    simp only [value, free, Option.elim_none]
    cases comparator with
    | eq | ne =>
      cases assignment.truth text with
      | none => rfl
      | some one =>
        cases other.value assignment with
        | none => rfl
        | some two => cases one <;> cases two <;> rfl
    | lt | le | gt | ge => simp [Comparator.isEquality] at equality

/-- A test of a negated operand and the negation of the test differ where the operand is null. -/
theorem not_equivalent_not_test {negated : Bool} {constant : Constant}
    (free : Constant.ofText? text = none) :
    ¬ Equivalent (.not (.test negated constant (.operand text)))
      (.test negated constant (.not (.operand text))) := by
  intro same
  have opposite := same ⟨fun _ => none, fun _ => []⟩
  simp [value, free] at opposite

/-- A membership test of a negated operand and the negation of the test differ where the array is
empty. -/
theorem not_equivalent_not_member {array : List Char} :
    ¬ Equivalent (.not (.member array (.operand text))) (.member array (.not (.operand text))) := by
  intro same
  have opposite := same ⟨fun _ => none, fun _ => []⟩
  simp [value] at opposite

end Predicate

/-! ## Words -/

/-- Where a text is read: the number of open brackets, and whether a quote is open. -/
structure Place where
  /-- The number of open brackets. -/
  depth : Nat
  /-- Whether a quote is open. -/
  quoted : Bool
  deriving DecidableEq

namespace Place

/-- Outside brackets and quotes. -/
def outside : Place := ⟨0, false⟩

/-- The place behind a character. -/
def next (place : Place) (c : Char) : Place :=
  if c = '\'' then { place with quoted := !place.quoted }
  else if place.quoted then place
  else if c = '(' ∨ c = '[' then { place with depth := place.depth + 1 }
  else if c = ')' ∨ c = ']' then { place with depth := place.depth - 1 }
  else place

/-- The place behind a text in which, outside brackets and quotes, no blank and no closing bracket
stands. -/
def cross? (place : Place) : List Char → Option Place
  | [] => some place
  | c :: rest => if place = outside ∧ c ∈ [' ', ')', ']'] then none else (place.next c).cross? rest

/-- A place within more brackets. -/
def deeper (place : Place) (levels : Nat) : Place := { place with depth := place.depth + levels }

/-- One text behind the other. -/
theorem cross?_append (place : Place) (first second : List Char) :
    place.cross? (first ++ second) = (place.cross? first).bind (·.cross? second) := by
  induction first generalizing place with
  | nil => rfl
  | cons c rest ih =>
    simp only [List.cons_append, cross?]
    split
    · rfl
    · exact ih _

/-- A character is read alike within more brackets, if it does not close one of them. -/
theorem next_deeper {place : Place} {c : Char} (levels : Nat)
    (inside : ¬(place = outside ∧ c ∈ [' ', ')', ']'])) :
    (place.deeper levels).next c = (place.next c).deeper levels := by
  by_cases quote : c = '\''
  · simp [next, deeper, quote]
  by_cases quoted : place.quoted
  · simp [next, deeper, quote, quoted]
  by_cases opening : c = '(' ∨ c = '['
  · simp [next, deeper, quote, quoted, opening, Nat.add_right_comm]
  by_cases closing : c = ')' ∨ c = ']'
  · have opened : place.depth ≠ 0 := by
      intro zero
      refine inside ⟨?_, ?_⟩
      · obtain ⟨depth, quoted⟩ := place
        simp_all [outside]
      · rcases closing with rfl | rfl <;> simp
    have shifted : place.depth + levels - 1 = place.depth - 1 + levels := by omega
    simp [next, deeper, quote, quoted, opening, closing, shifted]
  · simp [next, deeper, quote, quoted, opening, closing]

/-- A text is read alike within more brackets. -/
theorem cross?_deeper {start finish : Place} (levels : Nat)
    (crossed : start.cross? text = some finish) :
    (start.deeper levels).cross? text = some (finish.deeper levels) := by
  induction text generalizing start with
  | nil =>
    obtain rfl := Option.some.inj crossed
    rfl
  | cons c rest ih =>
    simp only [cross?] at crossed ⊢
    split at crossed
    · simp at crossed
    next inside =>
      have stillInside : ¬(start.deeper levels = outside ∧ c ∈ [' ', ')', ']']) := by
        rintro ⟨isOutside, separates⟩
        refine inside ⟨?_, separates⟩
        obtain ⟨depth, quoted⟩ := start
        simp only [deeper, outside, mk.injEq, Nat.add_eq_zero_iff] at isOutside ⊢
        exact ⟨isOutside.1.1, isOutside.2⟩
      rw [if_neg stillInside, next_deeper levels inside]
      exact ih crossed

end Place

/-- The words of a text: it is cut at the blanks outside brackets and quotes. The reading is at a
place behind the start of a word. -/
def words (place : Place) (word : List Char) : List Char → List (List Char)
  | [] => [word]
  | c :: rest =>
    if place = .outside ∧ c = ' ' then word :: words .outside [] rest
      else words (place.next c) (word ++ [c]) rest

/-- A text without blanks outside brackets and quotes belongs to one word. -/
theorem words_append {start finish : Place} (crossed : start.cross? text = some finish)
    (word rest : List Char) :
    words start word (text ++ rest) = words finish (word ++ text) rest := by
  induction text generalizing start word with
  | nil =>
    obtain rfl := Option.some.inj crossed
    simp
  | cons c more ih =>
    simp only [Place.cross?] at crossed
    split at crossed
    · simp at crossed
    next inside =>
      have noBlank : ¬(start = .outside ∧ c = ' ') :=
        fun blank => inside ⟨blank.1, by simp [blank.2]⟩
      rw [List.cons_append, words, if_neg noBlank, ih crossed]
      simp

/-! ## Pieces -/

/-- The pieces of a condition. -/
inductive Piece
  /-- The word of negation. -/
  | not
  /-- The word of tests. -/
  | is
  /-- The word of membership. -/
  | within
  /-- A sign. -/
  | sign (comparator : Comparator)
  /-- An array one of whose elements is meant. -/
  | any (array : List Char)
  /-- Any other word. -/
  | word (text : List Char)
  deriving DecidableEq

/-- The word of negation. -/
def notWord : List Char := "NOT".toList

/-- The word of tests. -/
def isWord : List Char := "IS".toList

/-- The word of membership. -/
def inWord : List Char := "IN".toList

/-- The piece that a word is. -/
def Piece.ofWord (word : List Char) : Piece :=
  if word = notWord then .not
  else if word = isWord then .is
  else if word = inWord then .within
  else if "ANY(".toList.isPrefixOf word then .any word
  else ((Comparator.all.find? (word = ·.sign.toList)).map Piece.sign).getD (.word word)

/-- The pieces of a text. -/
def pieces (text : List Char) : List Piece :=
  (words .outside [] text).map Piece.ofWord

/-- A text is closed if it leaves no bracket and no quote open and has no blank outside them. -/
def Closed (text : List Char) : Prop :=
  Place.outside.cross? text = some .outside

instance (text : List Char) : Decidable (Closed text) :=
  inferInstanceAs (Decidable (_ = _))

/-- A text in brackets is closed if what is around it opens and closes them. -/
theorem Closed.enclosed {before inside after : List Char} {place : Place}
    (opens : Place.outside.cross? before = some place) (kept : place.cross? inside = some place)
    (closes : place.cross? after = some .outside) : Closed (before ++ inside ++ after) := by
  rw [Closed, Place.cross?_append, Place.cross?_append, opens]
  simp [kept, closes]

/-- A closed text is one piece. -/
theorem pieces_closed (closed : Closed text) : pieces text = [Piece.ofWord text] := by
  have whole := words_append closed [] []
  simp only [List.append_nil, List.nil_append] at whole
  rw [pieces, whole]
  rfl

/-- A closed text with a blank behind it is one piece. -/
theorem pieces_append (closed : Closed text) (rest : List Char) :
    pieces (text ++ ' ' :: rest) = Piece.ofWord text :: pieces rest := by
  rw [pieces, words_append closed]
  simp [words, pieces]

/-- Closed texts with blanks between them are a piece each. -/
theorem pieces_intercalate {texts : List (List Char)} (given : texts ≠ [])
    (closed : ∀ text ∈ texts, Closed text) :
    pieces ([' '].intercalate texts) = texts.map Piece.ofWord := by
  induction texts with
  | nil => exact absurd rfl given
  | cons text rest ih =>
    cases rest with
    | nil =>
      rw [List.intercalate_singleton]
      exact pieces_closed (closed text (.head _))
    | cons second more =>
      have behind := ih (by simp) fun found member => closed found (.tail _ member)
      rw [List.intercalate_cons_cons, List.append_assoc, List.singleton_append,
        pieces_append (closed text (.head _)), behind]
      rfl

/-! ## Reading -/

mutual

/-- The predicate that pieces are read as. A negation takes all the pieces behind it. -/
def readPieces : List Piece → Option Predicate
  | .not :: rest => (readPieces rest).map .not
  | .word text :: rest => readBehind (.operand text) rest
  | _ => none

/-- The predicate that pieces behind a subject are read as. -/
def readBehind (subject : Predicate) : List Piece → Option Predicate
  | [] => some subject
  | .sign comparator :: .word text :: rest =>
    readBehind (.compare comparator subject (.operand text)) rest
  | .sign comparator :: .not :: rest =>
    (readPieces rest).map fun body => .compare comparator subject (.not body)
  | .sign .eq :: .any array :: rest => readBehind (.member array subject) rest
  | .within :: .word array :: rest => readBehind (.member array subject) rest
  | .is :: .word text :: rest =>
    (Constant.ofText? text).bind fun constant => readBehind (.test false constant subject) rest
  | .is :: .not :: .word text :: rest =>
    (Constant.ofText? text).bind fun constant => readBehind (.test true constant subject) rest
  | _ => none

end

/-- The predicate that a text is read as. -/
def read? (text : List Char) : Option Predicate :=
  readPieces (pieces text)

end Negation

end CelWhere
