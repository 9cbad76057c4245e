import CelWhere.Proofs.Negation.Reading
import CelWhere.Sql.Dialect
import CelWhere.Sql.Identifier

/-! # Comparisons of negated operands

Operands stand in comparisons as they are, a negated operand without parentheses. Since negation
binds looser than comparisons, a negation in front of a comparison is read as the negation of the
whole.

* `IsOperand` — texts that are read as operands: names and what stands in parentheses;
* `Side`, `Comparison` — operands, perhaps negated, and what is asked of them;
* `Comparison.read?_spelling` — what the text of a comparison is read as;
* `Comparison.equivalent_reading_iff` — when this has the value of the comparison that was meant. -/

namespace CelWhere

namespace Negation

/-! ## Comparisons -/

/-- A text is read as an operand. -/
structure IsOperand (text : List Char) : Prop where
  /-- It leaves nothing open. -/
  closed : Closed text
  /-- It is none of the words that are read in another way. -/
  isWord : Piece.ofWord text = .word text

/-- A side of a comparison. -/
inductive Side
  /-- An operand. -/
  | plain (text : List Char)
  /-- The negation of an operand. -/
  | negated (text : List Char)

namespace Side

/-- The text of the operand. -/
def text : Side → List Char
  | .plain text | .negated text => text

/-- Whether the operand is negated. -/
def isNegated : Side → Bool
  | .plain _ => false
  | .negated _ => true

/-- The words of a side. -/
def words : Side → List (List Char)
  | .plain text => [text]
  | .negated text => [notWord, text]

/-- The text of a side. -/
def spelling (side : Side) : List Char :=
  [' '].intercalate side.words

/-- The meaning of a side. -/
def predicate : Side → Predicate
  | .plain text => .operand text
  | .negated text => .not (.operand text)

end Side

/-- What a comparison asks of its subject. -/
inductive Comparison
  /-- How it compares with another operand. -/
  | compare (comparator : Comparator) (other : Side)
  /-- Whether it is a constant, or is not. -/
  | test (negated : Bool) (constant : Constant)
  /-- Whether it is an element of an array. -/
  | member (array : Side)

/-- What a dialect writes before and behind the array of a membership test. -/
def arrayAround : Dialect → String × String
  | .postgresql | .duckdb => ("ANY(", ")")
  | .sqlite => ("(SELECT value FROM json_each(", "))")
  | .bigquery => ("UNNEST(", ")")
  | .mysql => ("", "")

/-- The array that a membership test looks into, as a dialect writes it. -/
def arrayWord (dialect : Dialect) (array : List Char) : List Char :=
  (arrayAround dialect).1.toList ++ array ++ (arrayAround dialect).2.toList

/-- The sign or word before the array. -/
def memberWord : Dialect → List Char
  | .postgresql | .duckdb => "=".toList
  | .sqlite | .bigquery | .mysql => inWord

namespace Comparison

/-- Whether a dialect writes the subject as an argument of a call. -/
def encloses (dialect : Dialect) : Comparison → Bool
  | .member _ => dialect = .mysql
  | _ => false

/-- The words behind the subject. -/
def tail (dialect : Dialect) : Comparison → List (List Char)
  | .compare comparator other => comparator.sign.toList :: other.words
  | .test false constant => [isWord, constant.text.toList]
  | .test true constant => [isWord, notWord, constant.text.toList]
  | .member array => [memberWord dialect, arrayWord dialect array.spelling]

/-- The text of a comparison. -/
def spelling (dialect : Dialect) (subject : Side) (comparison : Comparison) : List Char :=
  match comparison with
  | .member array =>
    if dialect = .mysql then
      "JSON_CONTAINS(".toList ++ array.spelling ++ ", JSON_EXTRACT(JSON_ARRAY(".toList ++
        subject.spelling ++
        "), '$[0]'))".toList
    else [' '].intercalate (subject.words ++ comparison.tail dialect)
  | _ => [' '].intercalate (subject.words ++ comparison.tail dialect)

/-- A comparison of a certain subject. -/
def predicate (dialect : Dialect) (subject : Predicate) : Comparison → Predicate
  | .compare comparator other => .compare comparator subject other.predicate
  | .test negated constant => .test negated constant subject
  | .member array => .member (arrayWord dialect array.spelling) subject

/-- What a comparison is read as: negations of the subject are negations of the whole. -/
def reading (dialect : Dialect) (subject : Side) (comparison : Comparison) : Predicate :=
  match subject with
  | .plain text => comparison.predicate dialect (.operand text)
  | .negated text => .not (comparison.predicate dialect (.operand text))

/-- The other operand is read as one. -/
def Whole : Comparison → Prop
  | .compare _ other => IsOperand other.text
  | .test _ _ => True
  | .member array => IsOperand array.text

/-- The other operand is no constant. -/
def IsFree : Comparison → Prop
  | .compare _ other => Constant.ofText? other.text = none
  | .test _ _ | .member _ => True

/-- Whether a comparison asks for equality or inequality with another operand. -/
def isEquality : Comparison → Bool
  | .compare comparator _ => comparator.isEquality
  | .test _ _ | .member _ => false

end Comparison

/-! ## Reading comparisons -/

theorem Piece.ofWord_notWord : Piece.ofWord notWord = .not := by
  decide

theorem Piece.ofWord_sign (comparator : Comparator) :
    Piece.ofWord comparator.sign.toList = .sign comparator := by
  cases comparator <;> decide

/-- Constants are words like others. -/
theorem Piece.ofWord_constant (constant : Constant) :
    Piece.ofWord constant.text.toList = .word constant.text.toList := by
  cases constant <;> decide

theorem Constant.ofText?_text (constant : Constant) :
    Constant.ofText? constant.text.toList = some constant := by
  cases constant <;> decide

/-- A word with an initial that none of the words with a meaning of their own has. -/
theorem Piece.ofWord_initial {initial : Char} {rest : List Char}
    (other : initial ∉ "ANI=!<>".toList) :
    Piece.ofWord (initial :: rest) = .word (initial :: rest) := by
  simp only [String.reduceToList, List.mem_cons, List.not_mem_nil, or_false, not_or] at other
  have noArray : 'A' ≠ initial := Ne.symm other.1
  simp [Piece.ofWord, notWord, isWord, inWord, Comparator.all, Comparator.sign, other, noArray]

/-- An array one of whose elements is meant. -/
theorem Piece.ofWord_any (array : List Char) :
    Piece.ofWord ('A' :: 'N' :: 'Y' :: '(' :: array) =
      .any ('A' :: 'N' :: 'Y' :: '(' :: array) := by
  simp [Piece.ofWord, notWord, isWord, inWord]

/-- Words of characters that neither open nor close anything and are in no sign are operands, apart
from the words with a meaning of their own. -/
theorem isOperand_of_plain {text : List Char} (plain : ∀ c ∈ text, c ∉ " ()[]'=!<>".toList)
    (noWord : text ∉ [notWord, isWord, inWord]) : IsOperand text := by
  constructor
  · unfold Closed
    clear noWord
    induction text with
    | nil => rfl
    | cons c rest ih =>
      have special := plain c (.head _)
      have below := ih fun found member => plain found (.tail _ member)
      simp only [String.reduceToList, List.mem_cons, List.not_mem_nil, or_false, not_or] at special
      have stays : Place.outside.next c = .outside := by simp [Place.next, Place.outside, special]
      simp [Place.cross?, special, stays, below]
  · simp only [List.mem_cons, List.not_mem_nil, or_false, not_or] at noWord
    have noArray : "ANY(".toList.isPrefixOf text = false := by
      rw [Bool.eq_false_iff]
      intro starts
      have bracket : '(' ∈ text := (List.isPrefixOf_iff_prefix.mp starts).subset (by decide)
      exact plain '(' bracket (by decide)
    have noSign : Comparator.all.find? (text = ·.sign.toList) = none := by
      rw [List.find?_eq_none]
      intro comparator _ same
      have spelled : text = comparator.sign.toList := of_decide_eq_true same
      have special : comparator.sign.toList.any fun c => " ()[]'=!<>".toList.contains c := by
        cases comparator <;> decide
      obtain ⟨c, member, isSpecial⟩ := List.any_eq_true.mp special
      exact plain c (spelled ▸ member) (List.contains_iff_mem.mp isSpecial)
    rw [Piece.ofWord, if_neg noWord.1, if_neg noWord.2.1, if_neg noWord.2.2, noArray, noSign]
    rfl

/-- Valid names are operands. -/
theorem isOperand_name {text : String} (valid : columnNameFault? text = none) :
    IsOperand text.toList := by
  obtain ⟨-, -, named, free⟩ := NameRules.fault?_eq_none.mp valid
  have noSpecial : " ()[]'=!<>".toList.all fun c => !Lexer.isNameChar c && c != '\n' := by decide
  have reserved : ∀ word ∈ [notWord, isWord, inWord], lowerName (String.ofList word) ∈
      sharedReserved := by decide
  refine isOperand_of_plain ?_ ?_
  · intro c member special
    have neither := List.all_eq_true.mp noSpecial c special
    rcases isNameChar_of_isNameText named member with isName | isEnd
    · simp [isName] at neither
    · simp [isEnd] at neither
  · intro isWord
    have lowered := reserved text.toList isWord
    rw [String.ofList_toList] at lowered
    exact free lowered

/-- What stands in parentheses is an operand. -/
theorem isOperand_paren {text : List Char}
    (balanced : (Place.outside.deeper 1).cross? text = some (Place.outside.deeper 1)) :
    IsOperand ('(' :: (text ++ [')'])) where
  closed := Closed.enclosed (by decide : Place.outside.cross? ['('] = _) balanced (by decide)
  isWord := Piece.ofWord_initial (by decide)

/-- Behind a subject, the words of a membership test are read as such. -/
theorem readBehind_member {dialect : Dialect} (called : dialect ≠ .mysql) (array : List Char)
    (subject : Predicate) :
    readBehind subject [Piece.ofWord (memberWord dialect), Piece.ofWord (arrayWord dialect array)] =
      some (.member (arrayWord dialect array) subject) := by
  have equality : Piece.ofWord ['='] = .sign .eq := Piece.ofWord_sign .eq
  have membership : Piece.ofWord inWord = .within := by decide
  cases dialect with
  | postgresql | duckdb =>
    simp [memberWord, arrayWord, arrayAround, equality, Piece.ofWord_any, readBehind]
  | sqlite | bigquery =>
    simp [memberWord, arrayWord, arrayAround, membership, Piece.ofWord_initial, readBehind]
  | mysql => exact absurd rfl called

namespace Side

variable {side : Side} (operand : IsOperand side.text)

include operand

/-- Within brackets, nothing in the text of a side closes one of them. -/
theorem cross?_spelling (levels : Nat) :
    (Place.outside.deeper (levels + 1)).cross? side.spelling =
      some (Place.outside.deeper (levels + 1)) := by
  have crossed := Place.cross?_deeper (levels + 1) operand.closed
  cases side with
  | plain text => simpa [spelling, words, Side.text] using crossed
  | negated text =>
    have start : (Place.outside.deeper (levels + 1)).cross? "NOT ".toList =
        some (Place.outside.deeper (levels + 1)) := by
      simp [Place.cross?, Place.next, Place.deeper, Place.outside]
    have written : (Side.negated text).spelling = "NOT ".toList ++ text := by
      simp [spelling, words, notWord, List.intercalate]
    rw [written, Place.cross?_append, start]
    exact crossed

/-- The words of a side are closed. -/
theorem words_closed : ∀ word ∈ side.words, Closed word := by
  have closed := operand.closed
  have negation : Closed notWord := by decide
  cases side with
  | plain text => simpa [words, Side.text] using closed
  | negated text => simpa [words, Side.text] using ⟨negation, closed⟩

/-- The array of a membership test is closed. -/
theorem arrayWord_closed {dialect : Dialect} (called : dialect ≠ .mysql) :
    Closed (arrayWord dialect side.spelling) := by
  cases dialect with
  | postgresql | duckdb | bigquery =>
    exact .enclosed (by decide) (side.cross?_spelling operand 0) (by decide)
  | sqlite => exact .enclosed (by decide) (side.cross?_spelling operand 1) (by decide)
  | mysql => exact absurd rfl called

/-- A side in front of pieces is read as its operand, and its negation as that of the whole. -/
theorem readPieces_words (rest : List Piece) :
    readPieces (side.words.map Piece.ofWord ++ rest) =
      if side.isNegated then (readBehind (.operand side.text) rest).map .not
      else readBehind (.operand side.text) rest := by
  have isWord := operand.isWord
  cases side with
  | plain text =>
    rw [Side.text] at isWord
    simp [words, isWord, readPieces, isNegated, Side.text]
  | negated text =>
    rw [Side.text] at isWord
    simp [words, isWord, Piece.ofWord_notWord, readPieces, isNegated, Side.text]

/-- By itself, a side is read as it is meant. -/
theorem read?_side : read? side.spelling = some side.predicate := by
  have given : side.words ≠ [] := by cases side <;> simp [words]
  have read := side.readPieces_words operand []
  rw [List.append_nil] at read
  rw [read?, spelling, pieces_intercalate given (side.words_closed operand), read]
  cases side with
  | plain text | negated text => simp [isNegated, readBehind, predicate, Side.text]

end Side

namespace Comparison

variable {dialect : Dialect} {subject : Side} {comparison : Comparison}

section

variable (opened : comparison.encloses dialect = false)

include opened

/-- A comparison whose subject is not enclosed has the subject in front. -/
theorem spelling_of_open :
    comparison.spelling dialect subject =
      [' '].intercalate (subject.words ++ comparison.tail dialect) := by
  cases comparison with
  | compare comparator other | test negated constant => rfl
  | member array =>
    have called : dialect ≠ .mysql := by simpa [encloses] using opened
    simp [spelling, called]

/-- Its text is that of the subject and then of the words behind it. -/
theorem spelling_eq_append :
    comparison.spelling dialect subject =
      subject.spelling ++ ' ' :: [' '].intercalate (comparison.tail dialect) := by
  obtain ⟨word, rest, found⟩ : ∃ word rest, comparison.tail dialect = word :: rest := by
    cases comparison with
    | compare comparator other | member array => simp [tail]
    | test negated constant => cases negated <;> simp [tail]
  rw [spelling_of_open opened, found]
  cases subject with
  | plain text | negated text => simp [Side.spelling, Side.words]

/-- The words behind the subject are closed. -/
theorem Whole.tail_closed (whole : comparison.Whole) :
    ∀ word ∈ comparison.tail dialect, Closed word := by
  have signs : ∀ comparator : Comparator, Closed comparator.sign.toList := by
    intro comparator
    cases comparator <;> decide
  have constants : ∀ constant : Constant, Closed constant.text.toList := by
    intro constant
    cases constant <;> decide
  have test : Closed isWord := by decide
  have negation : Closed notWord := by decide
  cases comparison with
  | compare comparator other =>
    exact List.forall_mem_cons.mpr ⟨signs comparator, Side.words_closed whole⟩
  | test negated constant => cases negated <;> simp [tail, test, negation, constants]
  | member array =>
    have called : dialect ≠ .mysql := by simpa [encloses] using opened
    have before : Closed (memberWord dialect) := by cases dialect <;> decide
    simpa [tail] using ⟨before, Side.arrayWord_closed whole called⟩

/-- Behind a subject, the words of a comparison are read as this comparison. -/
theorem Whole.readBehind_tail (whole : comparison.Whole) (operand : Predicate) :
    readBehind operand ((comparison.tail dialect).map Piece.ofWord) =
      some (comparison.predicate dialect operand) := by
  have test : Piece.ofWord isWord = .is := by decide
  cases comparison with
  | compare comparator other =>
    have isWord := IsOperand.isWord whole
    cases other with
    | plain text =>
      rw [Side.text] at isWord
      simp [tail, Side.words, isWord, Piece.ofWord_sign, readBehind, predicate, Side.predicate]
    | negated text =>
      rw [Side.text] at isWord
      simp [tail, Side.words, isWord, Piece.ofWord_sign, Piece.ofWord_notWord, readBehind,
        readPieces, predicate, Side.predicate]
  | test negated constant =>
    cases negated with
    | false =>
      simp [tail, test, Piece.ofWord_constant, Constant.ofText?_text, readBehind, predicate]
    | true =>
      simp [tail, test, Piece.ofWord_notWord, Piece.ofWord_constant, Constant.ofText?_text,
        readBehind, predicate]
  | member array =>
    have called : dialect ≠ .mysql := by simpa [encloses] using opened
    exact readBehind_member called array.spelling operand

/-- **A negation in front of a comparison is read as the negation of the whole.** -/
theorem read?_spelling (operand : IsOperand subject.text) (whole : comparison.Whole) :
    read? (comparison.spelling dialect subject) = some (comparison.reading dialect subject) := by
  have given : subject.words ++ comparison.tail dialect ≠ [] :=
    by cases subject <;> simp [Side.words]
  have closed := List.forall_mem_append.mpr ⟨subject.words_closed operand, whole.tail_closed opened⟩
  rw [read?, spelling_of_open opened, pieces_intercalate given closed, List.map_append,
    subject.readPieces_words operand, whole.readBehind_tail opened]
  cases subject with
  | plain text | negated text => rfl

end

/-- What is read is what is meant if and only if the subject is not negated. -/
theorem reading_eq_iff :
    comparison.reading dialect subject = comparison.predicate dialect subject.predicate ↔
      subject.isNegated = false := by
  cases subject with
  | plain text => simp [reading, Side.predicate, Side.isNegated]
  | negated text => cases comparison <;> simp [reading, predicate, Side.predicate, Side.isNegated]

/-- **What is read has the value of what is meant**, for a negated subject, if and only if equality
or inequality with another operand is asked. -/
theorem equivalent_reading_iff {text : List Char} (free : Constant.ofText? text = none)
    (otherFree : comparison.IsFree) :
    (comparison.reading dialect (.negated text)).Equivalent
      (comparison.predicate dialect (Side.negated text).predicate) ↔ comparison.isEquality := by
  cases comparison with
  | compare comparator other =>
    have uniform : other.predicate.Uniform := by
      cases other with
      | plain text => exact Predicate.uniform_operand otherFree
      | negated text => exact Predicate.uniform_not_operand otherFree
    exact Predicate.equivalent_not_compare_iff free uniform
  | test negated constant =>
    exact iff_of_false (Predicate.not_equivalent_not_test free) (by simp [isEquality])
  | member array => exact iff_of_false Predicate.not_equivalent_not_member (by simp [isEquality])

end Comparison

end Negation

end CelWhere
