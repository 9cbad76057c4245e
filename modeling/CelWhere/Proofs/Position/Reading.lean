import CelWhere.Proofs.Numeral
import CelWhere.Proofs.Surface.Reading
import Mathlib.Data.List.Infix
import Mathlib.Order.Bounds.Basic

/-! # Reading formulas of positions

The SQL for positions in strings is built from searches, parts and lengths of strings, sums of them,
and one choice. A text is cut into runs at the blanks, parentheses and commas outside of its quoted
regions. A run is a mark, a number or an operand, which is not looked into: it stands for a string.

* `Formula`, `Formula.value` — formulas, and their values;
* `lexemes`, `read?` — the lexemes of a text, and the formula that it is read as, with strings for
  its operands;
* `Lexes`, `lexemes_slot` — texts that are one lexeme wherever they stand between separators;
* `Occurs`, `firstPosition_spec` — where a string occurs in another, and that the search finds the
  least such place;
* `found_indexOf`, `found_lastIndexOf` — what is searched for in a part of a string, and
  backwards. -/

namespace CelWhere.Position

variable {text : List Char}

/-! ## Formulas -/

/-- A string that is made of others. -/
inductive Chars
  /-- The string of an operand. -/
  | string (value : List Char)
  /-- A string from its end to its start. -/
  | reverse (body : Chars)
  /-- The characters from a position on, which counts from one, and at most so many of them. -/
  | substring (body : Chars) (start : Int) (count : Option Int)
  deriving DecidableEq

/-- A summand. -/
inductive Term
  /-- A number. -/
  | number (value : Int)
  /-- The length of a string. -/
  | length (body : Chars)
  /-- The first position of a string in another, which counts from one; zero if there is none. -/
  | position (part whole : Chars)
  deriving DecidableEq

/-- Terms that are added and subtracted from left to right. -/
inductive Terms
  | single (term : Term)
  | add (left : Terms) (right : Term)
  | sub (left : Terms) (right : Term)
  deriving DecidableEq

/-- A string, or the choice between two sums by whether one is greater than another. -/
inductive Formula
  | chars (body : Chars)
  | choice (left right met unmet : Terms)
  deriving DecidableEq

/-- What a formula can denote. -/
inductive Value
  | chars (value : List Char)
  | number (value : Int)
  deriving DecidableEq

/-- The first position of a string in another, counted from one, or zero. -/
def firstPosition (part whole : List Char) : Nat :=
  (whole.tails.findIdx? part.isPrefixOf).elim 0 (· + 1)

/-- The string that is made. -/
def Chars.value : Chars → List Char
  | .string value => value
  | .reverse body => body.value.reverse
  | .substring body start count =>
    let behind := body.value.drop (start - 1).toNat
    count.elim behind fun count => behind.take count.toNat

/-- The value of a summand. -/
def Term.value : Term → Int
  | .number value => value
  | .length body => body.value.length
  | .position part whole => firstPosition part.value whole.value

/-- The value of a sum. -/
def Terms.value : Terms → Int
  | .single only => only.value
  | .add left right => left.value + right.value
  | .sub left right => left.value - right.value

/-- The value of a formula. -/
def Formula.value : Formula → Value
  | .chars body => .chars body.value
  | .choice left right met unmet =>
    .number (if right.value < left.value then met.value else unmet.value)

/-! ## Lexemes -/

/-- The lexemes of formulas. -/
inductive Lexeme
  /-- A word or a sign of its own. -/
  | mark (text : String)
  /-- A number. -/
  | number (value : Int)
  /-- The string of an operand. -/
  | string (value : List Char)
  deriving DecidableEq

/-- The words and signs of formulas. -/
def marks : List String :=
  ["(", ")", ",", ">", "+", "-", "CASE", "WHEN", "THEN", "ELSE", "END", "IN", "POSITION",
    "SUBSTRING", "LENGTH", "REVERSE"]

/-- The number that digits spell. -/
def natural? (digits : List Char) : Option Nat :=
  if digits ≠ [] ∧ digits.all Text.isPlainDigit then some (Nat.ofDigitChars 10 digits 0) else none

/-- The number that a run spells, with a minus or without. -/
def number? : List Char → Option Int
  | '-' :: digits => (natural? digits).map fun value => -value
  | digits => (natural? digits).map fun value => value

/-- The lexeme of a run, with the strings for which operands stand. -/
def Lexeme.ofRun (operand : List Char → List Char) (run : List Char) : Lexeme :=
  if String.ofList run ∈ marks then .mark (String.ofList run)
  else (number? run).elim (.string (operand run)) .number

/-- The characters at which a text is cut. -/
def separators : List Char := [' ', '(', ')', ',']

/-- Cuts a text behind the start of a run. -/
def runs (dialect : Dialect) : Surface.Place → List Char → List Char → List (List Char)
  | _, run, [] => [run]
  | place, run, c :: rest =>
    if place = .outside ∧ c ∈ separators then run :: [c] :: runs dialect .outside [] rest
    else runs dialect (place.next dialect c) (run ++ [c]) rest

/-- The lexemes of a text. -/
def lexemes (dialect : Dialect) (operand : List Char → List Char) (text : List Char) :
    List Lexeme :=
  ((runs dialect .outside [] text).filter fun run => run ≠ [] ∧ run ≠ [' ']).map (.ofRun operand)

/-! ## Reading -/

/-- Reads a mark. -/
def expect (mark : String) : List Lexeme → Option (List Lexeme)
  | .mark found :: rest => if found = mark then some rest else none
  | _ => none

/-- Reads a string. -/
def readChars : List Lexeme → Option (Chars × List Lexeme)
  | .string value :: rest => some (.string value, rest)
  | .mark "REVERSE" :: .mark "(" :: rest => do
    let (body, rest) ← readChars rest
    return (.reverse body, ← expect ")" rest)
  | .mark "SUBSTRING" :: .mark "(" :: rest => do
    let (body, rest) ← readChars rest
    match rest with
    | .mark "," :: .number start :: .mark "," :: .number count :: rest =>
      return (.substring body start (some count), ← expect ")" rest)
    | .mark "," :: .number start :: rest => return (.substring body start none, ← expect ")" rest)
    | _ => none
  | _ => none

/-- Reads a summand. -/
def readTerm : List Lexeme → Option (Term × List Lexeme)
  | .number value :: rest => some (.number value, rest)
  | .mark "LENGTH" :: .mark "(" :: rest => do
    let (body, rest) ← readChars rest
    return (.length body, ← expect ")" rest)
  | .mark "POSITION" :: .mark "(" :: rest => do
    let (part, rest) ← readChars rest
    let (whole, rest) ← readChars (← expect "IN" rest)
    return (.position part whole, ← expect ")" rest)
  | _ => none

/-- Reads the summands behind a sum, with a bound on their number. -/
def readMore : Nat → Terms → List Lexeme → Option (Terms × List Lexeme)
  | fuel + 1, sum, .mark "+" :: rest => do
    let (right, rest) ← readTerm rest
    readMore fuel (.add sum right) rest
  | fuel + 1, sum, .mark "-" :: rest => do
    let (right, rest) ← readTerm rest
    readMore fuel (.sub sum right) rest
  | _, sum, rest => some (sum, rest)

/-- Reads a sum, which has no more summands than lexemes. -/
def readSum (lexemes : List Lexeme) : Option (Terms × List Lexeme) := do
  let (first, rest) ← readTerm lexemes
  readMore lexemes.length (.single first) rest

/-- The formula that lexemes are read as. -/
def readFormula : List Lexeme → Option Formula
  | .mark "CASE" :: .mark "WHEN" :: rest => do
    let (left, rest) ← readSum rest
    let (right, rest) ← readSum (← expect ">" rest)
    let (met, rest) ← readSum (← expect "THEN" rest)
    let (unmet, rest) ← readSum (← expect "ELSE" rest)
    if rest = [.mark "END"] then some (.choice left right met unmet) else none
  | lexemes => do
    let (body, rest) ← readChars lexemes
    if rest = [] then some (.chars body) else none

/-- The formula that a text is read as. -/
def read? (dialect : Dialect) (operand : List Char → List Char) (text : List Char) :
    Option Formula :=
  readFormula (lexemes dialect operand text)

-- A difference is the left operand of the next one, and a comma in quotes divides nothing.
example : read? .postgresql id
    "CASE WHEN 1 - 2 - 3 > -1 THEN POSITION('a, b' IN x) ELSE 0 END".toList =
    some (.choice (.sub (.sub (.single (.number 1)) (.number 2)) (.number 3))
      (.single (.number (-1))) (.single (.position (.string "'a, b'".toList) (.string ['x'])))
      (.single (.number 0))) := by
  decide +kernel

/-! ## Lexemes of a text with slots -/

/-- Whether a text is crossed without a separator outside of its quoted regions, which are all
closed behind it. -/
def isRun (dialect : Dialect) : Surface.Place → List Char → Bool
  | place, [] => place = .outside
  | place, c :: rest =>
    ¬(place = .outside ∧ c ∈ separators) && isRun dialect (place.next dialect c) rest

/-- A text is one run, with a certain lexeme. -/
structure Lexes (dialect : Dialect) (operand : List Char → List Char) (lexeme : Lexeme)
    (text : List Char) : Prop where
  /-- The text is not empty. -/
  given : text ≠ []
  /-- It is not cut. -/
  run : isRun dialect .outside text
  /-- It is the lexeme. -/
  ofRun : Lexeme.ofRun operand text = lexeme

variable {dialect : Dialect} {operand : List Char → List Char}

/-- A run is taken as a whole. -/
theorem runs_append {place : Surface.Place} (isOne : isRun dialect place text)
    (run rest : List Char) :
    runs dialect place run (text ++ rest) = runs dialect .outside (run ++ text) rest := by
  induction text generalizing place run with
  | nil =>
    obtain rfl : place = .outside := by simpa [isRun] using isOne
    simp
  | cons c more ih =>
    simp only [isRun, Bool.and_eq_true, decide_eq_true_eq] at isOne
    rw [List.cons_append, runs, if_neg isOne.1, ih isOne.2]
    simp

/-- A run before a separator is one lexeme. -/
theorem lexemes_slot {rest : List Char} {lexeme : Lexeme}
    (lexes : Lexes dialect operand lexeme text) (ends : rest.head?.any separators.contains) :
    lexemes dialect operand (text ++ rest) = lexeme :: lexemes dialect operand rest := by
  have noBlank : text ≠ [' '] := by
    rintro rfl
    exact absurd lexes.run (by simp [isRun, separators])
  cases rest with
  | nil => simp at ends
  | cons c more =>
    have separates : c ∈ separators := by simpa using ends
    rw [lexemes, runs_append lexes.run]
    simp [lexemes, runs, separates, lexes.given, noBlank, lexes.ofRun]

/-- Digits outside of quoted regions are crossed without a separator. -/
theorem isRun_digits (digits : ∀ c ∈ text, Text.isPlainDigit c) : isRun dialect .outside text := by
  induction text with
  | nil => rfl
  | cons c rest ih =>
    have noSeparator : c ∉ separators := by
      intro separates
      simp only [separators, List.mem_cons, List.not_mem_nil, or_false] at separates
      rcases separates with rfl | rfl | rfl | rfl <;> exact absurd (digits _ (.head _)) (by decide)
    have noQuote : c ∉ Surface.quotes := by
      intro quote
      simp only [Surface.quotes, List.mem_cons, List.not_mem_nil, or_false] at quote
      rcases quote with rfl | rfl | rfl <;> exact absurd (digits _ (.head _)) (by decide)
    simp [isRun, noSeparator, Surface.Place.next, noQuote,
      ih fun other member => digits other (.tail _ member)]

/-- The digits of a number are its lexeme. -/
theorem lexes_number (value : Nat) :
    Lexes dialect operand (.number value) (Nat.toDigits 10 value) := by
  have digits : ∀ c ∈ Nat.toDigits 10 value, Text.isPlainDigit c :=
    fun c => Integer.isPlainDigit_of_mem_toDigits
  have given : Nat.toDigits 10 value ≠ [] := Nat.toDigits_ne_nil
  refine ⟨given, isRun_digits digits, ?_⟩
  -- No mark starts with a digit, and no minus does.
  have noMark : String.ofList (Nat.toDigits 10 value) ∉ marks := by
    have other : ∀ mark ∈ marks, mark.toList.all Text.isPlainDigit = false := by decide +kernel
    intro isMark
    have none := other _ isMark
    rw [String.toList_ofList, List.all_eq_true.mpr digits] at none
    cases none
  have read : natural? (Nat.toDigits 10 value) = some value := by
    rw [natural?, if_pos ⟨given, List.all_eq_true.mpr digits⟩, Nat.ofDigitChars_ten_toDigits]
  rw [Lexeme.ofRun, if_neg noMark, number?]
  · rw [read]
    rfl
  · intro behind starts
    exact absurd (digits '-' (by simp [starts])) (by decide)

/-! ## Occurrences -/

/-- A string occurs in another behind so many characters. -/
def Occurs (part whole : List Char) (index : Nat) : Prop :=
  ∃ before after, whole = before ++ part ++ after ∧ before.length = index

/-- The greatest or the least of all places, or -1 if there is none. -/
def Found (extremal : Set Nat → Nat → Prop) (places : Set Nat) (answer : Int) : Prop :=
  (∃ index, extremal places index ∧ answer = index) ∨ (places = ∅ ∧ answer = -1)

section

variable {part whole : List Char} {index offset : Nat}

/-- A string occurs where the rest of the other starts with it. -/
theorem occurs_iff :
    Occurs part whole index ↔ index ≤ whole.length ∧ part <+: whole.drop index := by
  constructor
  · rintro ⟨before, after, rfl, rfl⟩
    simp
  · rintro ⟨within, after, starts⟩
    refine ⟨whole.take index, after, ?_, by simpa using within⟩
    rw [List.append_assoc, starts, List.take_append_drop]

/-- What occurs behind an offset. -/
theorem occurs_drop (within : offset ≤ whole.length) :
    Occurs part (whole.drop offset) index ↔ Occurs part whole (offset + index) := by
  simp only [occurs_iff, List.length_drop, List.drop_drop]
  refine and_congr_left fun _ => ?_
  omega

/-- What occurs in a string occurs backwards in the reversed string, as far from its end as before
from its start. -/
theorem occurs_reverse :
    Occurs part.reverse whole.reverse index ↔
      ∃ other, Occurs part whole other ∧ other + part.length + index = whole.length := by
  constructor
  · rintro ⟨before, after, same, rfl⟩
    obtain rfl : whole = after.reverse ++ part ++ before.reverse := by
      rw [← whole.reverse_reverse, same]
      simp
    exact ⟨after.length, ⟨_, _, rfl, by simp⟩, by simp [Nat.add_assoc]⟩
  · rintro ⟨other, ⟨before, after, rfl, rfl⟩, same⟩
    refine ⟨after.reverse, before.reverse, by simp, ?_⟩
    simp only [List.length_append, List.length_reverse] at same ⊢
    omega

end

/-- The search finds the least place, counted from one, or tells by a zero that there is none. -/
theorem firstPosition_spec (part whole : List Char) :
    (firstPosition part whole = 0 ∧ ∀ index, ¬Occurs part whole index) ∨
      ∃ index, IsLeast { index | Occurs part whole index } index ∧
      firstPosition part whole = index + 1 := by
  unfold firstPosition
  cases searched : whole.tails.findIdx? part.isPrefixOf with
  | none =>
    refine .inl ⟨rfl, fun index occurs => ?_⟩
    have starts := (occurs_iff.mp occurs).2
    have none :=
      List.findIdx?_eq_none_iff.mp searched _ ((List.mem_tails _ _).mpr (whole.drop_suffix index))
    rw [List.isPrefixOf_iff_prefix.mpr starts] at none
    cases none
  | some index =>
    obtain ⟨within, starts, earlier⟩ := List.findIdx?_eq_some_iff_getElem.mp searched
    rw [List.length_tails] at within
    rw [List.getElem_tails, List.isPrefixOf_iff_prefix] at starts
    refine .inr ⟨index, ⟨occurs_iff.mpr ⟨by omega, starts⟩, fun other occurs => ?_⟩, rfl⟩
    by_contra before
    have absent := earlier other (by omega)
    rw [List.getElem_tails, List.isPrefixOf_iff_prefix] at absent
    exact absent (occurs_iff.mp occurs).2

/-- **The first occurrence from an offset on**, found behind the offset. -/
theorem found_indexOf (part whole : List Char) {offset : Nat} (within : offset ≤ whole.length) :
    let first : Int := firstPosition part (whole.drop offset)
    Found IsLeast { index | offset ≤ index ∧ Occurs part whole index } (if 0 < first
      then first + offset - 1 else -1) := by
  intro first
  rcases firstPosition_spec part (whole.drop offset) with
    ⟨zero, nowhere⟩ | ⟨index, ⟨occurs, least⟩, same⟩
  · refine .inr ⟨Set.eq_empty_of_forall_notMem ?_, by simp [first, zero]⟩
    rintro other ⟨behind, occurs⟩
    refine nowhere (other - offset) ((occurs_drop within).mpr ?_)
    rwa [Nat.add_sub_cancel' behind]
  · refine .inl ⟨offset + index, ⟨⟨by omega, (occurs_drop within).mp occurs⟩, ?_⟩, ?_⟩
    · rintro other ⟨behind, otherOccurs⟩
      have := least ((occurs_drop within).mpr (by rwa [Nat.add_sub_cancel' behind]))
      omega
    · rw [if_pos (by omega)]
      omega

/-- **The last occurrence**, found as the first one of the reversed string in the other one
reversed. -/
theorem found_lastIndexOf (part whole : List Char) :
    let first : Int := firstPosition part.reverse whole.reverse
    Found IsGreatest { index | Occurs part whole index }
      (if 0 < first then whole.length - first - part.length + 1 else -1) := by
  intro first
  rcases firstPosition_spec part.reverse whole.reverse with
    ⟨zero, nowhere⟩ | ⟨index, ⟨occurs, least⟩, same⟩
  · refine .inr ⟨Set.eq_empty_of_forall_notMem ?_, by simp [first, zero]⟩
    rintro other ⟨before, after, rfl, rfl⟩
    refine nowhere after.length (occurs_reverse.mpr ⟨before.length, ⟨before, after, rfl, rfl⟩, ?_⟩)
    simp [Nat.add_assoc]
  · obtain ⟨last, lastOccurs, lengths⟩ := occurs_reverse.mp occurs
    refine .inl ⟨last, ⟨lastOccurs, ?_⟩, ?_⟩
    · rintro other ⟨before, after, rfl, rfl⟩
      have backwards : Occurs part.reverse (before ++ part ++ after).reverse after.length :=
        occurs_reverse.mpr ⟨before.length, ⟨before, after, rfl, rfl⟩, by simp [Nat.add_assoc]⟩
      have := least backwards
      simp only [List.length_append] at lengths
      omega
    · rw [if_pos (by omega)]
      omega

end CelWhere.Position
