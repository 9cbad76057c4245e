import CelWhere.Cel.Lexer
import CelWhere.Number.Integer
import Mathlib.Data.Nat.Log

/-! # Numerals

The digits that are written for a number are the shortest decimal text of it, so larger numbers have
no fewer digits. An integer literal without sign is read as the value of its digits, which are those
of base sixteen if it is marked so.

* `toList_toText_ofNat` — how a natural number is written;
* `natural?`, `read_marked` — the value of a literal, and that it is read so. -/

namespace CelWhere.Integer

variable {value base : Nat} {text digits : List Char}

/-! ## Writing -/

/-- A digit is written by its code. -/
theorem digitChar_eq {digit : Nat} (small : digit < 10) :
    Char.ofNat ('0'.toNat + digit) = digit.digitChar := by
  have each : ∀ digit < 10, Char.ofNat ('0'.toNat + digit) = digit.digitChar := by decide
  exact each digit small

/-- Taking the last digit off makes the number of binary digits smaller. -/
theorem log2_div_ten (large : 10 ≤ value) : (value / 10).log2 < value.log2 := by
  rw [Nat.log2_eq_log_two, Nat.log2_eq_log_two]
  have positive : 0 < Nat.log 2 value := Nat.log_pos (by decide) (by omega)
  calc Nat.log 2 (value / 10)
      ≤ Nat.log 2 (value / 2) := Nat.log_mono_right (by omega)
    _ = Nat.log 2 value - 1 := Nat.log_div_base 2 value
    _ < Nat.log 2 value := by omega

/-- With fuel for all of them, the digits of a number are put before the tail. -/
theorem digitsOf_eq {fuel : Nat} (enough : value.log2 < fuel) (tail : List Char) :
    digitsOf fuel value tail = Nat.toDigits 10 value ++ tail := by
  induction fuel generalizing value tail with
  | zero => omega
  | succ fuel ih =>
    have last := digitChar_eq (Nat.mod_lt value (by decide : 10 > 0))
    rw [digitsOf]
    by_cases small : value < 10
    · rw [if_pos small, last, Nat.toDigits_of_lt_base small, Nat.mod_eq_of_lt small,
        List.singleton_append]
    · have fewer := log2_div_ten (Nat.le_of_not_lt small)
      rw [if_neg small, last, ih (by omega),
        Nat.toDigits_of_base_le (by decide) (Nat.le_of_not_lt small), List.append_assoc,
        List.singleton_append]

/-- The digits of a number are its decimal text. -/
theorem natDigits_eq (value : Nat) : natDigits value = Nat.toDigits 10 value := by
  rw [natDigits, digitsOf_eq (Nat.lt_succ_self _), List.append_nil]

/-- The text of a natural number has its digits. -/
theorem toList_toText_ofNat (value : Nat) :
    (toText (value : Int)).toList = Nat.toDigits 10 value := by
  have notNegative : ¬(value : Int) < 0 := by omega
  rw [toText, if_neg notNegative, Int.natAbs_natCast, natDigits_eq, String.toList_ofList]

/-- These digits are plain. -/
theorem isPlainDigit_of_mem_toDigits {c : Char} (member : c ∈ Nat.toDigits 10 value) :
    Text.isPlainDigit c := by
  have isDigit := Nat.isDigit_of_mem_toDigits (by decide) (by decide) member
  simpa [Text.isPlainDigit, Char.isDigit, Char.le_def] using isDigit

/-- A larger number has no fewer digits. -/
theorem length_toText_mono {small large : Nat} (le : small ≤ large) :
    (toText (small : Int)).length ≤ (toText (large : Int)).length := by
  rw [← String.length_toList, ← String.length_toList, toList_toText_ofNat, toList_toText_ofNat]
  have positive : 0 < (Nat.toDigits 10 large).length := Nat.length_toDigits_pos
  -- The digits of the larger number bound it by a power of ten, and so the smaller one.
  have bounded := (Nat.length_toDigits_le_iff (by decide) positive).mp
    (Nat.le_refl (Nat.toDigits 10 large).length)
  exact (Nat.length_toDigits_le_iff (by decide) positive).mpr (Nat.lt_of_le_of_lt le bounded)

/-! ## Reading -/

/-- A digit of a base that is one of ASCII. -/
def isDigit (base : Nat) (c : Char) : Bool :=
  Lexer.isHexDigit c && (Text.radixDigit? base c).isSome

/-- The value of one or more digits of a base. -/
def numeral? (base : Nat) (digits : List Char) : Option Nat :=
  if digits ≠ [] ∧ digits.all (isDigit base)
    then some (ofDigits base (digits.filterMap (Text.radixDigit? base)))
  else none

/-- The value of an integer without sign, whose base is ten unless it is marked as sixteen. -/
def natural? : List Char → Option Nat
  | '0' :: 'x' :: digits => numeral? 16 digits
  | digits => numeral? 10 digits

/-- The characters of integers without sign are read as they stand, and are neither blanks nor
signs. -/
theorem plainChar_eq_self {c : Char} (plain : Lexer.isHexDigit c ∨ c = 'x') :
    Text.plainChar c = c ∧ Text.isBlank c = false ∧ c ≠ '+' ∧ c ≠ '-' := by
  have each : ∀ code < 128, Lexer.isHexDigit (Char.ofNat code) ∨ Char.ofNat code = 'x' →
      Text.plainChar (Char.ofNat code) = Char.ofNat code ∧ Text.isBlank (Char.ofNat code) = false ∧
        Char.ofNat code ≠ '+' ∧ Char.ofNat code ≠ '-' := by
    decide +kernel
  have small : c.val.toNat < 128 := by
    rcases plain with digit | rfl
    · simp only [Lexer.isHexDigit, Text.isPlainDigit, Bool.or_eq_true, Bool.and_eq_true,
        decide_eq_true_eq, Char.le_def, UInt32.le_iff_toNat_le, Char.reduceVal,
        UInt32.reduceToNat] at digit
      omega
    · decide
  simpa using each c.toNat small (by simpa using plain)

/-- A text of such characters has nothing to be put aside before its base. -/
theorem splitSign_eq (each : ∀ c ∈ text, Lexer.isHexDigit c ∨ c = 'x') :
    splitSign ((text.map Text.plainChar).dropWhile Text.isBlank) = (false, text) := by
  have asItStands : text.map Text.plainChar = text :=
    (List.map_congr_left fun c member => (plainChar_eq_self (each c member)).1).trans
      (List.map_id' text)
  rw [asItStands]
  cases text with
  | nil => rfl
  | cons head rest =>
    obtain ⟨-, notBlank, notPlus, notMinus⟩ := plainChar_eq_self (each head (.head _))
    rw [List.dropWhile_cons_of_neg (by simp [notBlank]), splitSign]
    · simp [notPlus]
    · simp [notMinus]

/-- Digits up to the end of a text are read. -/
theorem readDigits_eq (each : ∀ c ∈ digits, isDigit base c) {afterDigit : Bool}
    (ready : afterDigit = true ∨ digits ≠ []) :
    readDigits base afterDigit digits = some (digits.filterMap (Text.radixDigit? base), []) := by
  induction digits generalizing afterDigit with
  | nil => simp [readDigits, ready.resolve_right (by simp)]
  | cons head rest ih =>
    have restRead := ih (fun c member => each c (.tail _ member)) (.inl rfl)
    obtain ⟨value, found⟩ :=
      Option.isSome_iff_exists.mp (Bool.and_eq_true_iff.mp (each head (.head _))).2
    simp [readDigits, found, restRead]

/-- Decimal digits have no mark of a base. -/
theorem splitBase_marked (each : ∀ c ∈ digits, isDigit 10 c) :
    ∃ onlyZero, splitBase .marked digits = (10, digits, onlyZero) := by
  have noMark : ∀ mark ∈ ['x', 'X', 'o', 'O', 'b', 'B'], ∀ rest, digits = '0' :: mark :: rest →
      False := by
    rintro mark isMark rest rfl
    have digit := each mark (by simp)
    simp only [List.mem_cons, List.not_mem_nil, or_false] at isMark
    rcases isMark with rfl | rfl | rfl | rfl | rfl | rfl <;> exact absurd digit (by decide)
  unfold splitBase
  split
  case h_1 | h_2 | h_3 | h_4 => contradiction
  case h_11 => exact ⟨_, rfl⟩
  all_goals exact absurd rfl (noMark _ (by simp) _)

/-- A text with digits of a base behind its mark is read as their value. -/
theorem read_eq_of_numeral? {onlyZero : Bool} {result : Int}
    (each : ∀ c ∈ text, Lexer.isHexDigit c ∨ c = 'x')
    (split : splitBase .marked text = (base, digits, onlyZero))
    (numeral : numeral? base digits = some value) (succeeds : read .marked text = .ok result) :
    result = value := by
  simp only [numeral?, Option.ite_none_right_eq_some, Option.some.injEq, List.all_eq_true]
    at numeral
  obtain ⟨⟨given, eachDigit⟩, rfl⟩ := numeral
  simp only [read, splitSign_eq each, split, readDigits_eq eachDigit (.inr given)] at succeeds
  split at succeeds
  · simp at succeeds
  · split at succeeds
    · simp at succeeds
    · simpa using succeeds.symm

/-- The characters of a numeral are digits. -/
theorem isDigit_of_numeral? (found : numeral? base digits = some value) :
    ∀ c ∈ digits, isDigit base c := by
  simp only [numeral?, Option.ite_none_right_eq_some, List.all_eq_true] at found
  exact found.1.2

/-- The characters of an integer without sign are digits, except for a mark. -/
theorem isHexDigit_of_natural? (found : natural? text = some value) :
    ∀ c ∈ text, Lexer.isHexDigit c ∨ c = 'x' := by
  have ofDigit : ∀ {base digits}, numeral? base digits = some value →
      ∀ c ∈ digits, Lexer.isHexDigit c :=
    fun numeral c member => (Bool.and_eq_true_iff.mp (isDigit_of_numeral? numeral c member)).1
  unfold natural? at found
  split at found
  next digits =>
    simp only [List.mem_cons]
    rintro c (rfl | rfl | member)
    · decide
    · decide
    · exact .inl (ofDigit found c member)
  next => exact fun c member => .inl (ofDigit found c member)

/-- **Integers without sign are read as their value.** -/
theorem read_marked {result : Int} (found : natural? text = some value)
    (succeeds : read .marked text = .ok result) :
    result = value := by
  have each := isHexDigit_of_natural? found
  unfold natural? at found
  split at found
  next digits =>
    have unmarked : afterMark digits = digits := by
      rw [afterMark]
      rintro rest rfl
      exact absurd (isDigit_of_numeral? found '_' (.head _)) (by decide)
    have split : splitBase .marked ('0' :: 'x' :: digits) = (16, digits, false) :=
      by rw [splitBase, unmarked]
    exact read_eq_of_numeral? each split found succeeds
  next =>
    obtain ⟨onlyZero, split⟩ := splitBase_marked (isDigit_of_numeral? found)
    exact read_eq_of_numeral? each split found succeeds

end CelWhere.Integer
