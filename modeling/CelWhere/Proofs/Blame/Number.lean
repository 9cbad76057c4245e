import CelWhere.Number.Binary64
import CelWhere.Proofs.Numeral
import CelWhere.Sql.Duration
import Mathlib.Data.List.Basic

/-! # The sizes of numbers

How large a number can be is bounded by the length of the text that it is read from. So a number
that is too long to be written, or too large for a double, comes from a long text.

* `Integer.lt_tenTo_of_read`, `Integer.long_of_read` — integers;
* `Integer.read_digits` — when a run of digits is read, and `Integer.read_decimal` for decimals
  without leading zeros;
* `Duration.read_lt`, `Duration.read_error` — durations;
* `Binary64.large_of_ofInt?` — integers that are no doubles. -/

namespace CelWhere

variable {text run : List Char} {value : Int}

/-! ## Powers -/

theorem tenTo_le_tenTo {small large : Nat} (le : small ≤ large) : tenTo small ≤ tenTo large :=
  Nat.pow_le_pow_right (by decide) le

theorem twoTo_le_twoTo {small large : Nat} (le : small ≤ large) : twoTo small ≤ twoTo large :=
  Nat.pow_le_pow_right (by decide) le

theorem tenTo_pos (exponent : Nat) : 0 < tenTo exponent :=
  Nat.pow_pos (by decide)

/-- Three digits are less than ten bits. -/
theorem tenTo_le_twoTo (count : Nat) : tenTo (3 * count) ≤ twoTo (10 * count) := by
  have three : tenTo (3 * count) = Nat.pow 1000 count := Nat.pow_mul 10 3 count
  have ten : twoTo (10 * count) = Nat.pow 1024 count := Nat.pow_mul 2 10 count
  rw [three, ten]
  exact Nat.pow_le_pow_left (by decide) count

namespace Integer

variable {base : Nat} {digits : List Nat} {radix : Radix} {c : Char}

/-! ## Reading digits -/

/-- Digits of a base make less than its power. -/
theorem foldl_digits_lt (each : ∀ digit ∈ digits, digit < base) (start : Nat) :
    digits.foldl (fun value digit => value * base + digit) start <
      (start + 1) * Nat.pow base digits.length := by
  induction digits generalizing start with
  | nil => simp
  | cons digit rest ih =>
    have small : digit < base := each digit (.head _)
    have step : start * base + digit + 1 ≤ (start + 1) * base := by
      rw [Nat.add_mul, Nat.one_mul]
      omega
    rw [List.foldl_cons]
    calc rest.foldl (fun value digit => value * base + digit) (start * base + digit)
        < (start * base + digit + 1) * Nat.pow base rest.length :=
          ih (fun other member => each other (.tail _ member)) _
      _ ≤ (start + 1) * base * Nat.pow base rest.length := Nat.mul_le_mul_right _ step
      _ = (start + 1) * Nat.pow base (rest.length + 1) := by
          rw [Nat.mul_assoc, Nat.mul_comm base]
          rfl

/-- The value of digits of a base is less than its power. -/
theorem ofDigits_lt (each : ∀ digit ∈ digits, digit < base) :
    ofDigits base digits < Nat.pow base digits.length := by
  simpa [ofDigits] using foldl_digits_lt each 0

/-- Digits that are read are digits of the base, and no more than the characters of the text. -/
theorem readDigits_bounds {afterDigit : Bool} {after : List Char}
    (found : readDigits base afterDigit text = some (digits, after)) :
    (∀ digit ∈ digits, digit < base) ∧ digits.length ≤ text.length := by
  induction text generalizing afterDigit digits with
  | nil =>
    rw [readDigits] at found
    split at found
    · obtain ⟨rfl, rfl⟩ : [] = digits ∧ [] = after := by simpa using found
      simp
    · simp at found
  | cons head rest ih =>
    rw [readDigits] at found
    cases value : Text.radixDigit? base head with
    | some digit =>
      rw [value] at found
      obtain ⟨⟨more, behind⟩, read, same⟩ := Option.map_eq_some_iff.mp found
      obtain ⟨rfl, rfl⟩ : digit :: more = digits ∧ behind = after := by simpa using same
      obtain ⟨each, length⟩ := ih read
      have small : digit < base := by
        have filtered := (Option.filter_eq_some_iff.mp value).2
        simpa using filtered
      constructor
      · intro other member
        rcases List.mem_cons.mp member with rfl | member
        · exact small
        · exact each other member
      · simpa using length
    | none =>
      simp only [value] at found
      by_cases ready : afterDigit = true
      · by_cases underscore : head = '_'
        · rw [if_pos underscore, if_pos ready] at found
          obtain ⟨each, length⟩ := ih found
          exact ⟨each, Nat.le_succ_of_le length⟩
        · rw [if_neg underscore, if_pos ready] at found
          obtain ⟨rfl, -⟩ : [] = digits ∧ _ := by simpa using found
          simp
      · simp [ready] at found

/-! ## The sizes of integers -/

/-- A text is not longer without its sign. -/
theorem length_splitSign (text : List Char) : (splitSign text).2.length ≤ text.length := by
  unfold splitSign
  split
  · simp
  · simp
  · exact Nat.le_refl _

/-- A text is not longer behind the mark of its base. -/
theorem length_afterMark (text : List Char) : (afterMark text).length ≤ text.length := by
  unfold afterMark
  split
  · simp
  · exact Nat.le_refl _

/-- The base is at most sixteen, and the text behind its mark is not longer. -/
theorem splitBase_bounds (radix : Radix) (text : List Char) :
    (splitBase radix text).1 ≤ 16 ∧ (splitBase radix text).2.1.length ≤ text.length := by
  have marked (rest : List Char) (first second : Char) :
      (afterMark rest).length ≤ (first :: second :: rest).length := by
    have shorter := length_afterMark rest
    simp only [List.length_cons]
    omega
  unfold splitBase
  split
  case h_1 | h_4 | h_11 => exact ⟨by simp, Nat.le_refl _⟩
  all_goals exact ⟨by simp, marked _ _ _⟩

/-- The digits of an integer that is read, and their base: their value is that of the integer, there
are no more of them than characters, and of decimal ones no more than the limit. -/
theorem read_eq_ok (found : read radix text = .ok value) :
    ∃ base digits, base ≤ 16 ∧ (radix = .decimal → base = 10) ∧ (∀ digit ∈ digits, digit < base) ∧
      digits.length ≤ text.length ∧ (base = 10 → digits.length ≤ digitLimit) ∧
      value.natAbs = ofDigits base digits := by
  rcases signed : splitSign ((text.map Text.plainChar).dropWhile Text.isBlank) with
    ⟨negative, unsigned⟩
  rcases based : splitBase radix unsigned with ⟨base, body, onlyZero⟩
  have unsignedLength : unsigned.length ≤ text.length := by
    have shorter := length_splitSign ((text.map Text.plainChar).dropWhile Text.isBlank)
    have dropped := (List.dropWhile_suffix Text.isBlank (l := text.map Text.plainChar)).length_le
    rw [signed] at shorter
    rw [List.length_map] at dropped
    exact Nat.le_trans shorter dropped
  obtain ⟨small, bodyLength⟩ := splitBase_bounds radix unsigned
  simp only [based] at small bodyLength
  have isTen : radix = .decimal → base = 10 := by
    rintro rfl
    rw [splitBase] at based
    exact (congrArg Prod.fst based).symm
  cases read : readDigits base false body with
  | none => simp [Integer.read, signed, based, read] at found
  | some result =>
    obtain ⟨digits, after⟩ := result
    obtain ⟨each, length⟩ := readDigits_bounds read
    simp only [Integer.read, signed, based, read] at found
    by_cases long : base = 10 ∧ digitLimit < digits.length
    · simp [long] at found
    · rw [if_neg long] at found
      split at found
      · simp at found
      · refine ⟨base, digits, small, isTen, each, by omega, by omega, ?_⟩
        have same := Except.ok.inj found
        rw [← same]
        split
        · rw [Int.natAbs_neg, Int.natAbs_natCast]
        · rw [Int.natAbs_natCast]

/-- A decimal integer is less than the power of ten of its length and of the most digits that are
read. -/
theorem lt_tenTo_of_read (found : read .decimal text = .ok value) :
    value.natAbs < tenTo text.length ∧ value.natAbs < tenTo digitLimit := by
  obtain ⟨base, digits, -, isTen, each, length, limited, same⟩ := read_eq_ok found
  obtain rfl := isTen rfl
  have less : value.natAbs < tenTo digits.length := by
    rw [same]
    exact ofDigits_lt each
  exact ⟨Nat.lt_of_lt_of_le less (tenTo_le_tenTo length),
    Nat.lt_of_lt_of_le less (tenTo_le_tenTo (limited rfl))⟩

/-- An integer of any base is less than the power of sixteen of its length. -/
theorem lt_twoTo_of_read (found : read radix text = .ok value) :
    value.natAbs < twoTo (4 * text.length) := by
  obtain ⟨base, digits, small, -, each, length, -, same⟩ := read_eq_ok found
  rw [same]
  calc ofDigits base digits
      < Nat.pow base digits.length := ofDigits_lt each
    _ ≤ Nat.pow 16 digits.length := Nat.pow_le_pow_left small _
    _ = twoTo (4 * digits.length) := (Nat.pow_mul 2 4 digits.length).symm
    _ ≤ twoTo (4 * text.length) := twoTo_le_twoTo (Nat.mul_le_mul_left 4 length)

/-- A number has at most so many digits as the power of ten above it tells. -/
theorem length_natDigits_le_iff (value : Nat) {limit : Nat} (positive : 0 < limit) :
    (natDigits value).length ≤ limit ↔ value < tenTo limit := by
  rw [natDigits_eq]
  exact Nat.length_toDigits_le_iff (by decide) positive

/-- Exactly the integers with more digits than the limit are too long to be written. -/
theorem tooLongToWrite_iff (value : Int) :
    tooLongToWrite value ↔ tenTo digitLimit ≤ value.natAbs := by
  rw [tooLongToWrite, decide_eq_true_iff, ← Nat.not_le, length_natDigits_le_iff _ (by decide),
    Nat.not_lt]

/-- One tenth of the integers that are too long to be written. -/
def largeFrom : Nat := tenTo 4299

/-- The integers that are too long to be written are ten times as large. -/
theorem tenTo_digitLimit : tenTo digitLimit = largeFrom * 10 := by
  have limit : digitLimit = 4299 + 1 := rfl
  rw [limit, tenTo_succ, largeFrom]

/-- An integer from which one that is too long to be written can be computed stands in a long
text. -/
theorem long_of_read (found : read radix text = .ok value) (large : largeFrom ≤ value.natAbs) :
    3500 < text.length := by
  by_contra short
  have less := lt_twoTo_of_read found
  have shorter : twoTo (4 * text.length) ≤ twoTo (4 * 3500) := twoTo_le_twoTo (by omega)
  have smaller : twoTo (4 * 3500) ≤ largeFrom := by decide +kernel
  omega

/-! ## Texts that are read -/

/-- Digits of any script are written as digits of ASCII, with the same value. -/
theorem exists_digitValue (digit : Text.isDecimalDigit c) :
    ∃ value < 10, Text.digitValue? c = some value ∧
      Text.plainChar c = Char.ofNat ('0'.toNat + value) := by
  obtain ⟨value, found⟩ := Option.isSome_iff_exists.mp digit
  refine ⟨value, ?_, found, by simp only [Text.plainChar, found]⟩
  obtain ⟨first, inside, rfl⟩ := Option.map_eq_some_iff.mp found
  have range := List.find?_some inside
  simp only [Bool.and_eq_true, decide_eq_true_eq] at range
  omega

/-- Digits of any script are written as digits of base ten. -/
theorem isDigit_plainChar (digit : Text.isDecimalDigit c) : isDigit 10 (Text.plainChar c) := by
  obtain ⟨value, small, -, plain⟩ := exists_digitValue digit
  have each : ∀ value < 10, isDigit 10 (Char.ofNat ('0'.toNat + value)) := by decide
  rw [plain]
  exact each value small

/-- A digit of any script and the digit of ASCII that is written for it have the same value. -/
theorem radixDigit?_plainChar (digit : Text.isDecimalDigit c) :
    Text.radixDigit? 10 (Text.plainChar c) = Text.digitValue? c := by
  obtain ⟨value, small, known, plain⟩ := exists_digitValue digit
  have each : ∀ value < 10, Text.radixDigit? 10 (Char.ofNat ('0'.toNat + value)) = some value :=
    by decide
  rw [known, plain]
  exact each value small

/-- Digits of any script have no sign before them. -/
theorem splitSign_run (each : ∀ c ∈ run, Text.isDecimalDigit c) :
    splitSign ((run.map Text.plainChar).dropWhile Text.isBlank) =
      (false, run.map Text.plainChar) := by
  have isHex : ∀ c ∈ run.map Text.plainChar, Lexer.isHexDigit c ∨ c = 'x' := by
    intro c member
    obtain ⟨source, inside, rfl⟩ := List.mem_map.mp member
    exact .inl (Bool.and_eq_true_iff.mp (isDigit_plainChar (each source inside))).1
  have asItStands : (run.map Text.plainChar).map Text.plainChar = run.map Text.plainChar :=
    (List.map_congr_left fun c member => (plainChar_eq_self (isHex c member)).1).trans
      (List.map_id' _)
  have unsigned := splitSign_eq isHex
  rwa [asItStands] at unsigned

/-- Reading goes on with the digits behind a sign, if there is one. -/
theorem splitSign_digits {minus digits : List Char} (sign : minus = [] ∨ minus = ['-'])
    (each : ∀ c ∈ digits, isDigit 10 c) :
    (splitSign (((minus ++ digits).map Text.plainChar).dropWhile Text.isBlank)).2 = digits := by
  have isHex : ∀ c ∈ digits, Lexer.isHexDigit c ∨ c = 'x' := fun c member =>
    .inl (Bool.and_eq_true_iff.mp (each c member)).1
  rcases sign with rfl | rfl
  · rw [List.nil_append, splitSign_eq isHex]
  · have asItStands : digits.map Text.plainChar = digits :=
      (List.map_congr_left fun c member => (plainChar_eq_self (isHex c member)).1).trans
        (List.map_id' digits)
    have minusStands : Text.plainChar '-' = '-' := by decide
    have notBlank : ¬Text.isBlank '-' = true := by decide
    rw [List.singleton_append, List.map_cons, asItStands, minusStands,
      List.dropWhile_cons_of_neg notBlank]
    rfl

/-- A text whose digits are those of base ten is read unless there are too many of them, or they
must be those of zero. -/
theorem read_of_digits {digits : List Char} {onlyZero : Bool} (given : digits ≠ [])
    (each : ∀ c ∈ digits, isDigit 10 c)
    (unsigned : (splitSign ((text.map Text.plainChar).dropWhile Text.isBlank)).2 = digits)
    (based : splitBase radix digits = (10, digits, onlyZero))
    (zero : onlyZero = true → ofDigits 10 (digits.filterMap (Text.radixDigit? 10)) = 0) :
    digitLimit < digits.length ∧ read radix text = .error (.tooLong digits.length) ∨
      ∃ value, read radix text = .ok value := by
  rcases signed : splitSign ((text.map Text.plainChar).dropWhile Text.isBlank) with ⟨negative, body⟩
  obtain rfl : body = digits := by simpa [signed] using unsigned
  have length : (body.filterMap (Text.radixDigit? 10)).length = body.length :=
    List.filterMap_length_eq_length.mpr fun c member => (Bool.and_eq_true_iff.mp (each c member)).2
  have nonzero : ¬(onlyZero && ofDigits 10 (body.filterMap (Text.radixDigit? 10)) != 0) = true := by
    cases onlyZero with
    | false => simp
    | true => simp [zero rfl]
  simp only [read, signed, based, readDigits_eq each (.inr given), true_and, length]
  by_cases long : digitLimit < body.length
  · left
    exact ⟨long, by rw [if_pos long]⟩
  · right
    rw [if_neg long, if_neg (by simpa using nonzero)]
    exact ⟨_, rfl⟩

/-- A run of digits of any script is read as their value, unless it is too long. -/
theorem read_digits (given : run ≠ []) (each : ∀ c ∈ run, Text.isDecimalDigit c) :
    read .decimal run =
      if digitLimit < run.length then .error (.tooLong run.length)
      else .ok (ofDigits 10 (run.filterMap Text.digitValue?) : Nat) := by
  have eachDigit : ∀ c ∈ run.map Text.plainChar, isDigit 10 c := by
    intro c member
    obtain ⟨source, inside, rfl⟩ := List.mem_map.mp member
    exact isDigit_plainChar (each source inside)
  have values : (run.map Text.plainChar).filterMap (Text.radixDigit? 10) =
      run.filterMap Text.digitValue? := by
    rw [List.filterMap_map]
    exact List.filterMap_congr fun c member => radixDigit?_plainChar (each c member)
  have length : (run.filterMap Text.digitValue?).length = run.length :=
    List.filterMap_length_eq_length.mpr each
  have read : readDigits 10 false (run.map Text.plainChar) =
      some (run.filterMap Text.digitValue?, []) := by
    rw [readDigits_eq eachDigit (.inr (by simpa using given)), values]
  simp [Integer.read, splitSign_run each, splitBase, read, length]

/-- Decimals without leading zeros, perhaps with a minus. -/
def isDecimal (text : List Char) : Bool :=
  let digits := (Lexer.splitMinus text).2
  !digits.isEmpty && digits.all Text.isPlainDigit &&
    (digits.head? != some '0' || digits.length == 1)

/-- Digits that do not start with a zero have no mark of a base. -/
theorem splitBase_other {head : Char} (notZero : head ≠ '0') (rest : List Char) :
    splitBase .marked (head :: rest) = (10, head :: rest, false) := by
  simp [splitBase, notZero]

/-- The digits of ASCII are digits of base ten. -/
theorem isDigit_of_isPlainDigit (digit : Text.isPlainDigit c) : isDigit 10 c := by
  have each : ∀ code < 58, 48 ≤ code → isDigit 10 (Char.ofNat code) := by decide
  simp only [Text.isPlainDigit, Bool.and_eq_true, decide_eq_true_eq, Char.le_def,
    UInt32.le_iff_toNat_le, Char.reduceVal, UInt32.reduceToNat] at digit
  have found := each c.toNat (Nat.lt_succ_of_le digit.2) digit.1
  rwa [Char.ofNat_toNat] at found

/-- Decimals without leading zeros are read, whether bases are marked or not. -/
theorem read_decimal (isTen : radix = .decimal ∨ radix = .marked) (decimal : isDecimal text)
    (short : text.length ≤ digitLimit) : ∃ value, read radix text = .ok value := by
  obtain ⟨minus, digits, sign, rfl, digitsAre⟩ : ∃ minus digits : List Char,
      (minus = [] ∨ minus = ['-']) ∧
      minus ++ digits = text ∧ (Lexer.splitMinus text).2 = digits := by
    unfold Lexer.splitMinus
    split
    · exact ⟨['-'], _, .inr rfl, rfl, rfl⟩
    · exact ⟨[], _, .inl rfl, rfl, rfl⟩
  simp only [isDecimal, digitsAre, Bool.and_eq_true, Bool.not_eq_true', List.isEmpty_eq_false_iff,
    List.all_eq_true, Bool.or_eq_true, bne_iff_ne, beq_iff_eq] at decimal
  obtain ⟨⟨given, each⟩, unpadded⟩ := decimal
  have eachDigit : ∀ c ∈ digits, isDigit 10 c :=
    fun c member => isDigit_of_isPlainDigit (each c member)
  have unsigned := splitSign_digits sign eachDigit
  have fits : digits.length ≤ digitLimit := by
    rw [List.length_append] at short
    omega
  have found : digitLimit < digits.length ∧ read radix (minus ++ digits) =
      .error (.tooLong digits.length) ∨
      ∃ value, read radix (minus ++ digits) = .ok value := by
    rcases isTen with rfl | rfl
    · exact read_of_digits given eachDigit unsigned rfl (by simp)
    · cases digits with
      | nil => exact absurd rfl given
      | cons head rest =>
        by_cases zero : head = '0'
        · -- A zero stands alone.
          subst zero
          obtain rfl : rest = [] := by simpa using unpadded
          exact read_of_digits given eachDigit unsigned rfl fun _ => rfl
        · exact read_of_digits given eachDigit unsigned (splitBase_other zero rest) (by simp)
  rcases found with ⟨long, -⟩ | found
  · omega
  · exact found

end Integer

/-! ## Durations -/

namespace Duration

open Integer (digitLimit)

/-- The run of digits before a mark: it has digits only, at least one, and stands in the text. -/
theorem countOf?_run {unit : TimeUnit} {found : List Char}
    (digits : ∀ c ∈ run, Text.isDecimalDigit c) (counted : countOf? unit run text = some found) :
    found ≠ [] ∧ (∀ c ∈ found, Text.isDecimalDigit c) ∧ found <:+: run.reverse ++ text := by
  induction text generalizing run with
  | nil => simp [countOf?] at counted
  | cons head rest ih =>
    rw [countOf?] at counted
    split at counted
    next digit =>
      have more : ∀ c ∈ head :: run, Text.isDecimalDigit c := by
        intro c member
        rcases List.mem_cons.mp member with rfl | member
        · exact digit
        · exact digits c member
      obtain ⟨given, each, inside⟩ := ih more counted
      refine ⟨given, each, ?_⟩
      simpa using inside
    next =>
      split at counted
      next marked =>
        obtain rfl : run.reverse = found := by simpa using counted
        simp only [Bool.and_eq_true, Bool.not_eq_true', List.isEmpty_eq_false_iff] at marked
        refine ⟨by simpa using marked.1, fun c member => digits c (List.mem_reverse.mp member), ?_⟩
        exact List.infix_append' [] run.reverse (head :: rest)
      next =>
        obtain ⟨given, each, inside⟩ := ih (by simp) counted
        refine ⟨given, each, inside.trans ?_⟩
        rw [List.reverse_nil, List.nil_append]
        exact ⟨run.reverse ++ [head], [], by simp⟩

/-- A text in which a count cannot be read has a run of too many digits. -/
theorem totalOf_error {units : List TimeUnit} {fault : Fault}
    (failed : totalOf text units = .error fault) :
    ∃ run : List Char, run <:+: text ∧ digitLimit < run.length ∧
      fault = .unreadableInteger .decimal (String.ofList run) (.tooLong run.length) := by
  induction units with
  | nil => simp [totalOf] at failed
  | cons unit rest ih =>
    rw [totalOf] at failed
    cases counted : countOf? unit [] text with
    | none =>
      rw [counted] at failed
      exact ih failed
    | some run =>
      obtain ⟨given, each, inside⟩ := countOf?_run (by simp) counted
      rw [counted] at failed
      have read := Integer.read_digits given each
      split at read
      next long =>
        simp only [read, Except.error.injEq] at failed
        exact ⟨run, inside, long, failed.symm⟩
      · simp only [read] at failed
        cases total : totalOf text rest with
        | error other =>
          rw [total] at failed ih
          obtain rfl : other = fault := by simpa [Except.map] using failed
          exact ih rfl
        | ok total => simp [total, Except.map] at failed

/-- The nanoseconds of a text are bounded by its length. -/
theorem totalOf_le {units : List TimeUnit} {total : Nat} (found : totalOf text units = .ok total) :
    total ≤ (units.map TimeUnit.nanoseconds).foldr (· + ·) 0 * tenTo text.length := by
  induction units generalizing total with
  | nil =>
    obtain rfl : 0 = total := by simpa [totalOf] using found
    simp
  | cons unit rest ih =>
    rw [List.map_cons, List.foldr_cons, Nat.add_mul]
    rw [totalOf] at found
    cases counted : countOf? unit [] text with
    | none =>
      rw [counted] at found
      exact Nat.le_trans (ih found) (Nat.le_add_left _ _)
    | some run =>
      obtain ⟨-, -, inside⟩ := countOf?_run (by simp) counted
      rw [counted] at found
      cases read : Integer.read .decimal run with
      | error failure => simp [read] at found
      | ok count =>
        simp only [read] at found
        cases later : totalOf text rest with
        | error fault => simp [later, Except.map] at found
        | ok remaining =>
          obtain rfl : count.toNat * unit.nanoseconds + remaining = total := by
            simpa [later, Except.map] using found
          have counts : count.toNat ≤ tenTo text.length := by
            have less := (Integer.lt_tenTo_of_read read).1
            have shorter := tenTo_le_tenTo inside.length_le
            rw [List.reverse_nil, List.nil_append] at shorter
            omega
          have product := Nat.mul_le_mul_right unit.nanoseconds counts
          rw [Nat.mul_comm (tenTo text.length)] at product
          exact Nat.add_le_add product (ih later)

/-- A duration is bounded by the length of its text. -/
theorem read_lt {text : String} {duration : Duration} (found : read text = .ok duration) :
    duration.value < tenTo (text.length + 13) := by
  unfold read at found
  cases counted : totalOf text.toList TimeUnit.all with
  | error fault => simp [counted] at found
  | ok total =>
    simp only [counted] at found
    split at found
    · simp at found
    · obtain rfl := Except.ok.inj found
      have bounded := totalOf_le counted
      rw [String.length_toList] at bounded
      calc total / (coarsest total).nanoseconds
          ≤ total := Nat.div_le_self _ _
        _ ≤ (TimeUnit.all.map TimeUnit.nanoseconds).foldr (· + ·) 0 * tenTo text.length := bounded
        _ < tenTo 13 * tenTo text.length := Nat.mul_lt_mul_of_pos_right (by decide) (tenTo_pos _)
        _ = tenTo (text.length + 13) := by
            rw [Nat.mul_comm]
            exact (Nat.pow_add 10 text.length 13).symm

/-- A text that is no duration says nothing, or has a run of too many digits. -/
theorem read_error {text : String} {fault : Fault} (failed : read text = .error fault) :
    fault = .invalidDuration text ∨ ∃ run : List Char, run <:+: text.toList ∧
      digitLimit < run.length ∧
      fault = .unreadableInteger .decimal (String.ofList run) (.tooLong run.length) := by
  unfold read at failed
  cases counted : totalOf text.toList TimeUnit.all with
  | error other =>
    simp only [counted, Except.error.injEq] at failed
    subst failed
    exact .inr (totalOf_error counted)
  | ok total =>
    simp only [counted] at failed
    split at failed
    · exact .inl (Except.error.inj failed).symm
    · simp at failed

end Duration

/-! ## Doubles -/

namespace Binary64

/-- The exponent of a quotient is not larger than the numbers of binary digits tell. -/
theorem exponentFor_le (numerator denominator : Nat) :
    exponentFor numerator denominator ≤
      max minExponent (numerator.log2 - denominator.log2 - 52) := by
  unfold exponentFor
  dsimp only
  split
  · split
    · omega
    · omega
  · split
    · omega
    · omega

/-- A quotient is infinite only if its exponent is as large as that of the largest doubles. -/
theorem le_exponentFor_of_ofRatio {negative infinite : Bool} {numerator denominator : Nat}
    (overflows : ofRatio negative numerator denominator = .infinite infinite) :
    numerator ≠ 0 ∧ maxExponent ≤ exponentFor numerator denominator := by
  -- Rounding up to a power of two raises the exponent by one.
  have rounded : ∀ (significand : Nat) (exponent : Int),
      (let raised :=
        if significand = twoTo 53 then (twoTo 52, exponent + 1) else (significand, exponent)
       if maxExponent < raised.2 then Binary64.infinite negative
       else .finite negative raised.1 raised.2) =
        .infinite infinite → maxExponent ≤ exponent := by
    intro significand exponent result
    dsimp only at result
    by_cases large : maxExponent ≤ exponent
    · exact large
    · by_cases even : significand = twoTo 53
      · rw [if_pos even, if_neg (by show ¬maxExponent < exponent + 1; omega)] at result
        simp at result
      · rw [if_neg even, if_neg (by show ¬maxExponent < exponent; omega)] at result
        simp at result
  unfold ofRatio at overflows
  split at overflows
  · simp at overflows
  next nonzero => exact ⟨nonzero, rounded _ _ overflows⟩

/-- An integer that is no double is large. -/
theorem large_of_ofInt? (failed : ofInt? value = none) : twoTo 1023 ≤ value.natAbs := by
  unfold ofInt? at failed
  split at failed
  next infinite overflows =>
    obtain ⟨nonzero, exponent⟩ := le_exponentFor_of_ofRatio overflows
    have bounded := exponentFor_le value.natAbs 1
    have one : (1 : Nat).log2 = 0 := by decide
    have digits : 1023 ≤ value.natAbs.log2 := by
      rw [one] at bounded
      unfold maxExponent at exponent
      unfold minExponent at bounded
      omega
    exact Nat.le_trans (twoTo_le_twoTo digits) (Nat.log2_self_le nonzero)
  · simp at failed

end Binary64

end CelWhere
