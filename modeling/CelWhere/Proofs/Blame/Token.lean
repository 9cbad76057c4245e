import CelWhere.Number.Binary64
import CelWhere.Proofs.Reader

/-! # Numbers that are read

Every token of a read expression is one that the readers of tokens return. In particular a number
with a point or an exponent has a value.

* `Lexer.read?_float?` — numbers with a point or an exponent are read as doubles;
* `parse?_float` — so are those in the tree of a text. -/

namespace CelWhere

/-! ## Numbers with a point or an exponent -/

namespace Lexer

variable {text digits rest power whole minus : List Char} {head : Char}

/-- Characters of numbers are read as they stand. -/
theorem plain_isFloatChar {c : Char} (spelled : isFloatChar c) :
    Text.plainChar c = c ∧ Text.isBlank c = false ∧ c ≠ '_' := by
  have each : ∀ code < 128, isFloatChar (Char.ofNat code) →
      Text.plainChar (Char.ofNat code) = Char.ofNat code ∧
      Text.isBlank (Char.ofNat code) = false ∧ Char.ofNat code ≠ '_' := by
    decide +kernel
  have small : c.toNat < 128 := by
    simp only [isFloatChar, Text.isPlainDigit, Bool.or_eq_true, Bool.and_eq_true, decide_eq_true_eq,
      Char.le_def, UInt32.le_iff_toNat_le, Char.reduceVal, UInt32.reduceToNat] at spelled
    rcases spelled with ((((⟨-, digit⟩ | rfl) | rfl) | rfl) | rfl) | rfl
    · exact Nat.lt_of_le_of_lt digit (by decide)
    all_goals decide
  simpa using each c.toNat small (by simpa using spelled)

/-- A text of such characters has no underscores to be dropped. -/
theorem dropUnderscores_eq {before : Char} (start : before ≠ '_') (none : ∀ c ∈ text, c ≠ '_') :
    Binary64.dropUnderscores before text = some text := by
  induction text generalizing before with
  | nil => simp [Binary64.dropUnderscores, start]
  | cons head rest ih =>
    have headIs : head ≠ '_' := none head (.head _)
    have behind := ih headIs fun c member => none c (.tail _ member)
    simp [Binary64.dropUnderscores, headIs, start, behind]

/-- Such a text is taken as it stands. -/
theorem taken_isFloatChar (spelled : ∀ c ∈ text, isFloatChar c) :
    Binary64.dropUnderscores ' ' (Text.strip (text.map Text.plainChar)) = some text := by
  have asItStands : text.map Text.plainChar = text :=
    (List.map_congr_left fun c member => (plain_isFloatChar (spelled c member)).1).trans
      (List.map_id' text)
  have unblank (chars : List Char) (each : ∀ c ∈ chars, isFloatChar c) :
      chars.dropWhile Text.isBlank = chars := by
    cases chars with
    | nil => rfl
    | cons head rest =>
      exact List.dropWhile_cons_of_neg (by simp [(plain_isFloatChar (each head (.head _))).2.1])
  have stripped : Text.strip text = text := by
    rw [Text.strip, unblank text spelled, unblank text.reverse (by simpa using spelled),
      List.reverse_reverse]
  rw [asItStands, stripped]
  exact dropUnderscores_eq (by decide) fun c member => (plain_isFloatChar (spelled c member)).2.2

/-- The digits at the start of a text. -/
theorem takeWhile_digits {behind : List Char} (each : ∀ c ∈ digits, Text.isPlainDigit c)
    (ends : ∀ c ∈ behind.head?, Text.isPlainDigit c = false) :
    (digits ++ behind).takeWhile Text.isPlainDigit = digits ∧
      (digits ++ behind).dropWhile Text.isPlainDigit = behind := by
  rw [List.takeWhile_append_of_pos each, List.dropWhile_append_of_pos each]
  cases behind with
  | nil => simp
  | cons head rest =>
    have ended : ¬Text.isPlainDigit head = true := by simp [ends head rfl]
    rw [List.takeWhile_cons_of_neg ended, List.dropWhile_cons_of_neg ended, List.append_nil]
    exact ⟨rfl, rfl⟩

/-- A sign is told from the digits behind it. -/
theorem splitSign_digits (each : ∀ c ∈ digits, Text.isPlainDigit c) :
    Integer.splitSign digits = (false, digits) := by
  unfold Integer.splitSign
  split
  · exact absurd (each '+' (.head _)) (by decide)
  · exact absurd (each '-' (.head _)) (by decide)
  · rfl

/-- An exponent is read, and starts with neither a digit nor a point. -/
theorem readExponent_exponent? (found : exponent? text = some (power, rest)) :
    (Binary64.readExponent power).isSome ∧ ∃ mark, power.head? = some mark ∧
      (mark = 'e' ∨ mark = 'E') := by
  unfold exponent? at found
  split at found
  next mark body =>
    split at found
    next isMark =>
      have markIs : mark = 'e' ∨ mark = 'E' := by simpa using isMark
      -- The digits behind the mark, with the sign before them.
      have signed : ∀ {sign digits : List Char} {negative : Bool}, digits.isEmpty = false →
          (∀ c ∈ digits, Text.isPlainDigit c) →
          Integer.splitSign (sign ++ digits) = (negative, digits) →
          mark :: sign ++ digits = power →
          (Binary64.readExponent power).isSome ∧ ∃ mark, power.head? = some mark ∧
          (mark = 'e' ∨ mark = 'E') := by
        rintro sign digits negative given each split rfl
        have all : digits.all Text.isPlainDigit = true := List.all_eq_true.mpr each
        refine ⟨?_, mark, rfl, markIs⟩
        simp [Binary64.readExponent, isMark, split, given, all]
      have each (chars : List Char) : ∀ c ∈ chars.takeWhile Text.isPlainDigit,
          Text.isPlainDigit c :=
        fun c member => List.all_eq_true.mp List.all_takeWhile c member
      dsimp only at found
      split at found
      next body =>
        rw [Option.ite_none_left_eq_some] at found
        exact signed (by simpa using found.1) (each body) rfl
          (Prod.mk.inj (Option.some.inj found.2)).1
      next body =>
        rw [Option.ite_none_left_eq_some] at found
        exact signed (by simpa using found.1) (each body) rfl
          (Prod.mk.inj (Option.some.inj found.2)).1
      next =>
        rw [Option.ite_none_left_eq_some] at found
        exact signed (by simpa using found.1) (each body) (splitSign_digits (each body))
          (Prod.mk.inj (Option.some.inj found.2)).1
    · simp at found
  · simp at found

/-- The digits of a number, perhaps with a point and more digits behind them, are read with the
exponent behind them, which may be missing. -/
theorem readUnsigned_isSome (negative : Bool) {fraction : List Char}
    (wholeEach : ∀ c ∈ whole, Text.isPlainDigit c)
    (fractionEach : ∀ c ∈ fraction, Text.isPlainDigit c)
    (exponent : (Binary64.readExponent power).isSome)
    (marked : ∀ c ∈ power.head?, Text.isPlainDigit c = false ∧ c ≠ '.') :
    (whole ≠ [] ∨ fraction ≠ [] →
      (Binary64.readUnsigned negative (whole ++ '.' :: (fraction ++ power))).isSome) ∧
    (whole ≠ [] → (Binary64.readUnsigned negative (whole ++ power)).isSome) := by
  have powerEnds := takeWhile_digits fractionEach fun c member => (marked c member).1
  constructor
  · intro given
    have point : Text.isPlainDigit '.' = false := by decide
    have pointEnds : ∀ c ∈ ('.' :: (fraction ++ power)).head?, Text.isPlainDigit c = false :=
      by simp [point]
    obtain ⟨taken, dropped⟩ := takeWhile_digits wholeEach pointEnds
    have nonempty : (whole.isEmpty && fraction.isEmpty) = false := by
      rcases given with given | given <;> simp [given]
    simp only [Binary64.readUnsigned, taken, dropped, powerEnds.1, powerEnds.2, nonempty]
    simpa using exponent
  · intro given
    obtain ⟨taken, dropped⟩ := takeWhile_digits wholeEach fun c member => (marked c member).1
    have nonempty : whole.isEmpty = false := by simp [given]
    simp only [Binary64.readUnsigned, taken, dropped]
    split
    next rest =>
      exact absurd rfl (marked '.' rfl).2
    next => simpa [nonempty] using exponent

/-- Neither a digit nor a point is a sign or a letter. -/
theorem start_isNumeric (numeric : Text.isPlainDigit head ∨ head = '.') :
    isFloatChar head ∧ head ≠ '+' ∧ head ≠ '-' ∧ Binary64.lowerAscii head ≠ 'i' ∧
      Binary64.lowerAscii head ≠ 'n' := by
  have each : ∀ code < 58, 48 ≤ code ∨ code = 46 →
      isFloatChar (Char.ofNat code) ∧ Char.ofNat code ≠ '+' ∧
      Char.ofNat code ≠ '-' ∧ Binary64.lowerAscii (Char.ofNat code) ≠ 'i' ∧
      Binary64.lowerAscii (Char.ofNat code) ≠ 'n' := by decide
  have range : head.toNat < 58 ∧ (48 ≤ head.toNat ∨ head.toNat = 46) := by
    rcases numeric with digit | rfl
    · simp only [Text.isPlainDigit, Bool.and_eq_true, decide_eq_true_eq, Char.le_def,
        UInt32.le_iff_toNat_le, Char.reduceVal, UInt32.reduceToNat] at digit
      exact ⟨Nat.lt_succ_of_le digit.2, .inl digit.1⟩
    · decide
  have found := each head.toNat range.1 range.2
  rwa [Char.ofNat_toNat] at found

/-- A number starts with neither a sign nor a letter, so it is read by its digits. -/
theorem read?_isSome (sign : minus = [] ∨ minus = ['-'])
    (numeric : Text.isPlainDigit head ∨ head = '.') (spelled : ∀ c ∈ rest, isFloatChar c)
    (read : ∀ negative, (Binary64.readUnsigned negative (head :: rest)).isSome) :
    (Binary64.read? (minus ++ head :: rest)).isSome := by
  obtain ⟨headSpelled, notPlus, notMinus, notI, notN⟩ := start_isNumeric numeric
  have each : ∀ c ∈ minus ++ head :: rest, isFloatChar c := by
    have minusSpelled : isFloatChar '-' = true := by decide
    rcases sign with rfl | rfl <;> simpa [headSpelled, minusSpelled] using spelled
  have unsigned : (Integer.splitSign (minus ++ head :: rest)).2 = head :: rest := by
    rcases sign with rfl | rfl
    · simp [Integer.splitSign, notPlus, notMinus]
    · rfl
  -- The words for infinity and for no number start with other letters.
  have noWord : ∀ (word : String) (start : Char), word.toList.head? = some start →
      Binary64.lowerAscii head ≠ start →
      String.ofList ((head :: rest).map Binary64.lowerAscii) ≠ word := by
    rintro word start starts other rfl
    simp only [String.toList_ofList, List.map_cons, List.head?_cons, Option.some.injEq] at starts
    exact other starts
  have notInf := noWord "inf" 'i' rfl notI
  have notInfinity := noWord "infinity" 'i' rfl notI
  have notNan := noWord "nan" 'n' rfl notN
  rw [Binary64.read?, taken_isFloatChar each]
  rcases split : Integer.splitSign (minus ++ head :: rest) with ⟨negative, body⟩
  obtain rfl : body = head :: rest := by simpa [split] using unsigned
  simp only [Option.bind_some, split, notInf, notInfinity, notNan, decide_false, Bool.or_self,
    Bool.false_eq_true, if_false]
  exact read negative

/-- Digits with a point or an exponent behind them are a number. -/
theorem read?_parts {tail : List Char} (sign : minus = [] ∨ minus = ['-'])
    (wholeEach : ∀ c ∈ whole, Text.isPlainDigit c) (given : whole ≠ [] ∨ tail.head? = some '.')
    (spelled : ∀ c ∈ tail, isFloatChar c)
    (read : ∀ negative, (Binary64.readUnsigned negative (whole ++ tail)).isSome) :
    (Binary64.read? (minus ++ (whole ++ tail))).isSome := by
  have digitSpelled : ∀ c ∈ whole, isFloatChar c := fun c member =>
    (start_isNumeric (.inl (wholeEach c member))).1
  cases whole with
  | nil =>
    have point : tail.head? = some '.' := given.resolve_left (by simp)
    obtain ⟨rest, rfl⟩ := List.head?_eq_some_iff.mp point
    exact read?_isSome sign (.inr rfl) (fun c member => spelled c (.tail _ member)) read
  | cons head rest =>
    refine read?_isSome sign (.inl (wholeEach head (.head _))) ?_ read
    intro c member
    rcases List.mem_append.mp member with inWhole | inTail
    · exact digitSpelled c (.tail _ inWhole)
    · exact spelled c inTail

/-- **Numbers have values.** A number with a point or an exponent is read as a double. -/
theorem read?_float? {token : Token} (found : float? text = some (token, rest)) :
    (Binary64.read? token.text.toList).isSome := by
  have digits (chars : List Char) : ∀ c ∈ chars.takeWhile Text.isPlainDigit, Text.isPlainDigit c :=
    fun c member => List.all_eq_true.mp List.all_takeWhile c member
  have sign : (splitMinus text).1 = [] ∨ (splitMinus text).1 = ['-'] := by
    unfold splitMinus
    split
    · exact .inr rfl
    · exact .inl rfl
  have point : isFloatChar '.' = true := by decide
  -- An exponent may be missing behind a point.
  have noPower : (Binary64.readExponent []).isSome := rfl
  have power : ∀ {after power behind : List Char}, exponent? after = some (power, behind) →
      (Binary64.readExponent power).isSome ∧
      (∀ c ∈ power.head?, Text.isPlainDigit c = false ∧ c ≠ '.') := by
    intro after power behind read
    obtain ⟨exponent, mark, starts, isMark⟩ := readExponent_exponent? read
    refine ⟨exponent, fun c member => ?_⟩
    obtain rfl : mark = c := by simpa [starts] using member
    rcases isMark with rfl | rfl <;> decide
  unfold float? at found
  dsimp only at found
  split at found
  next behind _ =>
    have fraction := takeWhile_isPlainDigit behind
    split at found
    · simp at found
    next given =>
      have nonempty : (splitMinus text).2.takeWhile Text.isPlainDigit ≠ [] ∨
          behind.takeWhile Text.isPlainDigit ≠ [] := by
        rw [Bool.and_eq_true, List.isEmpty_iff, List.isEmpty_iff] at given
        exact Decidable.not_and_iff_or_not.mp given
      split at found
      next chars after read =>
        obtain ⟨rfl, -⟩ := Prod.mk.inj (Option.some.inj found)
        obtain ⟨exponent, marked⟩ := power read
        rw [String.toList_ofList, List.append_assoc]
        refine read?_parts sign (digits _) (.inr rfl) ?_ fun negative => ?_
        · have exponentSpelled := exponent?_spelled read
          simp only [List.cons_append, List.mem_cons, List.mem_append]
          rintro c (rfl | inFraction | inPower)
          · exact point
          · exact fraction c inFraction
          · exact exponentSpelled c inPower
        · exact (readUnsigned_isSome negative (digits _) (digits _) exponent marked).1 nonempty
      · obtain ⟨rfl, -⟩ := Prod.mk.inj (Option.some.inj found)
        rw [String.toList_ofList]
        refine read?_parts sign (digits _) (.inr rfl) ?_ fun negative => ?_
        · simp only [List.mem_cons]
          rintro c (rfl | inFraction)
          · exact point
          · exact fraction c inFraction
        · have read :=
            (readUnsigned_isSome negative (digits (splitMinus text).2) (digits behind) noPower
            (by simp)).1 nonempty
          rwa [List.append_nil] at read
  · split at found
    · simp at found
    next given =>
      have nonempty : (splitMinus text).2.takeWhile Text.isPlainDigit ≠ [] := by simpa using given
      obtain ⟨⟨chars, after⟩, read, same⟩ := Option.map_eq_some_iff.mp found
      obtain ⟨rfl, -⟩ := Prod.mk.inj same
      obtain ⟨exponent, marked⟩ := power read
      rw [String.toList_ofList]
      refine read?_parts sign (digits _) (.inl nonempty) (exponent?_spelled read) fun negative => ?_
      exact (readUnsigned_isSome negative (digits _) (digits []) exponent marked).2 nonempty

/-- The numbers with a point or an exponent that operands start with have values. -/
theorem tokens_float :
    Parser.TokensHave fun token => token.kind = .float →
      (Binary64.read? token.text.toList).isSome where
  operand _ := by
    refine operand?_yields (fun _ _ _ _ => nofun) (fun read isFloat => ?_)
      (fun read _ => read?_float? read)
      (fun _ => ⟨nofun, fun _ _ => nofun⟩) fun _ isFloat => ?_
    · have isString := (string?_given read).1
      simp [Token.isString, isFloat] at isString
    · unfold wordToken at isFloat
      split at isFloat
      · simp at isFloat
      · split at isFloat <;> simp at isFloat
  name _ _ _ found isFloat := by
    simp [(name?_wellFormed found).1] at isFloat

end Lexer

/-- **Numbers in a read expression have values.** -/
theorem parse?_float {text : String} {tree : Tree} (found : parse? text = some tree) :
    tree.EachToken fun token => token.kind = .float → (Binary64.read? token.text.toList).isSome :=
  parse?_eachToken Lexer.tokens_float found

end CelWhere
