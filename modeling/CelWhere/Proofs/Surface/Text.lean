import CelWhere.Convert.Method
import CelWhere.Proofs.Blame.Token
import CelWhere.Proofs.Numeral
import CelWhere.Proofs.Surface.Reading

/-! # Texts that are read without harm

Names and numbers are written outside of quoted regions, and the contents of strings inside of them.
Outside, a text must not have quotes or minus signs that meet; inside, it must not leave its region
for good. What is written has a null byte only if a string has one.

* `Surface.IsWord`, `Surface.IsNumeral` — texts of names, and of numbers, which may have minus
  signs;
* `Surface.isNumeral_float` — the texts of doubles are such;
* `Surface.Stays` — texts that stay in the region that they start in, as escaped strings and
  patterns do. -/

namespace CelWhere.Surface

variable {unit : String} {c : Char} {pattern : List Char} (bytes : List UInt8) {text : List Char}

open CelWhere.Quoting

/-! ## Names -/

/-- The characters that can do harm, alone or beside another one. -/
def harmful : List Char := ['\'', '"', '\x60', '-', '/', '*', '\\', '\x00', '(', ')', '[', ']']

/-- A text without characters that can do harm. -/
def IsWord (text : List Char) : Prop :=
  ∀ c ∈ text, c ∉ harmful

instance (text : List Char) : Decidable (IsWord text) :=
  List.decidableBAll _ text

/-- A text of a class of characters is a word if the class has none that can do harm. -/
theorem isWord_of_all {allowed : Char → Bool} (avoids : harmful.all (!allowed ·))
    (each : ∀ c ∈ text, allowed c) : IsWord text := by
  intro c member isHarmful
  have refused := List.all_eq_true.mp avoids c isHarmful
  simp [each c member] at refused

theorem isWord_name (isName : ∀ c ∈ text, Lexer.isNameChar c) : IsWord text :=
  isWord_of_all (by decide) isName

/-- Names of columns are words, also with a line end behind them. -/
theorem isWord_columnName {name : String} (valid : columnNameFault? name = none) :
    IsWord name.toList := by
  obtain ⟨-, -, named, -⟩ := NameRules.fault?_eq_none.mp valid
  have avoids : harmful.all fun c => !(Lexer.isNameChar c || c = '\n') := by decide
  refine isWord_of_all avoids fun c member => ?_
  simpa using isNameChar_of_isNameText named member

/-- A word has no quotes and no brackets. -/
theorem plain_of_harmless (each : ∀ c ∈ text, c ∉ harmful ∨ c = '-') : Lexical.Plain text := by
  intro c member
  rcases each c member with harmless | rfl
  · refine ⟨fun same => harmless (by simp [same, harmful]), ?_, ?_⟩
    · unfold Lexical.closer?
      split
      · exact absurd (by decide) harmless
      · exact absurd (by decide) harmless
      · rfl
    · rw [Lexical.isCloser]
      simp only [harmful, List.mem_cons, not_or] at harmless
      simp [harmless]
  · decide

/-- The unit of an SQLite modifier is a word if the unit is a name. -/
theorem isWord_modifierUnit (isName : ∀ c ∈ unit.toList, Lexer.isNameChar c) :
    IsWord (modifierUnit unit).toList :=
  isWord_name (Lexical.isNameChar_modifierUnit isName)

theorem IsWord.null_not_mem (isWord : IsWord text) : '\x00' ∉ text :=
  fun member => isWord _ member (by decide)

/-! ## Numbers -/

/-- A text of a number: there is a character behind each minus sign, which is no minus sign
itself. -/
structure IsNumeral (text : List Char) : Prop where
  /-- Only minus signs can do harm. -/
  spelled : ∀ c ∈ text, c ∉ harmful ∨ c = '-'
  /-- No minus signs meet. -/
  spaced : meets (some '-') (some '-') (text.map some) = false
  /-- The last character is no minus sign. -/
  last : text.getLast? ≠ some '-'

/-- A text without minus signs that is a word. -/
theorem IsWord.isNumeral (isWord : IsWord text) : IsNumeral text := by
  have noDash : '-' ∉ text := fun member => isWord _ member (by decide)
  refine ⟨fun c member => .inl (isWord c member), meets_of_not_mem ?_,
    fun last => noDash (List.mem_of_getLast? last)⟩
  simpa using noDash

namespace IsNumeral

variable {first second : List Char}

/-- Numerals one after the other. -/
theorem append (one : IsNumeral first) (two : IsNumeral second) : IsNumeral (first ++ second) := by
  refine ⟨?_, ?_, ?_⟩
  · intro c member
    exact (List.mem_append.mp member).elim (one.spelled c) (two.spelled c)
  · rw [List.map_append, meets_append, one.spaced, two.spaced]
    simp [one.last]
  · rw [List.getLast?_append]
    cases ending : second.getLast? with
    | none => simpa using one.last
    | some c => simpa [ending] using two.last

/-- A minus sign before a numeral that starts otherwise. -/
theorem minus (one : IsNumeral first) (given : first ≠ []) (noDash : first.head? ≠ some '-') :
    IsNumeral ('-' :: first) := by
  obtain ⟨head, rest, rfl⟩ := List.exists_cons_of_ne_nil given
  have other : head ≠ '-' := by simpa using noDash
  refine ⟨?_, ?_, ?_⟩
  · intro c member
    rcases List.mem_cons.mp member with rfl | later
    · exact .inr rfl
    · exact one.spelled c later
  · have later := one.spaced
    simpa [meets, other] using later
  · rw [List.getLast?_cons_cons]
    exact one.last

/-- A numeral has no null byte. -/
theorem null_not_mem (one : IsNumeral first) : '\x00' ∉ first := by
  intro member
  rcases one.spelled _ member with harmless | isDash
  · exact harmless (by decide)
  · simp at isDash

end IsNumeral

theorem isWord_digits {digits : List Char} (each : ∀ c ∈ digits, Text.isPlainDigit c) :
    IsWord digits :=
  isWord_of_all (by decide) each

/-- The texts of integers are numerals. -/
theorem isNumeral_toText (value : Int) : IsNumeral (Integer.toText value).toList := by
  have digits := isWord_digits (Lexical.isPlainDigit_natDigits value.natAbs)
  unfold Integer.toText
  rw [String.toList_ofList]
  split
  · refine digits.isNumeral.minus ?_ ?_
    · rw [Integer.natDigits_eq]
      exact Nat.toDigits_ne_nil
    · intro starts
      exact digits _ (List.mem_of_head? starts) (by decide)
  · exact digits.isNumeral

/-- What stands behind a sign makes a numeral with it. -/
theorem isNumeral_of_splitSign (unsigned : IsNumeral (Integer.splitSign text).2)
    (given : (Integer.splitSign text).2 ≠ [])
    (noDash : (Integer.splitSign text).2.head? ≠ some '-') :
    IsNumeral text := by
  revert unsigned given noDash
  unfold Integer.splitSign
  split
  · intro unsigned _ _
    exact (IsWord.isNumeral (by decide : IsWord ['+'])).append unsigned
  · intro unsigned given noDash
    exact unsigned.minus given noDash
  · intro unsigned _ _
    exact unsigned

/-- An exponent that is read is a numeral. -/
theorem isNumeral_readExponent {power : List Char} (read : (Binary64.readExponent power).isSome) :
    IsNumeral power := by
  unfold Binary64.readExponent at read
  split at read
  · exact IsWord.isNumeral (by decide)
  next mark rest =>
    split at read
    next isMark =>
      have markWord : IsWord [mark] := by
        rcases Bool.or_eq_true .. ▸ isMark with small | large
        · obtain rfl := of_decide_eq_true small
          decide
        · obtain rfl := of_decide_eq_true large
          decide
      dsimp only at read
      split at read
      · simp at read
      next digitsRead =>
        obtain ⟨given, each⟩ : (Integer.splitSign rest).2 ≠ [] ∧
            ∀ c ∈ (Integer.splitSign rest).2, Text.isPlainDigit c := by
          simpa using digitsRead
        have digits := isWord_digits each
        refine markWord.isNumeral.append (isNumeral_of_splitSign digits.isNumeral given ?_)
        intro starts
        exact digits _ (List.mem_of_head? starts) (by decide)
    · simp at read

/-- A decimal that is read without its sign is a numeral that does not start with one. -/
theorem isNumeral_readUnsigned {negative : Bool}
    (read : (Binary64.readUnsigned negative text).isSome) :
    IsNumeral text ∧ text ≠ [] ∧ text.head? ≠ some '-' := by
  have digits (chars : List Char) : IsWord (chars.takeWhile Text.isPlainDigit) :=
    isWord_digits (List.all_eq_true.mp List.all_takeWhile)
  have wholeText : text.takeWhile Text.isPlainDigit ++ text.dropWhile Text.isPlainDigit = text :=
    List.takeWhile_append_dropWhile
  -- A text with a minus sign at its start has no digits there, and no point.
  have unsigned {rest : List Char} : Binary64.readUnsigned negative ('-' :: rest) = none := by
    simp [Binary64.readUnsigned, Text.isPlainDigit]
  have noDash : text.head? ≠ some '-' := by
    intro starts
    obtain ⟨rest, rfl⟩ := List.head?_eq_some_iff.mp starts
    simp [unsigned] at read
  have given : text ≠ [] := by
    rintro rfl
    simp [Binary64.readUnsigned] at read
  refine ⟨?_, given, noDash⟩
  rw [← wholeText]
  refine (digits text).isNumeral.append ?_
  unfold Binary64.readUnsigned at read
  dsimp only at read
  split at read
  next rest same =>
    have fractionText : rest.takeWhile Text.isPlainDigit ++ rest.dropWhile Text.isPlainDigit =
        rest :=
      List.takeWhile_append_dropWhile
    rw [same, ← fractionText]
    split at read
    · simp at read
    · have power := isNumeral_readExponent (by simpa using read)
      exact (IsWord.isNumeral (by decide : IsWord ['.'])).append
        ((digits rest).isNumeral.append power)
  · split at read
    · simp at read
    · exact isNumeral_readExponent (by simpa using read)

/-- **Texts of doubles.** The text of a number that is read as a double is a numeral. -/
theorem isNumeral_float (spelled : ∀ c ∈ text, isFloatChar c)
    (read : (Binary64.read? text).isSome) : IsNumeral text := by
  have letters : ∀ c, isFloatChar c → Binary64.lowerAscii c ∉ ['i', 'n'] := by
    intro c isFloat
    have each : ∀ code < 128, isFloatChar (Char.ofNat code) →
        Binary64.lowerAscii (Char.ofNat code) ∉ ['i', 'n'] := by
      decide
    have small : c.toNat < 128 := by
      simp only [isFloatChar, Text.isPlainDigit, Bool.or_eq_true, Bool.and_eq_true,
        decide_eq_true_eq, Char.le_def, UInt32.le_iff_toNat_le] at isFloat
      rcases isFloat with ((((⟨-, high⟩ | rfl) | rfl) | rfl) | rfl) | rfl
      · exact Nat.lt_of_le_of_lt high (by decide)
      all_goals decide
    have here := each c.toNat small
    rw [Char.ofNat_toNat] at here
    exact here isFloat
  have unsignedSpelled : ∀ c ∈ (Integer.splitSign text).2, isFloatChar c := by
    intro c member
    refine spelled c ?_
    revert member
    unfold Integer.splitSign
    split
    · exact fun member => .tail _ member
    · exact fun member => .tail _ member
    · exact id
  -- Words for infinities and for no number have other letters.
  have noWord : ∀ word : String, word.toList.head?.any (['i', 'n'].contains ·) →
      String.ofList ((Integer.splitSign text).2.map Binary64.lowerAscii) ≠ word := by
    rintro word starts rfl
    rw [String.toList_ofList] at starts
    cases letter : (Integer.splitSign text).2 with
    | nil => simp [letter] at starts
    | cons head rest =>
      refine letters head (unsignedSpelled head (by simp [letter])) ?_
      simpa [letter] using starts
  have notInf := noWord "inf" (by decide)
  have notInfinity := noWord "infinity" (by decide)
  have notNan := noWord "nan" (by decide)
  rw [Binary64.read?, Lexer.taken_isFloatChar spelled] at read
  simp only [Option.bind_some, notInf, notInfinity, notNan, decide_false, Bool.or_self,
    Bool.false_eq_true, if_false] at read
  obtain ⟨numeral, given, noDash⟩ := isNumeral_readUnsigned read
  exact isNumeral_of_splitSign numeral given noDash

/-! ## Reading names and numbers -/

variable {dialect : Dialect}

/-- A text without quotes stays outside of quoted regions, and all its characters are marks. -/
theorem outside_of_noQuote (noQuote : ∀ c ∈ text, c ∉ quotes) :
    Place.outside.finish dialect text = .outside ∧
      Place.outside.marks dialect text = text.map some := by
  induction text with
  | nil => exact ⟨rfl, rfl⟩
  | cons c rest ih =>
    have here : c ∉ quotes := noQuote c (.head _)
    have step : Place.outside.next dialect c = .outside := by simp [Place.next, here]
    have mark : Place.outside.mark c = [some c] := by simp [Place.mark, here]
    obtain ⟨finish, marks⟩ := ih fun other member => noQuote other (.tail _ member)
    rw [Place.finish, Place.marks, step, mark, finish, marks]
    exact ⟨rfl, rfl⟩

theorem quotes_subset : quotes ⊆ harmful := by decide

/-- What may stand at the ends of a number: a minus sign at its start. -/
def Profile.number : Profile := { start := { dash := true }, empty := true }

/-- The characters of a numeral fit its profile. -/
theorem IsNumeral.fits (isNumeral : IsNumeral text) : Fits dialect .number (text.map some) := by
  have spelled {c : Char} (member : c ∈ text) : c ≠ '/' ∧ c ≠ '*' := by
    rcases isNumeral.spelled c member with harmless | rfl
    · constructor
      · rintro rfl
        exact harmless (by decide)
      · rintro rfl
        exact harmless (by decide)
    · decide
  refine ⟨?_, ?_, fun _ => rfl, meets_of_not_mem ?_, fun _ => meets_of_not_mem (by simp)⟩
  · intro mark found
    obtain ⟨c, member, rfl⟩ := List.mem_map.mp (List.mem_of_head? found)
    simp [Edge.allows, Profile.number, (spelled member).2]
  · intro mark found
    rw [List.getLast?_map] at found
    obtain ⟨c, last, rfl⟩ := Option.map_eq_some_iff.mp found
    have noDash : c ≠ '-' := fun same => isNumeral.last (same ▸ last)
    simp [Edge.allows, noDash, (spelled (List.mem_of_getLast? last)).1]
  · intro member
    obtain ⟨c, found, same⟩ := List.mem_map.mp member
    exact (spelled found).1 (Option.some.inj same)

/-- The characters of a word do no harm. -/
theorem IsWord.fits (isWord : IsWord text) : Fits dialect .plain (text.map some) := by
  have numeral : Fits dialect .number (text.map some) := isWord.isNumeral.fits
  refine ⟨?_, numeral.finish, numeral.given, numeral.block, numeral.apart⟩
  intro mark found
  obtain ⟨c, member, rfl⟩ := List.mem_map.mp (List.mem_of_head? found)
  have noDash : c ≠ '-' := by
    rintro rfl
    exact isWord _ member (by decide)
  have noStar : c ≠ '*' := by
    rintro rfl
    exact isWord _ member (by decide)
  simp [Edge.allows, noDash, noStar]

/-- A numeral stays outside of quoted regions. -/
theorem IsNumeral.outside (isNumeral : IsNumeral text) :
    Place.outside.finish dialect text = .outside ∧
      Place.outside.marks dialect text = text.map some := by
  refine outside_of_noQuote fun c member isQuote => ?_
  rcases isNumeral.spelled c member with harmless | rfl
  · exact harmless (quotes_subset isQuote)
  · exact absurd isQuote (by decide)

/-! ## Texts that stay in a region -/

/-- A text that starts inside a quoted region ends there. It may close the region where doubled
quotes are content, but only to open it again. -/
structure Stays (dialect : Dialect) (quote : Char) (text : List Char) : Prop where
  /-- It ends inside the region. -/
  finish : (Place.inside quote).finish dialect text = .inside quote
  /-- Its marks are those of regions, and it has none where a doubled quote is no content. -/
  marks : ∃ count, (Place.inside quote).marks dialect text = List.replicate count none ∧
    (doubles dialect = false → count = 0)

namespace Stays

variable {quote : Char} {first second text : List Char}

theorem nil : Stays dialect quote [] :=
  ⟨rfl, 0, rfl, fun _ => rfl⟩

/-- Texts one after the other. -/
theorem append (one : Stays dialect quote first) (two : Stays dialect quote second) :
    Stays dialect quote (first ++ second) := by
  obtain ⟨count, firstMarks, firstNone⟩ := one.marks
  obtain ⟨more, secondMarks, secondNone⟩ := two.marks
  refine ⟨by rw [Place.finish_append, one.finish, two.finish], count + more, ?_, ?_⟩
  · rw [Place.marks_append, one.finish, firstMarks, secondMarks, List.replicate_append_replicate]
  · intro single
    rw [firstNone single, secondNone single]

/-- A text that is written piece by piece stays if each piece does. -/
theorem flatMap {α : Type} {values : List α} {write : α → List Char}
    (each : ∀ value ∈ values, Stays dialect quote (write value)) :
    Stays dialect quote (values.flatMap write) := by
  induction values with
  | nil => exact nil
  | cons c rest ih =>
    rw [List.flatMap_cons]
    exact (each c (.head _)).append (ih fun other member => each other (.tail _ member))

/-- A character that neither closes the region nor escapes another one. -/
theorem singleton (noQuote : c ≠ quote) (noEscape : escapes dialect → c ≠ '\\') :
    Stays dialect quote [c] := by
  have step : (Place.inside quote).next dialect c = .inside quote := by
    cases escaping : escapes dialect with
    | false => simp [Place.next, noQuote, escaping]
    | true => simp [Place.next, noQuote, noEscape escaping]
  exact ⟨by rw [Place.finish, step, Place.finish], 0, rfl, fun _ => rfl⟩

/-- A character that is escaped. -/
theorem escaped (escaping : escapes dialect) (c : Char) (noBackslash : quote ≠ '\\') :
    Stays dialect quote ['\\', c] := by
  have step : (Place.inside quote).next dialect '\\' = .escaped quote := by
    simp [Place.next, noBackslash.symm, escaping]
  refine ⟨by rw [Place.finish, step, Place.finish, Place.next, Place.finish], 0, ?_, fun _ => rfl⟩
  rw [Place.marks, step]
  rfl

/-- A doubled quote, where it is content. -/
theorem doubled (doubling : doubles dialect) : Stays dialect '\'' ['\'', '\''] :=
  ⟨rfl, 1, rfl, by simp [doubling]⟩

/-- A text without quotes and backslashes. -/
theorem of_not_mem (noQuote : quote ∉ text) (noBackslash : '\\' ∉ text) :
    Stays dialect quote text := by
  have each (c : Char) (member : c ∈ text) : Stays dialect quote [c] :=
    .singleton (fun same => noQuote (same ▸ member)) fun _ same => noBackslash (same ▸ member)
  simpa using flatMap each

end Stays

/-- A word stays in any region. -/
theorem IsWord.stays {quote : Char} (isWord : IsWord text) (isQuote : quote ∈ quotes) :
    Stays dialect quote text := by
  refine .of_not_mem (fun member => ?_) fun member => ?_
  · exact isWord quote member (quotes_subset isQuote)
  · exact isWord _ member (by decide)

/-- A word has no backslashes that could escape a quote. -/
theorem IsWord.evenBackslashes (isWord : IsWord text) : EvenBackslashes text := by
  rw [← evenFrom_iff]
  induction text with
  | nil => rfl
  | cons c rest ih =>
    have noBackslash : c ≠ '\\' := by
      rintro rfl
      exact isWord _ (.head _) (by decide)
    have later := ih fun other member => isWord other (.tail _ member)
    simpa [evenFrom, noBackslash] using later

/-- A numeral stays in any region. -/
theorem IsNumeral.stays {quote : Char} (isNumeral : IsNumeral text) (isQuote : quote ∈ quotes) :
    Stays dialect quote text := by
  refine .of_not_mem (fun member => ?_) fun member => ?_
  · rcases isNumeral.spelled quote member with harmless | rfl
    · exact harmless (quotes_subset isQuote)
    · exact absurd isQuote (by decide)
  · rcases isNumeral.spelled _ member with harmless | same
    · exact harmless (by decide)
    · exact absurd same (by decide)

/-! ## Strings -/

/-- A text with its quotes doubled stays where a backslash does not escape. -/
theorem stays_doubleQuotes (doubling : doubles dialect) (plain : escapes dialect = false)
    (text : List Char) :
    Stays dialect '\'' (doubleQuotes text) := by
  refine .flatMap fun c _ => ?_
  split
  · exact .doubled doubling
  next noQuote => exact .singleton noQuote (by simp [plain])

/-- Where a backslash escapes, a text with its quotes doubled stays if no quote of it, and not its
end, is escaped. The flag tells whether its first character is. -/
theorem stays_evenFrom {escaped : Bool} (even : evenFrom escaped text) :
    let place : Place := if escaped then .escaped '\'' else .inside '\''
    place.finish .mysql (doubleQuotes text) = .inside '\'' ∧
      ∃ count, place.marks .mysql (doubleQuotes text) = List.replicate count none := by
  induction text generalizing escaped with
  | nil =>
    obtain rfl : escaped = false := by simpa [evenFrom] using even
    exact ⟨rfl, 0, rfl⟩
  | cons c rest ih =>
    obtain ⟨here, later⟩ : (escaped = false ∨ ¬c = '\'') ∧
        evenFrom (c = '\\' && !escaped) rest = true := by
      simpa [evenFrom] using even
    obtain ⟨finish, count, marks⟩ := ih later
    have split : doubleQuotes (c :: rest) = doubleQuotes [c] ++ doubleQuotes rest :=
      doubleQuotes_append [c] rest
    intro place
    rw [split, Place.finish_append, Place.marks_append]
    -- One character leads to the place that the flag of the rest tells of.
    by_cases isQuote : c = '\''
    · obtain rfl : escaped = false := by simpa [isQuote] using here
      subst isQuote
      exact ⟨finish, count + 1, by rw [List.replicate_succ]; exact congrArg (none :: ·) marks⟩
    · have alone : doubleQuotes [c] = [c] := by simp [doubleQuotes, isQuote]
      have silent : place.marks .mysql [c] = [] := by
        cases escaped <;> rfl
      have step : place.finish .mysql [c] =
          if (decide (c = '\\') && !escaped) = true then .escaped '\'' else .inside '\'' := by
        cases escaped with
        | true => simp [place, Place.finish, Place.next]
        | false =>
          by_cases isBackslash : c = '\\'
          · subst isBackslash
            rfl
          · simp [place, Place.finish, Place.next, isQuote, isBackslash]
      rw [alone, silent, step]
      exact ⟨finish, count, marks⟩

/-- The escaped inside of a string literal stays, in MySQL if its backslashes leave all quotes
unescaped. -/
theorem stays_escapeString {text : String} (even : dialect = .mysql → EvenBackslashes text.toList) :
    Stays dialect '\'' (dialect.escapeString text).toList := by
  unfold Dialect.escapeString
  rw [String.toList_ofList]
  cases dialect with
  | postgresql | sqlite | duckdb => exact stays_doubleQuotes rfl rfl _
  | mysql =>
    obtain ⟨finish, count, marks⟩ := stays_evenFrom (evenFrom_iff.mpr (even rfl))
    exact ⟨finish, count, marks, by simp [doubles]⟩
  | bigquery =>
    refine .flatMap fun c _ => ?_
    split
    · exact .escaped rfl c (by decide)
    next plain =>
      simp only [Bool.or_eq_true, decide_eq_true_eq, not_or] at plain
      exact .singleton plain.2 fun _ => plain.1

/-- A pattern stays, in BigQuery if it has no quotes. -/
theorem stays_likePattern (noQuote : dialect = .bigquery → '\'' ∉ text) :
    Stays dialect '\'' (likePattern text) := by
  refine .flatMap fun c member => ?_
  split
  next special =>
    have notQuote : c ≠ '\'' := by
      rintro rfl
      simp at special
    cases escaping : escapes dialect with
    | true => exact .escaped escaping c (by decide)
    | false =>
      have one : Stays dialect '\'' ['\\'] := .singleton (by decide) (by simp [escaping])
      exact one.append (.singleton notQuote (by simp [escaping]))
  next plain =>
    simp only [Bool.or_eq_true, decide_eq_true_eq, not_or] at plain
    split
    next isQuote =>
      subst isQuote
      refine .doubled ?_
      cases dialect with
      | bigquery => exact absurd member (noQuote rfl)
      | postgresql | mysql | sqlite | duckdb => rfl
    next notQuote => exact .singleton notQuote fun _ => plain.1.1

/-- The octal digits of a byte are a word. -/
theorem isWord_octalTriple (byte : UInt8) : IsWord (octalTriple byte.toNat) := by
  have digit : ∀ value < 8, Char.ofNat ('0'.toNat + value) ∉ harmful := by decide
  have small : byte.toNat < 256 := byte.toNat_lt
  intro c member
  simp only [octalTriple, List.map_cons, List.map_nil, List.mem_cons, List.not_mem_nil,
    or_false] at member
  rcases member with rfl | rfl | rfl
  · exact digit _ (by omega)
  · exact digit _ (Nat.mod_lt _ (by decide))
  · exact digit _ (Nat.mod_lt _ (by decide))

/-- Bytes in octal digits stay in the regions that they are written in. -/
theorem stays_octal :
    Stays .bigquery '"' (bytes.flatMap fun byte => '\\' :: octalTriple byte.toNat) := by
  refine .flatMap fun byte _ => ?_
  have first : Stays .bigquery '"' ['\\', (octalTriple byte.toNat).head (by simp [octalTriple])] :=
    .escaped rfl _ (by decide)
  exact first.append (IsWord.stays (fun c member => isWord_octalTriple byte c (.tail _ member))
    (by decide))

/-! ## Null bytes -/

/-- Bytes are written by their codes, without null bytes. -/
theorem null_not_mem_bytesLiteral : '\x00' ∉ (dialect.bytesLiteral bytes).toList := by
  have hex : '\x00' ∉ upperHex bytes :=
    (isWord_name (Lexical.isNameChar_upperHex bytes)).null_not_mem
  have octal : '\x00' ∉ bytes.flatMap fun byte => '\\' :: octalTriple byte.toNat := by
    intro member
    obtain ⟨byte, -, within⟩ := List.mem_flatMap.mp member
    rcases List.mem_cons.mp within with same | digits
    · exact absurd same (by decide)
    · exact (isWord_octalTriple byte).null_not_mem digits
  cases dialect with
  | postgresql | duckdb | mysql | sqlite => simp [Dialect.bytesLiteral, hex]
  | bigquery =>
    rw [Dialect.bytesLiteral, String.toList_append, String.toList_append]
    simp only [List.mem_append, not_or, String.toList_ofList]
    exact ⟨⟨by decide, octal⟩, by decide⟩

/-- Escaping neither adds nor removes null bytes. -/
theorem null_mem_escapeString {text : String} :
    '\x00' ∈ (dialect.escapeString text).toList ↔ '\x00' ∈ text.toList := by
  have doubled : '\x00' ∈ doubleQuotes text.toList ↔ '\x00' ∈ text.toList := by
    unfold doubleQuotes
    rw [List.mem_flatMap]
    grind
  unfold Dialect.escapeString
  rw [String.toList_ofList]
  cases dialect with
  | postgresql | mysql | sqlite | duckdb => exact doubled
  | bigquery =>
    unfold backslashQuotes
    rw [List.mem_flatMap]
    grind

/-- A pattern has a null byte only if the text has one. -/
theorem null_mem_likePattern (member : '\x00' ∈ likePattern text) : '\x00' ∈ text := by
  obtain ⟨c, found, within⟩ := List.mem_flatMap.mp member
  grind

/-- Making placeholders plain neither adds nor removes null bytes. -/
theorem null_mem_plainFormat (text : List Char) :
    '\x00' ∈ Convert.plainFormat text ↔ '\x00' ∈ text := by
  fun_induction Convert.plainFormat text with
  | case1 letter rest isPlaceholder ih =>
    have other : letter ≠ '\x00' := by
      rintro rfl
      exact absurd isPlaceholder (by decide)
    simp [ih, other.symm]
  | case2 letter rest notPlaceholder ih => simp [ih]
  | case3 head rest notPercent ih => simp [ih]
  | case4 => rfl

/-- Making placeholders plain does not change what is escaped. -/
theorem evenFrom_plainFormat (escaped : Bool) (text : List Char) :
    evenFrom escaped (Convert.plainFormat text) = evenFrom escaped text := by
  fun_induction Convert.plainFormat text generalizing escaped with
  | case1 letter rest isPlaceholder ih =>
    have other : letter ≠ '\\' ∧ letter ≠ '\'' := by
      constructor
      · rintro rfl
        exact absurd isPlaceholder (by decide)
      · rintro rfl
        exact absurd isPlaceholder (by decide)
    simp [evenFrom, ih, other]
  | case2 letter rest notPlaceholder ih => simp only [evenFrom, ih]
  | case3 head rest notPercent ih => simp only [evenFrom, ih]
  | case4 => rfl

/-- What is replaced has only characters of the text and of the replacement. -/
theorem mem_replaceFrom {replacement : List Char} {skip : Nat}
    (member : c ∈ Text.replaceFrom pattern replacement skip text) : c ∈ replacement ∨ c ∈ text := by
  fun_induction Text.replaceFrom pattern replacement skip text with
  | case1 => simp at member
  | case2 skip head rest ih => exact (ih member).imp_right (.tail _)
  | case3 head rest isPrefix ih =>
    rcases List.mem_append.mp member with here | later
    · exact .inl here
    · exact (ih later).imp_right (.tail _)
  | case4 head rest notPrefix ih =>
    rcases List.mem_cons.mp member with rfl | later
    · exact .inr (.head _)
    · exact (ih later).imp_right (.tail _)

/-- Splitting the flag off a pattern adds no null bytes. -/
theorem null_not_mem_splitFlag {source : List Char} (clean : '\x00' ∉ source) :
    '\x00' ∉ (Regex.splitFlag source).1 := by
  unfold Regex.splitFlag
  split
  · exact fun member => clean (by simp [member])
  · exact clean

/-- Replacing shorthands adds no null bytes. -/
theorem null_not_mem_toPosix (clean : '\x00' ∉ pattern) : '\x00' ∉ Regex.toPosix pattern := by
  have forms : ∀ form ∈ Regex.posixForms, '\x00' ∉ form.2 := by decide
  unfold Regex.toPosix
  generalize Regex.posixForms = list at forms
  induction list generalizing pattern with
  | nil => exact clean
  | cons form rest ih =>
    refine ih ?_ fun other member => forms other (.tail _ member)
    exact fun member => (mem_replaceFrom member).elim (forms form (.head _)) clean

/-- The forms of patterns in the dialects have no null byte. -/
theorem null_not_mem_convertRegex {source : String} {converted : Regex.Converted}
    (accepted : dialect.convertRegex source = .ok converted) : '\x00' ∉ converted.pattern := by
  have captured {pattern : List Char} (clean : '\x00' ∉ pattern) :
      '\x00' ∉ Regex.captureAll pattern :=
    fun member => (mem_replaceFrom member).elim (by decide) clean
  obtain ⟨-, acceptable, rfl⟩ := Dialect.convertRegex_eq_ok_iff.mp accepted
  have clean := captured (null_not_mem_splitFlag acceptable.noNull)
  cases dialect with
  | postgresql => exact null_not_mem_toPosix clean
  | mysql | sqlite | duckdb | bigquery => exact clean

/-- A code point that is valid is that of its character. -/
theorem toNat_ofNat {code : Nat} (valid : code.isValidChar) : (Char.ofNat code).toNat = code := by
  rw [Char.ofNat, dif_pos valid]
  rfl

/-- The lower case of a letter beyond ASCII has no null byte. -/
theorem null_not_mem_mapCase (given : c ≠ '\x00') :
    '\x00' ∉ Text.mapCase Text.lowerRanges Text.lowerExpansions c := by
  have expansions : ∀ entry ∈ Text.lowerExpansions, ∀ code ∈ entry.2, Char.ofNat code ≠ '\x00' :=
    by decide
  have ranges : ∀ range ∈ Text.lowerRanges, 0 < range.first + range.shift ∧
      (range.last + range.shift < 0xd800 ∨
        0xdfff < range.first + range.shift ∧ range.last + range.shift < 0x110000) := by
    decide +kernel
  intro member
  unfold Text.mapCase at member
  split at member
  next codes found =>
    obtain ⟨before, after, same, -⟩ := List.lookup_eq_some_iff.mp found
    obtain ⟨code, listed, isNull⟩ := List.mem_map.mp member
    have entry : (c.toNat, codes) ∈ Text.lowerExpansions := by simp [same]
    exact expansions _ entry code listed isNull
  · split at member
    next range found =>
      have holds := List.find?_some found
      obtain ⟨positive, valid⟩ := ranges range (List.mem_of_find?_eq_some found)
      simp only [Bool.and_eq_true, decide_eq_true_eq] at holds
      have isNull : '\x00' = Char.ofNat (c.toNat + range.shift).toNat :=
        List.mem_singleton.mp member
      have code :=
        toNat_ofNat (show (c.toNat + range.shift).toNat.isValidChar
          by unfold Nat.isValidChar; omega)
      rw [← isNull] at code
      change 0 = (c.toNat + range.shift).toNat at code
      omega
    · exact given (List.mem_singleton.mp member).symm

/-- The lower case of a character is a null byte only for the null byte. -/
theorem null_mem_lowerChar : '\x00' ∈ Text.lowerChar c ↔ c = '\x00' := by
  unfold Text.lowerChar
  split
  next ascii =>
    have each : ∀ code < 128, '\x00' ∈ [(Char.ofNat code).toLower] ↔ Char.ofNat code = '\x00' :=
      by decide
    have here := each c.toNat ascii
    rwa [Char.ofNat_toNat] at here
  next beyond =>
    have given : c ≠ '\x00' := by
      rintro rfl
      exact beyond (by decide)
    exact iff_of_false (null_not_mem_mapCase given) given

/-- Lower case neither adds nor removes null bytes. -/
theorem null_mem_lowerFrom (afterLetter : Bool) (text : List Char) :
    '\x00' ∈ Text.lowerFrom afterLetter text ↔ '\x00' ∈ text := by
  induction text generalizing afterLetter with
  | nil => rfl
  | cons head rest ih =>
    rw [Text.lowerFrom, List.mem_append, ih, List.mem_cons]
    refine or_congr_left ?_
    split
    next isSigma =>
      have sigma : head = 'Σ' := by
        simp only [Bool.and_eq_true, decide_eq_true_eq] at isSigma
        exact isSigma.1.1
      subst sigma
      decide
    · rw [null_mem_lowerChar]
      exact eq_comm

/-- The unit of an SQLite modifier has a null byte exactly if the unit has one. -/
theorem null_mem_modifierUnit : '\x00' ∈ (modifierUnit unit).toList ↔ '\x00' ∈ unit.toList := by
  have lowered : '\x00' ∈ (Text.lower unit).toList ↔ '\x00' ∈ unit.toList := by
    rw [Text.lower, String.toList_ofList]
    exact null_mem_lowerFrom false _
  unfold modifierUnit
  rw [String.toList_ofList, ← lowered]
  split
  next plural =>
    -- The letter that is dropped is no null byte.
    obtain ⟨front, same⟩ := List.getLast?_eq_some_iff.mp plural
    rw [same]
    simp
  · exact Iff.rfl

end CelWhere.Surface
