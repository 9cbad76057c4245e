import CelWhere.Convert.Context
import CelWhere.Proofs.Grammar
import CelWhere.Proofs.Lexical.Reading
import CelWhere.Sql.Like
import CelWhere.Sql.Time

/-! # Characters of numbers and names, and quoted content

Numbers and names have few characters, also after a change of their case. Texts with their quotes
doubled can stand inside a quoted region.

* `Lexical.shortest_subset` — the characters of doubles;
* `Lexical.isNameChar_upper`, `Lexical.isNameChar_modifierUnit` — those of names in another case;
* `Lexical.quotable_doubleQuotes`, `Lexical.quotable_likePattern` — quoted content. -/

namespace CelWhere.Lexical

variable {text : List Char}

/-! ## Numbers -/

/-- Decimal digits are plain digits. -/
theorem isPlainDigit_digitsOf (fuel value : Nat) {tail : List Char}
    (each : ∀ c ∈ tail, Text.isPlainDigit c) :
    ∀ c ∈ Integer.digitsOf fuel value tail, Text.isPlainDigit c := by
  -- Digits are put before the tail from the last one on.
  induction fuel generalizing value tail with
  | zero => exact each
  | succ fuel ih =>
    have lastDigit : ∀ digit < 10, Text.isPlainDigit (Char.ofNat ('0'.toNat + digit)) = true :=
      by decide
    have longer : ∀ c ∈ Char.ofNat ('0'.toNat + value % 10) :: tail, Text.isPlainDigit c := by
      simpa using ⟨lastDigit _ (Nat.mod_lt _ (by decide)), each⟩
    unfold Integer.digitsOf
    split
    · exact longer
    · exact ih _ longer

theorem isPlainDigit_natDigits (value : Nat) : ∀ c ∈ Integer.natDigits value, Text.isPlainDigit c :=
  isPlainDigit_digitsOf _ _ (by simp)

/-- The characters of decimal numbers, with those of the words for infinities and for no number. -/
def numerals : List Char := "0123456789+-.einfa".toList

/-- Plain digits are among them. -/
theorem mem_numerals_of_isPlainDigit {c : Char} (isDigit : Text.isPlainDigit c) : c ∈ numerals := by
  have small : c.toNat < 128 := by
    simp only [Text.isPlainDigit, Bool.and_eq_true, decide_eq_true_eq, Char.le_def,
      UInt32.le_iff_toNat_le] at isDigit
    exact Nat.lt_of_le_of_lt isDigit.2 (by decide)
  have each : ∀ code < 128, Text.isPlainDigit (Char.ofNat code) → Char.ofNat code ∈ numerals :=
    by decide
  have here := each c.toNat small
  rw [Char.ofNat_toNat] at here
  exact here isDigit

theorem natDigits_subset (value : Nat) : Integer.natDigits value ⊆ numerals :=
  fun c member => mem_numerals_of_isPlainDigit (isPlainDigit_natDigits value c member)

/-- Exponents are numerals. -/
theorem exponentText_subset (exponent : Int) : Binary64.exponentText exponent ⊆ numerals := by
  have digits := natDigits_subset exponent.natAbs
  have sign : (if exponent < 0 then '-' else '+') ∈ numerals := by
    split <;> decide
  refine List.cons_subset.mpr ⟨sign, ?_⟩
  split
  · exact List.cons_subset.mpr ⟨by decide, digits⟩
  · exact digits

/-- Repeated zeros are numerals. -/
theorem zeros_subset (count : Nat) : List.replicate count '0' ⊆ numerals := by
  intro c member
  rw [List.eq_of_mem_replicate member]
  decide

/-- Digits with a decimal point are numerals. -/
theorem layout_subset {digits : List Char} (within : digits ⊆ numerals) (place : Int) :
    Binary64.layout digits place ⊆ numerals := by
  have point : '.' ∈ numerals := by decide
  have first (count : Nat) : digits.take count ⊆ numerals :=
    List.Subset.trans (List.take_subset _ _) within
  have last (count : Nat) : digits.drop count ⊆ numerals :=
    List.Subset.trans (List.drop_subset _ _) within
  unfold Binary64.layout
  split
  · -- Without an exponent: the point before, behind or between the digits.
    split
    · exact List.append_subset.mpr
        ⟨List.cons_subset.mpr ⟨by decide, List.cons_subset.mpr ⟨point, zeros_subset _⟩⟩, within⟩
    · dsimp only
      split
      · exact List.append_subset.mpr ⟨List.append_subset.mpr ⟨within, zeros_subset _⟩, by decide⟩
      · exact List.append_subset.mpr ⟨first _, List.cons_subset.mpr ⟨point, last _⟩⟩
  · have fraction : (if (digits.drop 1).isEmpty then [] else '.' :: digits.drop 1) ⊆ numerals := by
      split
      · exact List.nil_subset _
      · exact List.cons_subset.mpr ⟨point, last _⟩
    exact List.append_subset.mpr ⟨List.append_subset.mpr ⟨first _, fraction⟩,
      List.cons_subset.mpr ⟨by decide, exponentText_subset _⟩⟩

/-- Shortest decimal texts of doubles are numerals. -/
theorem shortest_subset (value : Binary64) : value.shortest.toList ⊆ numerals := by
  have trimmed (digits : List Char) (within : digits ⊆ numerals) :
      Binary64.dropTrailingZeros digits ⊆ numerals :=
    fun c member => within (List.mem_reverse.mp
      (List.dropWhile_subset _ (List.mem_reverse.mp member)))
  unfold Binary64.shortest
  split
  next negative significand exponent =>
    have body : (if significand = 0 then ['0', '.', '0'] else
        Binary64.layout (Binary64.shortestDigits significand exponent).1
          (Binary64.shortestDigits significand exponent).2) ⊆ numerals := by
      split
      · decide
      · exact layout_subset (trimmed _ (natDigits_subset _)) _
    rw [String.toList_ofList]
    split
    · exact List.cons_subset.mpr ⟨by decide, body⟩
    · exact body
  · split <;> decide
  · decide

/-! ## Names -/

/-- The characters of names are those of ASCII, and changing their case keeps them. -/
theorem isNameChar_case {c : Char} (isName : Lexer.isNameChar c) :
    c.toNat < 128 ∧ Lexer.isNameChar c.toUpper ∧ Lexer.isNameChar c.toLower := by
  have ascii : c.toNat < 128 := by
    simp only [Lexer.isNameChar, Lexer.isNameStart, Text.isPlainDigit, Bool.or_eq_true,
      Bool.and_eq_true, decide_eq_true_eq, Char.le_def, UInt32.le_iff_toNat_le] at isName
    rcases isName with ((rfl | ⟨-, high⟩) | ⟨-, high⟩) | ⟨-, high⟩
    · decide
    · exact Nat.lt_of_le_of_lt high (by decide)
    · exact Nat.lt_of_le_of_lt high (by decide)
    · exact Nat.lt_of_le_of_lt high (by decide)
  -- The rest is checked for the 128 characters one by one.
  have both : ∀ code < 128, Lexer.isNameChar (Char.ofNat code) →
      Lexer.isNameChar (Char.ofNat code).toUpper ∧
      Lexer.isNameChar (Char.ofNat code).toLower := by decide
  have here := both c.toNat ascii
  rw [Char.ofNat_toNat] at here
  exact ⟨ascii, here isName⟩

/-- A name in upper case has only characters of names. -/
theorem isNameChar_upper {name : String} (isName : ∀ c ∈ name.toList, Lexer.isNameChar c) :
    ∀ c ∈ (Text.upper name).toList, Lexer.isNameChar c := by
  unfold Text.upper
  rw [String.toList_ofList]
  intro c member
  obtain ⟨original, found, within⟩ := List.mem_flatMap.mp member
  obtain ⟨ascii, upper, -⟩ := isNameChar_case (isName original found)
  simp only [Text.upperChar, if_pos ascii, List.mem_singleton] at within
  exact within ▸ upper

/-- Characters of ASCII change to lower case one by one. -/
theorem lowerFrom_ascii (ascii : ∀ c ∈ text, c.toNat < 128) (afterLetter : Bool) :
    Text.lowerFrom afterLetter text = text.map Char.toLower := by
  induction text generalizing afterLetter with
  | nil => rfl
  | cons head rest ih =>
    rw [List.forall_mem_cons] at ascii
    have noSigma : head ≠ 'Σ' := by
      rintro rfl
      exact absurd ascii.1 (by decide)
    simp [Text.lowerFrom, Text.lowerChar, noSigma, ascii.1, ih ascii.2]

/-- The unit of an SQLite modifier has only characters of names if the unit has. -/
theorem isNameChar_modifierUnit {unit : String} (isName : ∀ c ∈ unit.toList, Lexer.isNameChar c) :
    ∀ c ∈ (modifierUnit unit).toList, Lexer.isNameChar c := by
  have lowered : ∀ c ∈ (Text.lower unit).toList, Lexer.isNameChar c := by
    rw [Text.lower, String.toList_ofList, lowerFrom_ascii fun c member =>
      (isNameChar_case (isName c member)).1]
    intro c member
    obtain ⟨original, found, rfl⟩ := List.mem_map.mp member
    exact (isNameChar_case (isName original found)).2.2
  unfold modifierUnit
  rw [String.toList_ofList]
  split
  · exact fun c member => lowered c (List.dropLast_subset _ member)
  · exact lowered

/-- Hexadecimal digits are characters of names. -/
theorem isNameChar_upperHex (bytes : List UInt8) : ∀ c ∈ upperHex bytes, Lexer.isNameChar c := by
  have digit : ∀ value < 16, Lexer.isNameChar (Text.hexDigit value).toUpper = true := by decide
  intro c member
  obtain ⟨byte, -, within⟩ := List.mem_flatMap.mp member
  have small : byte.toNat < 256 := byte.toNat_lt
  simp only [Text.hexPair, List.map_cons, List.map_nil, List.mem_cons, List.not_mem_nil,
    or_false] at within
  rcases within with rfl | rfl
  · exact digit _ (by omega)
  · exact digit _ (Nat.mod_lt _ (by decide))

/-! ## Quoted content -/

/-- Quotable texts one after the other. -/
theorem Quotable.append {first second : List Char} (one : Quotable first) (two : Quotable second) :
    Quotable (first ++ second) := by
  obtain ⟨finishOne, marksOne⟩ := one
  obtain ⟨finishTwo, marksTwo⟩ := two
  refine ⟨by rw [finish_append, finishOne, finishTwo], ?_⟩
  rw [marks_append, marksOne, finishOne, marksTwo]
  rfl

/-- A text that is escaped character by character is quotable if every escaped character is. -/
theorem quotable_flatMap {escape : Char → List Char} (each : ∀ c, Quotable (escape c)) :
    Quotable (text.flatMap escape) := by
  induction text with
  | nil => exact ⟨rfl, rfl⟩
  | cons head rest ih =>
    rw [List.flatMap_cons]
    exact (each head).append ih

theorem quotable_singleton {c : Char} (noQuote : c ≠ '\'') : Quotable [c] := by
  simp [Quotable, marks, Place.next, Place.mark, noQuote]

/-- A text without quotes is quotable. -/
theorem quotable_of_not_mem (noQuote : '\'' ∉ text) : Quotable text := by
  induction text with
  | nil => exact ⟨rfl, rfl⟩
  | cons head rest ih =>
    have other : head ≠ '\'' := fun same => noQuote (same ▸ .head _)
    exact (quotable_singleton other).append (ih fun member => noQuote (.tail _ member))

/-- A text with its quotes doubled is quotable. -/
theorem quotable_doubleQuotes (text : List Char) : Quotable (doubleQuotes text) := by
  refine quotable_flatMap fun c => ?_
  split
  · exact ⟨rfl, rfl⟩
  next noQuote => exact quotable_singleton noQuote

/-- A text as a pattern is quotable. -/
theorem quotable_likePattern (text : List Char) : Quotable (likePattern text) := by
  refine quotable_flatMap fun c => ?_
  split
  next special =>
    -- Backslashes and wildcards get a backslash, which has no meaning in these literals.
    have noQuote : c ≠ '\'' := by
      rintro rfl
      simp at special
    exact (quotable_singleton (by decide)).append (quotable_singleton noQuote)
  · split
    · exact ⟨rfl, rfl⟩
    next noQuote => exact quotable_singleton noQuote

end CelWhere.Lexical
