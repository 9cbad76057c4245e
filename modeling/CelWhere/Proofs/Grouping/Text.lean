import CelWhere.Proofs.Numeral
import CelWhere.Proofs.Grouping.Reading
import Mathlib.Data.List.SplitBy

/-! # Reading the text of conditions

A text is cut into runs of characters that belong together: words, numbers and the signs of two
characters. Each run other than a blank is a lexeme.

* `lexemes?`, `read?` — the lexemes of a text, and the tree that it is read as;
* `Operation.spelling` — the text of a tree, without parentheses besides those of the tree;
* `Operation.lexes_spelling` — this text has the lexemes of the tree, so `read?_spelling` reads a
  grouped tree back. -/

namespace CelWhere.Grouping

variable {c : Char}

/-! ## Lexemes of a text -/

/-- Whether two characters next to each other belong to one lexeme: the characters of words and
numbers do, and an equals sign belongs to the sign before it. -/
def glued (first second : Char) : Bool :=
  (Lexer.isNameChar first && Lexer.isNameChar second) ||
    ((first = '<' || first = '>' || first = '!') && second = '=')

/-- The operators that are written by signs and not by words. -/
def signOperators : List Operator :=
  [.add, .sub, .mul, .div] ++ Comparator.all.map .compare

/-- The lexemes that are neither words nor numbers. -/
def signs : List (List Char × Lexeme) :=
  [(['('], .opening), ([')'], .closing), ([','], .comma)] ++
    signOperators.map fun operator => (operator.sign.toList, .operator operator)

/-- The lexeme of a word. The words of operators are known in either case. -/
def Lexeme.ofWord (word : String) : Lexeme :=
  if lowerName word = "or" then .operator .or
  else if lowerName word = "and" then .operator .and
  else if lowerName word = "not" then .not
  else .name word

/-- The lexeme of a run of characters, if it is one. -/
def Lexeme.ofRun? (run : List Char) : Option Lexeme :=
  if run.head?.any Lexer.isNameStart then some (.ofWord (String.ofList run))
  else if run.all Text.isPlainDigit then some (.number (Nat.ofDigitChars 10 run 0))
  else signs.lookup run

/-- The lexemes of a text, if each run of it is one or a blank. -/
def lexemes? (text : List Char) : Option (List Lexeme) :=
  ((text.splitBy glued).filter (· ≠ [' '])).mapM Lexeme.ofRun?

/-- The tree that a text is read as. -/
def read? (text : String) : Option Operation :=
  (lexemes? text.toList).bind readLexemes

/-! ## Text of a tree -/

namespace Operation

/-- The text of a tree, with parentheses only where the tree has them. -/
def spelling : Operation → List Char
  | .name text => text.toList
  | .number value => Nat.toDigits 10 value
  | .paren body => '(' :: (body.spelling ++ [')'])
  | .minus body => '-' :: body.spelling
  | .not body => "NOT".toList ++ ' ' :: body.spelling
  | .binary operator left right =>
    left.spelling ++ ' ' :: (operator.sign.toList ++ ' ' :: right.spelling)
  | .remainder left right =>
    "MOD".toList ++ '(' :: (left.spelling ++ ',' :: ' ' :: (right.spelling ++ [')']))

/-- The names in a tree. -/
def names : Operation → List String
  | .name text => [text]
  | .number _ => []
  | .paren body | .minus body | .not body => body.names
  | .binary _ left right | .remainder left right => left.names ++ right.names

end Operation

/-! ## Cutting a text -/

/-- A text has certain lexemes. -/
def Lexes (text : List Char) (lexemes : List Lexeme) : Prop :=
  lexemes? text = some lexemes

/-- A character that belongs to no lexeme with a neighbour. -/
def Alone (c : Char) : Prop :=
  ∀ neighbour, glued c neighbour = false ∧ glued neighbour c = false

/-- Characters that are neither in names nor in comparison signs stand alone. -/
theorem alone_of_not_mem (noName : Lexer.isNameChar c = false) (noSign : c ∉ ['<', '>', '!', '=']) :
    Alone c := by
  simp only [List.mem_cons, List.not_mem_nil, or_false, not_or] at noSign
  intro neighbour
  constructor
  · simp [glued, noName, noSign]
  · simp [glued, noName, noSign]

/-- Digits do not start names. -/
theorem isNameStart_of_isPlainDigit (digit : Text.isPlainDigit c) :
    Lexer.isNameStart c = false := by
  have bounds : 48 ≤ c.val.toNat ∧ c.val.toNat ≤ 57 := by
    simpa [Text.isPlainDigit, Char.le_def, UInt32.le_iff_toNat_le] using digit
  have notUnderscore : c ≠ '_' := by
    rintro rfl
    exact absurd bounds.2 (by decide)
  simp only [Lexer.isNameStart, notUnderscore, Char.le_def, UInt32.le_iff_toNat_le, Char.reduceVal,
    UInt32.reduceToNat]
  grind

/-- Behind and before a character that stands alone a text is cut. -/
theorem splitBy_alone (alone : Alone c) (before after : List Char) :
    (before ++ c :: after).splitBy glued = before.splitBy glued ++ [c] :: after.splitBy glued := by
  rw [List.splitBy_append_cons after fun x _ => (alone x).2]
  have behind : ([c] ++ after).splitBy glued = [c].splitBy glued ++ after.splitBy glued := by
    apply List.splitBy_append
    intro x last y _
    simp only [List.getLast?_singleton, Option.mem_some_iff] at last
    exact last ▸ (alone y).1
  rw [show c :: after = [c] ++ after from rfl, behind]
  rfl

namespace Lexes

variable {second first : List Lexeme} {text : List Char}

/-- The empty text has no lexemes. -/
theorem nil : Lexes [] [] := rfl

/-- Two texts with a character between them that stands alone. -/
theorem between {before after : List Char} {middle : List Lexeme} (alone : Alone c)
    (one : Lexes before first) (separator : Lexes [c] middle) (two : Lexes after second) :
    Lexes (before ++ c :: after) (first ++ middle ++ second) := by
  have cut : lexemes? (before ++ c :: after) =
      (lexemes? before).bind fun a => (lexemes? [c]).bind fun b => (lexemes? after).map fun d =>
        a ++ b ++ d := by
    have single : [c].splitBy glued = [[c]] := rfl
    simp only [lexemes?, splitBy_alone alone, single]
    rw [show before.splitBy glued ++ [c] :: after.splitBy glued =
      before.splitBy glued ++ ([[c]] ++ after.splitBy glued) from rfl]
    simp only [List.filter_append, List.mapM_append]
    cases List.mapM Lexeme.ofRun? (List.filter (· ≠ [' ']) (before.splitBy glued)) <;>
      cases List.mapM Lexeme.ofRun? (List.filter (· ≠ [' ']) [[c]]) <;>
        cases List.mapM Lexeme.ofRun? (List.filter (· ≠ [' ']) (after.splitBy glued)) <;>
          simp
  rw [Lexes, cut, one, separator, two]
  rfl

/-- A text behind a character that stands alone. -/
theorem behind (alone : Alone c) (separator : Lexes [c] first) (lexes : Lexes text second) :
    Lexes (c :: text) (first ++ second) :=
  between alone nil separator lexes

/-- A text before a character that stands alone. -/
theorem before (alone : Alone c) (lexes : Lexes text first) (separator : Lexes [c] second) :
    Lexes (text ++ [c]) (first ++ second) := by
  simpa using between alone lexes separator nil

/-- A run of characters of names is one lexeme. -/
theorem run {lexeme : Lexeme} (given : text ≠ []) (each : ∀ c ∈ text, Lexer.isNameChar c)
    (read : Lexeme.ofRun? text = some lexeme) : Lexes text [lexeme] := by
  have pairwise : text.Pairwise fun first second => glued first second :=
    List.pairwise_of_forall_mem_list fun first one second two => by
      simp [glued, each first one, each second two]
  have notBlank : text ≠ [' '] := by
    rintro rfl
    exact absurd (each ' ' (by simp)) (by decide)
  simp [Lexes, lexemes?, List.splitBy_of_isChain given pairwise.isChain, notBlank, read]

/-- A word that is not one of an operator is a name. -/
theorem name {text : String} (given : text ≠ "") (start : text.toList.head?.all Lexer.isNameStart)
    (each : ∀ c ∈ text.toList, Lexer.isNameChar c)
    (noWord : lowerName text ∉ ["or", "and", "not"]) :
    Lexes text.toList [.name text] := by
  have filled : text.toList ≠ [] := by simpa using given
  simp only [List.mem_cons, List.not_mem_nil, or_false, not_or] at noWord
  refine run filled each ?_
  have isWord : text.toList.head?.any Lexer.isNameStart := by
    cases found : text.toList with
    | nil => exact absurd found filled
    | cons head rest => simpa [found] using start
  rw [Lexeme.ofRun?, if_pos isWord, String.ofList_toList, Lexeme.ofWord, if_neg noWord.1,
    if_neg noWord.2.1, if_neg noWord.2.2]

/-- A number is one lexeme. -/
theorem number (value : Nat) : Lexes (Nat.toDigits 10 value) [.number value] := by
  have digits : ∀ c ∈ Nat.toDigits 10 value, Text.isPlainDigit c :=
    fun c => Integer.isPlainDigit_of_mem_toDigits
  have given : Nat.toDigits 10 value ≠ [] := Nat.toDigits_ne_nil
  refine run given (fun c member => by simp [Lexer.isNameChar, digits c member]) ?_
  have noWord : (Nat.toDigits 10 value).head?.any Lexer.isNameStart = false := by
    cases found : Nat.toDigits 10 value with
    | nil => exact absurd found given
    | cons head rest => exact isNameStart_of_isPlainDigit (digits head (by simp [found]))
  rw [Lexeme.ofRun?, noWord, if_neg (by simp), if_pos (List.all_eq_true.mpr digits),
    Nat.ofDigitChars_ten_toDigits]

end Lexes

/-- The text of an operator is its lexeme. -/
theorem lexes_sign (operator : Operator) : Lexes operator.sign.toList [.operator operator] := by
  rcases operator with _ | _ | ⟨_ | _⟩ | _ <;> rfl

/-- Where the names of a tree are lexemes, the text of the tree has the lexemes of the tree. -/
theorem Operation.lexes_spelling {operation : Operation}
    (names : ∀ text ∈ operation.names, Lexes text.toList [.name text]) :
    Lexes operation.spelling operation.lexemes := by
  have blank : Alone ' ' := alone_of_not_mem (by decide) (by decide)
  have noLexeme : Lexes [' '] [] := rfl
  induction operation with
  | name text => exact names text (by simp [Operation.names])
  | number value => exact .number value
  | paren body ih =>
    have inside := ih names
    have opening : Alone '(' := alone_of_not_mem (by decide) (by decide)
    have closing : Alone ')' := alone_of_not_mem (by decide) (by decide)
    exact .behind opening rfl (inside.before closing rfl)
  | minus body ih =>
    have sign : Alone '-' := alone_of_not_mem (by decide) (by decide)
    exact .behind sign rfl (ih names)
  | not body ih =>
    have word : Lexes "NOT".toList [.not] := rfl
    exact .between blank word noLexeme (ih names)
  | binary operator left right leftIh rightIh =>
    have leftLexes := leftIh fun text member => names text (by simp [Operation.names, member])
    have rightLexes := rightIh fun text member => names text (by simp [Operation.names, member])
    have operatorLexes := Lexes.between blank (lexes_sign operator) noLexeme rightLexes
    simpa [Operation.spelling, Operation.lexemes] using Lexes.between blank leftLexes
      noLexeme operatorLexes
  | remainder left right leftIh rightIh =>
    have leftLexes := leftIh fun text member => names text (by simp [Operation.names, member])
    have rightLexes := rightIh fun text member => names text (by simp [Operation.names, member])
    have opening : Alone '(' := alone_of_not_mem (by decide) (by decide)
    have closing : Alone ')' := alone_of_not_mem (by decide) (by decide)
    have comma : Alone ',' := alone_of_not_mem (by decide) (by decide)
    have call : Lexes "MOD".toList [.name "MOD"] := rfl
    have second : Lexes (right.spelling ++ [')']) (right.lexemes ++ [.closing]) :=
      rightLexes.before closing rfl
    have behind : Lexes (' ' :: (right.spelling ++ [')'])) ([] ++ (right.lexemes ++ [.closing])) :=
      .behind blank noLexeme second
    have first : Lexes (left.spelling ++ ',' :: ' ' :: (right.spelling ++ [')']))
        (left.lexemes ++ [.comma] ++ (right.lexemes ++ [.closing])) :=
          .between comma leftLexes rfl behind
    have whole := Lexes.between opening call (rfl : Lexes ['('] [.opening]) first
    simpa [Operation.spelling, Operation.lexemes] using whole

/-- **Grouped trees are read back from their text.** -/
theorem read?_spelling {operation : Operation} (grouped : operation.Grouped)
    (names : ∀ text ∈ operation.names, Lexes text.toList [.name text]) :
    read? (String.ofList operation.spelling) = some operation := by
  have lexes : lexemes? operation.spelling = some operation.lexemes :=
    operation.lexes_spelling names
  rw [read?, String.toList_ofList, lexes, Option.bind_some, readLexemes_lexemes grouped]

-- A negation takes the comparison behind it, and a difference is the left operand of the next.
example : read? "NOT a = b" = some (.not (.binary (.compare .eq) (.name "a") (.name "b"))) := by rfl

example : read? "a - b - 1" =
    some (.binary .sub (.binary .sub (.name "a") (.name "b")) (.number 1)) := by rfl

end CelWhere.Grouping
