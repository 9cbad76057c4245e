import CelWhere.Proofs.Regex.Screening
import Mathlib.Data.List.Basic

/-! # Patterns token by token

A pattern is made of escaped characters, openers of groups and single characters, outside of bracket
expressions and inside of them. A translation should go by these tokens. The replacements go by the
text, so they also find what is spread over two tokens or means something else in a bracket
expression.

* `Regex.Token`, `Regex.tokens` — the tokens of a pattern;
* `Regex.Token.image` — their translation;
* `Regex.Clash` — the tokens in which the replacements find something else;
* `Regex.rewritten_eq_iff` — the replacements give the translation exactly where no tokens clash. -/

namespace CelWhere.Regex

variable {letter c : Char} {text rest : List Char}

/-! ## Tokens -/

/-- A token of a pattern. -/
inductive Token
  /-- A backslash and the character behind it, which may be inside of a bracket expression. -/
  | pair (inside : Bool) (escaped : Char)
  /-- The opener `(?:` of a group that captures nothing. -/
  | group
  /-- Any other character, which may be inside of a bracket expression. -/
  | single (inside : Bool) (c : Char)
  deriving DecidableEq, Repr

/-- The characters of a token. -/
def Token.chars : Token → List Char
  | .pair _ escaped => ['\\', escaped]
  | .group => ['(', '?', ':']
  | .single _ c => [c]

/-- A place in a pattern. -/
inductive Place
  /-- Outside of bracket expressions. -/
  | outside
  /-- Behind the bracket that opens a bracket expression. -/
  | start
  /-- Behind that bracket and a circumflex. -/
  | negated
  /-- Behind at least one item of a bracket expression. -/
  | bracket
  /-- Inside of a class with a name, such as `[:alpha:]`. -/
  | name
  deriving DecidableEq, Repr

namespace Place

/-- Whether a place is inside of a bracket expression. -/
def inside (place : Place) : Bool :=
  place ≠ .outside

/-- Whether the text behind a bracket makes it the start of a class with a name. -/
def startsName (rest : List Char) : Bool :=
  [':'].isPrefixOf rest && [':', ']'].isPrefixOf (rest.tail.dropWhile fun c => c.isAlpha || c = '^')

/-- The place behind an item of a bracket expression. -/
def behindItem (c : Char) (rest : List Char) : Place :=
  if c = '[' && startsName rest then .name else .bracket

/-- The place behind a character of a bracket expression. A closing bracket that comes first does
not close it. -/
def step (place : Place) (c : Char) (rest : List Char) : Place :=
  match place with
  | .outside => .outside
  | .start => if c = '^' then .negated else behindItem c rest
  | .negated => behindItem c rest
  | .bracket => if c = ']' then .outside else behindItem c rest
  | .name => if c = ']' then .bracket else .name

/-- The place behind an escaped character. -/
def behindPair (place : Place) : Place :=
  if place = .outside then .outside else .bracket

/-- Whether the bracket expression around a place is closed. -/
def closes : Place → List Char → Bool
  | .outside, _ => true
  | _, [] => false
  | place, '\\' :: _ :: rest => closes place.behindPair rest
  | place, c :: rest => closes (place.step c rest) rest

/-- The place behind a character. A bracket that nothing closes opens no bracket expression. -/
def next (place : Place) (c : Char) (rest : List Char) : Place :=
  if place = .outside && c = '[' && closes .start rest then .start else place.step c rest

end Place

/-- The tokens of a pattern from a place on. -/
def tokensFrom : Place → List Char → List Token
  | _, [] => []
  | place, '\\' :: escaped :: rest => .pair place.inside escaped :: tokensFrom place.behindPair rest
  | .outside, '(' :: '?' :: ':' :: rest => .group :: tokensFrom .outside rest
  | place, c :: rest => .single place.inside c :: tokensFrom (place.next c rest) rest

/-- The tokens of a pattern. -/
def tokens (text : List Char) : List Token :=
  tokensFrom .outside text

variable (place : Place)

/-- The tokens are the whole pattern. -/
theorem flatMap_chars_tokensFrom (text : List Char) :
    (tokensFrom place text).flatMap Token.chars = text := by
  fun_induction tokensFrom place text with
  | case1 => rfl
  | case2 place escaped rest ih => simp [Token.chars, ih]
  | case3 rest ih => simp [Token.chars, ih]
  | case4 place c rest _ _ ih => simp [Token.chars, ih]

/-! ## Translation -/

/-- The form of a shorthand in a bracket expression. -/
def bareForm? : Char → Option (List Char)
  | 'd' => some "[:digit:]".toList
  | 'w' => some "[:alnum:]_".toList
  | 's' => some "[:space:]".toList
  | _ => none

/-- The translation of a token. -/
def Token.image : Token → List Char
  | .pair false letter => (posixForm? letter).getD ['\\', letter]
  | .pair true letter => (bareForm? letter).getD ['\\', letter]
  | .group => ['(']
  | .single _ c => [c]

/-- The forms of a shorthand outside and inside of bracket expressions, and its own characters,
differ at the start. -/
theorem take_form_ne {form : List Char} (isForm : posixForm? letter = some form) :
    2 ≤ form.length ∧ form.take 2 ≠ ['\\', letter] ∧
      2 ≤ (Token.pair true letter).image.length ∧
      form.take 2 ≠ (Token.pair true letter).image.take 2 := by
  unfold posixForm? at isForm
  split at isForm <;> cases isForm <;> decide +kernel

/-- Texts that differ in their first two characters go on to different texts. -/
theorem append_ne_of_take {first second others : List Char} (long : 2 ≤ first.length)
    (longToo : 2 ≤ second.length) (differs : first.take 2 ≠ second.take 2) :
    first ++ text ≠ second ++ others := by
  intro same
  have start := congrArg (List.take 2) same
  rw [List.take_append_of_le_length long, List.take_append_of_le_length longToo] at start
  exact differs start

/-- A shorthand that only a bracket expression has, is none outside. -/
theorem bareForm?_eq_none (isForm : posixForm? letter = none) : bareForm? letter = none := by
  unfold bareForm?
  split
  case h_4 => rfl
  all_goals cases isForm

/-- What is no shorthand is kept everywhere. -/
theorem image_pair_of_none (isForm : posixForm? letter = none) (inside : Bool) :
    (Token.pair inside letter).image = ['\\', letter] := by
  cases inside with
  | false => simp [Token.image, isForm]
  | true => simp [Token.image, bareForm?_eq_none isForm]

/-! ## Clashes -/

/-- Tokens in which the replacements find what is none of them. -/
inductive Clash : List Token → Prop
  /-- A shorthand in a bracket expression. -/
  | bracketed {letter : Char} (isForm : (posixForm? letter).isSome) : Clash [.pair true letter]
  /-- An escaped backslash and the letter of a shorthand. -/
  | backslash {inside inside' : Bool} {letter : Char} (isForm : (posixForm? letter).isSome) :
    Clash [.pair inside '\\', .single inside' letter]
  /-- An escaped parenthesis and what would make it the opener of a group. -/
  | escaped {inside inside' inside'' : Bool} :
    Clash [.pair inside '(', .single inside' '?', .single inside'' ':']
  /-- The characters of an opener in a bracket expression. -/
  | opener {inside inside' : Bool} : Clash [.single true '(', .single inside '?',
    .single inside' ':']

/-- No tokens clash. -/
def Apart (list : List Token) : Prop :=
  ∀ part, Clash part → ¬part <:+: list

/-- Tokens at the start of a list clash. -/
def ClashesFirst (list : List Token) : Prop :=
  ∃ part, Clash part ∧ part <+: list

variable {list : List Token}

/-- Tokens clash at the start or later. -/
theorem apart_cons {token : Token} :
    Apart (token :: list) ↔ ¬ClashesFirst (token :: list) ∧ Apart list := by
  unfold Apart ClashesFirst
  simp only [List.infix_cons_iff, not_or, not_exists, not_and]
  exact ⟨fun each => ⟨fun part clash => (each part clash).1, fun part clash => (each part clash).2⟩,
    fun ⟨first, later⟩ part clash => ⟨first part clash, later part clash⟩⟩

/-- What clashes with an escaped character. -/
theorem clashesFirst_pair {inside : Bool} {escaped : Char} :
    ClashesFirst (.pair inside escaped :: list) ↔
      inside = true ∧ (posixForm? escaped).isSome ∨
      escaped = '\\' ∧ (∃ place letter, (posixForm? letter).isSome ∧
        [Token.single place letter] <+: list) ∨
      escaped = '(' ∧ ∃ first second, [Token.single first '?', Token.single second ':']
      <+: list := by
  constructor
  · rintro ⟨part, clash, before⟩
    cases clash with
    | bracketed isForm =>
      obtain ⟨same, -⟩ := List.cons_prefix_cons.mp before
      cases same
      exact .inl ⟨rfl, isForm⟩
    | backslash isForm =>
      obtain ⟨same, later⟩ := List.cons_prefix_cons.mp before
      cases same
      exact .inr (.inl ⟨rfl, _, _, isForm, later⟩)
    | escaped =>
      obtain ⟨same, later⟩ := List.cons_prefix_cons.mp before
      cases same
      exact .inr (.inr ⟨rfl, _, _, later⟩)
    | opener => cases (List.cons_prefix_cons.mp before).1
  · rintro (⟨rfl, isForm⟩ | ⟨rfl, place, letter, isForm, later⟩ | ⟨rfl, first, second, later⟩)
    · exact ⟨_, .bracketed isForm, by simp⟩
    · exact ⟨_, .backslash isForm, List.cons_prefix_cons.mpr ⟨rfl, later⟩⟩
    · exact ⟨_, .escaped, List.cons_prefix_cons.mpr ⟨rfl, later⟩⟩

/-- What clashes with a single character. -/
theorem clashesFirst_single {inside : Bool} :
    ClashesFirst (.single inside c :: list) ↔
      inside = true ∧ c = '(' ∧ ∃ first second,
      [Token.single first '?', Token.single second ':'] <+: list := by
  constructor
  · rintro ⟨part, clash, before⟩
    cases clash with
    | opener =>
      obtain ⟨same, later⟩ := List.cons_prefix_cons.mp before
      cases same
      exact ⟨rfl, rfl, _, _, later⟩
    | bracketed | backslash | escaped => cases (List.cons_prefix_cons.mp before).1
  · rintro ⟨rfl, rfl, first, second, later⟩
    exact ⟨_, .opener, List.cons_prefix_cons.mpr ⟨rfl, later⟩⟩

/-- Nothing clashes with the opener of a group. -/
theorem not_clashesFirst_group : ¬ClashesFirst (.group :: list) := by
  rintro ⟨part, clash, before⟩
  cases clash <;> cases (List.cons_prefix_cons.mp before).1

/-- Tokens at the start of a pattern are the start of its text. -/
theorem chars_prefix_of_tokensFrom {place : Place} (before : list <+: tokensFrom place text) :
    list.flatMap Token.chars <+: text := by
  obtain ⟨others, same⟩ := before
  have whole := flatMap_chars_tokensFrom place text
  rw [← same, List.flatMap_append] at whole
  exact ⟨_, whole⟩

/-- A character that opens no longer token is a token. -/
theorem tokensFrom_cons {place : Place} (noBackslash : c ≠ '\\') (noOpener : c ≠ '(') :
    tokensFrom place (c :: rest) = .single place.inside c :: tokensFrom
      (place.next c rest) rest := by
  rw [tokensFrom]
  · rintro escaped others rfl
    exact absurd rfl noBackslash
  · rintro others - rfl
    exact absurd rfl noOpener

/-- The letter of a shorthand is a token of its own. -/
theorem exists_single_iff {place : Place} :
    (∃ inside letter, (posixForm? letter).isSome ∧
      [Token.single inside letter] <+: tokensFrom place rest) ↔
      ¬Quiet rest := by
  constructor
  · rintro ⟨inside, letter, isForm, before⟩ quiet
    obtain ⟨others, rfl⟩ := chars_prefix_of_tokensFrom before
    rw [quiet letter rfl] at isForm
    cases isForm
  · intro loud
    obtain ⟨letter, form, others, isForm, rfl⟩ := (quiet_or_short rest).resolve_left loud
    refine ⟨place.inside, letter, by simp [isForm], ?_⟩
    rw [tokensFrom_cons (by rintro rfl; cases isForm) (by rintro rfl; cases isForm)]
    simp

/-- A question mark and a colon are two tokens. -/
theorem exists_mark_iff {place : Place} :
    (∃ first second, [Token.single first '?', Token.single second ':'] <+: tokensFrom place rest) ↔
      ['?', ':'] <+: rest := by
  constructor
  · rintro ⟨first, second, before⟩
    exact chars_prefix_of_tokensFrom before
  · rintro ⟨others, rfl⟩
    rw [List.cons_append, List.singleton_append, tokensFrom_cons (by decide) (by decide),
      tokensFrom_cons (by decide) (by decide)]
    exact ⟨_, _, tokensFrom _ others, rfl⟩

/-! ## Token by token -/

/-- What the replacements make of a text does not start with a mark that was taken out of it. -/
theorem rewritten_ne_mark (text : List Char) :
    rewritten text ≠ ['?', ':'] ++ (tokensFrom place text).flatMap Token.image := by
  induction size : text.length using Nat.strongRecOn generalizing place text with
  | _ size ih =>
    intro same
    -- The text itself starts with the mark, and so the same holds of what follows.
    have before : ['?', ':'] <+: rewritten text := ⟨_, same.symm⟩
    rw [rewritten, prefix_captureAll (by decide), prefix_toPosix (by simp)] at before
    obtain ⟨others, rfl⟩ := before
    rw [rewritten_append (by decide) (by decide), List.append_cancel_left_eq, List.cons_append,
      List.singleton_append, tokensFrom_cons (by decide) (by decide), tokensFrom_cons (by decide)
      (by decide)] at same
    exact ih others.length (by grind) _ others rfl same

/-- Where an escaped character or one in a bracket expression is taken for the parenthesis of an
opener, a mark is lost. -/
theorem rewritten_opener_ne (marked : ['?', ':'] <+: rest) :
    rewritten ('(' :: rest) ≠ '(' :: (tokensFrom place rest).flatMap Token.image := by
  obtain ⟨others, rfl⟩ := marked
  have opened : rewritten ('(' :: (['?', ':'] ++ others)) = '(' :: rewritten others :=
    rewritten_group others
  rw [opened, List.cons_append, List.singleton_append, tokensFrom_cons (by decide) (by decide),
    tokensFrom_cons (by decide) (by decide), Ne, List.cons_inj_right]
  exact rewritten_ne_mark _ others

/-- Where an escaped backslash is taken for the backslash of a shorthand, it is lost. -/
theorem rewritten_backslash_ne (loud : ¬Quiet rest) :
    rewritten ('\\' :: rest) ≠ '\\' :: (tokensFrom place rest).flatMap Token.image := by
  obtain ⟨letter, form, others, isForm, rfl⟩ := (quiet_or_short rest).resolve_left loud
  obtain ⟨long, differs, -⟩ := take_form_ne isForm
  rw [rewritten_short isForm, tokensFrom_cons (by rintro rfl; cases isForm)
    (by rintro rfl; cases isForm)]
  exact @append_ne_of_take _ form ['\\', letter] _ long (by simp) differs

/-- What the replacements make of the first token. -/
def Step (token : Token) (list : List Token) (rest : List Char) : Prop :=
  ¬ClashesFirst (token :: list) ∧ rewritten (token.chars ++ rest) = token.image ++ rewritten rest ∨
    ClashesFirst (token :: list) ∧ rewritten (token.chars ++ rest) ≠
    token.image ++ list.flatMap Token.image

/-- An escaped character is translated unless it clashes with what follows or stands in a bracket
expression. -/
theorem step_pair (inside : Bool) (escaped : Char) (place : Place) (rest : List Char) :
    Step (.pair inside escaped) (tokensFrom place rest) rest := by
  unfold Step
  rw [clashesFirst_pair, exists_single_iff, exists_mark_iff]
  cases isForm : posixForm? escaped with
  | some form =>
    have replaced : rewritten ((Token.pair inside escaped).chars ++ rest) =
        form ++ rewritten rest :=
      rewritten_short isForm rest
    rw [replaced]
    cases inside with
    | false =>
      have noBackslash : escaped ≠ '\\' := by
        rintro rfl
        cases isForm
      refine .inl ⟨?_, by simp [Token.image, isForm]⟩
      simp [noBackslash, Ne.symm (opener_ne_of_form isForm)]
    | true =>
      obtain ⟨long, -, longToo, differs⟩ := take_form_ne isForm
      exact .inr ⟨.inl ⟨rfl, rfl⟩, append_ne_of_take long longToo differs⟩
  | none =>
    have quiet : Quiet (escaped :: rest) := by
      rintro letter found
      obtain rfl : escaped = letter := by simpa using found
      exact isForm
    have kept : rewritten ((Token.pair inside escaped).chars ++ rest) =
        '\\' :: rewritten (escaped :: rest) :=
      rewritten_cons (fun _ => quiet) (by simp)
    rw [kept, image_pair_of_none isForm]
    by_cases clash : escaped = '\\' ∧ ¬Quiet rest ∨ escaped = '(' ∧ ['?', ':'] <+: rest
    · refine .inr ⟨.inr clash, ?_⟩
      rw [List.cons_append, List.singleton_append, Ne, List.cons_inj_right]
      rcases clash with ⟨rfl, loud⟩ | ⟨rfl, marked⟩
      · exact rewritten_backslash_ne place loud
      · exact rewritten_opener_ne place marked
    · rw [not_or, not_and, Classical.not_not, not_and] at clash
      refine .inl ⟨by simpa using clash, ?_⟩
      rw [rewritten_cons clash.1]
      · rfl
      · rw [List.cons_prefix_cons]
        exact fun ⟨same, marked⟩ => clash.2 same.symm marked

/-- A single character is kept unless it clashes with what follows in a bracket expression. -/
theorem step_single {inside : Bool} (ends : c = '\\' → rest = [])
    (noGroup : inside = false → ¬['(', '?', ':'] <+: c :: rest) :
    Step (.single inside c) (tokensFrom place rest) rest := by
  unfold Step
  rw [clashesFirst_single, exists_mark_iff]
  by_cases clash : inside = true ∧ c = '(' ∧ ['?', ':'] <+: rest
  · obtain ⟨rfl, rfl, marked⟩ := clash
    exact .inr ⟨⟨rfl, rfl, marked⟩, rewritten_opener_ne place marked⟩
  · refine .inl ⟨clash, rewritten_cons ?_ ?_⟩
    · intro isBackslash
      rw [ends isBackslash]
      exact fun letter found => by simp at found
    · cases inside with
      | false => exact noGroup rfl
      | true =>
        rw [List.cons_prefix_cons]
        exact fun ⟨same, marked⟩ => clash ⟨rfl, same.symm, marked⟩

/-- A token that clashes makes the texts differ right there; any other one is the same start of
both. -/
theorem Step.eq_iff {token : Token} (step : Step token list rest)
    (spelled : text = token.chars ++ rest)
    (later : rewritten rest = list.flatMap Token.image ↔ Apart list) :
    rewritten text = (token :: list).flatMap Token.image ↔ Apart (token :: list) := by
  rw [spelled, List.flatMap_cons, apart_cons]
  rcases step with ⟨noClash, same⟩ | ⟨clash, differs⟩
  · rw [same, List.append_cancel_left_eq, later, and_iff_right noClash]
  · exact iff_of_false differs fun apart => apart.1 clash

/-- **The replacements give the translation of the tokens exactly if no tokens clash.** -/
theorem rewritten_eq_iff (text : List Char) :
    rewritten text = (tokensFrom place text).flatMap Token.image ↔
      Apart (tokensFrom place text) := by
  fun_induction tokensFrom place text with
  | case1 =>
    refine iff_of_true rfl fun part clash nothing => ?_
    rw [List.infix_nil.mp nothing] at clash
    cases clash
  | case2 place escaped rest ih =>
    exact (step_pair place.inside escaped place.behindPair rest).eq_iff rfl ih
  | case3 rest ih =>
    have step : Step .group (tokensFrom .outside rest) rest :=
      .inl ⟨not_clashesFirst_group, rewritten_group rest⟩
    exact step.eq_iff rfl ih
  | case4 place c rest noPair noGroup ih =>
    refine (step_single (place.next c rest) ?_ ?_).eq_iff rfl ih
    · rintro rfl
      cases rest with
      | nil => rfl
      | cons escaped others => exact absurd rfl (noPair escaped others rfl)
    · rintro isOutside ⟨others, same⟩
      obtain ⟨rfl, rfl⟩ : '(' = c ∧ '?' :: ':' :: others = rest := by simpa using same
      exact noGroup others (by simpa [Place.inside] using isOutside) rfl rfl

/-- **Patterns are translated token by token where no tokens clash.** The tokens of an accepted
pattern spell it, and its POSIX form is their translation if and only if there is no shorthand in a
bracket expression, no escaped backslash before the letter of a shorthand, and no opener whose
parenthesis is escaped or in a bracket expression. -/
theorem convertRegex_tokens {source : String} {converted : Converted}
    (accepted : Dialect.postgresql.convertRegex source = .ok converted) :
    let list := tokens (splitFlag source.toList).1
    list.flatMap Token.chars = (splitFlag source.toList).1 ∧
      (converted.pattern = list.flatMap Token.image ↔ Apart list) := by
  intro list
  obtain ⟨-, -, same⟩ := Dialect.convertRegex_eq_ok_iff.mp accepted
  have form : converted.pattern = rewritten (splitFlag source.toList).1 := by
    rw [rewritten_eq, same, Dialect.withClasses]
  rw [form]
  exact ⟨flatMap_chars_tokensFrom .outside _, rewritten_eq_iff .outside _⟩

/-- A group, an escaped backslash before a shorthand, and a bracket expression with brackets in
it. -/
theorem convertRegex_tokens_mixed :
    Dialect.postgresql.convertRegex "(?i)(?:\\\\\\d|[^][:alpha:]\\](])\\b" =
        .ok ⟨"(\\\\[[:digit:]]|[^][:alpha:]\\](])\\y".toList, true⟩ ∧
      Apart (tokens "(?:\\\\\\d|[^][:alpha:]\\](])\\b".toList) := by
  have accepted : Dialect.postgresql.convertRegex "(?i)(?:\\\\\\d|[^][:alpha:]\\](])\\b" =
      .ok ⟨"(\\\\[[:digit:]]|[^][:alpha:]\\](])\\y".toList, true⟩ := by decide +kernel
  have body : (splitFlag "(?i)(?:\\\\\\d|[^][:alpha:]\\](])\\b".toList).1 =
      "(?:\\\\\\d|[^][:alpha:]\\](])\\b".toList := by
    decide +kernel
  have same : "(\\\\[[:digit:]]|[^][:alpha:]\\](])\\y".toList =
      (tokens "(?:\\\\\\d|[^][:alpha:]\\](])\\b".toList).flatMap Token.image := by decide +kernel
  obtain ⟨-, translated⟩ := convertRegex_tokens accepted
  rw [body] at translated
  exact ⟨accepted, translated.mp same⟩

/-- **Clashing tokens are rewritten**: behind an escaped backslash, behind an escaped parenthesis,
and in bracket expressions. The forms of these patterns and the translations of their tokens
differ. -/
theorem clashing_tokens_rewritten :
    let sources := ["\\\\d", "\\(?:a", "[\\d]", "[(?:]"]
    let forms := ["\\[[:digit:]]", "\\(a", "[[[:digit:]]]", "[(]"]
    let images := ["\\\\d", "\\(?:a", "[[:digit:]]", "[(?:]"]
    sources.map Dialect.postgresql.convertRegex = forms.map (fun form => .ok ⟨form.toList, false⟩) ∧
      sources.map (fun source => (tokens source.toList).flatMap Token.image) =
      images.map String.toList ∧
      (forms.zip images).all fun pair => pair.1 ≠ pair.2 := by
  decide +kernel

end CelWhere.Regex
