import CelWhere.Sql.Regex

/-! # Rewriting patterns

The shorthands of a pattern are replaced one kind after the other, and the openers of groups after
them. No replacement makes or breaks what another one looks for, so all of them come down to one
scan from the left, whatever their order.

* `Regex.scan_induction` — the ways in which a pattern can start;
* `Regex.toPosix_short`, `Regex.toPosix_cons`, `Regex.captureAll_group`, `Regex.captureAll_cons` —
  what becomes of each;
* `Regex.infix_toPosix`, `Regex.infix_captureAll` — the texts behind a parenthesis before and after;
* `Regex.rewritten`, `Regex.rewritten_eq` — all replacements together, whose order does not
  matter. -/

namespace CelWhere

/-! ## Replacing one text -/

namespace Text

variable {pattern replacement text word : List Char} {a b : Char}

/-- Where the pattern does not stand, a character is kept. -/
theorem replaceAll_cons {head : Char} {rest : List Char} (differs : ¬pattern <+: head :: rest) :
    replaceAll pattern replacement (head :: rest) =
      head :: replaceAll pattern replacement rest := by
  rw [← List.isPrefixOf_iff_prefix] at differs
  rw [replaceAll, replaceFrom, if_neg differs, replaceAll]

/-- The characters of an occurrence are skipped. -/
theorem replaceFrom_skip (text : List Char) :
    replaceFrom pattern replacement word.length (word ++ text) =
      replaceAll pattern replacement text := by
  induction word with
  | nil => rfl
  | cons head rest ih => exact ih

/-- Where the pattern stands, it is replaced. -/
theorem replaceAll_append_self (given : pattern ≠ []) (text : List Char) :
    replaceAll pattern replacement (pattern ++ text) =
      replacement ++ replaceAll pattern replacement text := by
  obtain ⟨head, rest, rfl⟩ := List.exists_cons_of_ne_nil given
  have stands : (head :: rest).isPrefixOf (head :: (rest ++ text)) = true :=
    List.isPrefixOf_iff_prefix.mpr (List.prefix_append (head :: rest) text)
  rw [List.cons_append, replaceAll, replaceFrom, if_pos stands, List.length_cons,
    Nat.add_sub_cancel, replaceFrom_skip]

/-- A word that neither holds a pair of characters nor ends in the first of them is kept. -/
theorem replaceAll_append (absent : ¬[a, b] <:+: word) (ended : word.getLast? ≠ some a)
    (text : List Char) :
    replaceAll [a, b] replacement (word ++ text) = word ++ replaceAll [a, b] replacement text := by
  induction word with
  | nil => rfl
  | cons head rest ih =>
    rw [List.infix_cons_iff, not_or] at absent
    have differs : ¬[a, b] <+: head :: (rest ++ text) := by
      cases rest with
      | nil =>
        rw [List.cons_prefix_cons]
        rintro ⟨rfl, -⟩
        simp at ended
      | cons next others => simpa using absent.1
    have endedLater : rest.getLast? ≠ some a := by
      cases rest with
      | nil => simp
      | cons next others => simpa using ended
    rw [List.cons_append, replaceAll_cons differs, ih absent.2 endedLater, List.cons_append]

/-- A text that starts with a character occurs only behind texts without it. -/
theorem infix_append (absent : a ∉ word) (text : List Char) :
    a :: pattern <:+: word ++ text ↔ a :: pattern <:+: text := by
  induction word with
  | nil => rfl
  | cons head rest ih =>
    rw [List.mem_cons, not_or] at absent
    rw [List.cons_append, List.infix_cons_iff, List.cons_prefix_cons, ih absent.2]
    simp [absent.1]

end Text

namespace Regex

variable {entry : List Char × List Char} {text word rest : List Char} {letter c : Char}
  {form : List Char}

/-! ## Shorthands -/

/-- The POSIX form of the shorthand with a letter. -/
def posixForm? : Char → Option (List Char)
  | 'd' => some "[[:digit:]]".toList
  | 'D' => some "[^[:digit:]]".toList
  | 'w' => some "[[:alnum:]_]".toList
  | 'W' => some "[^[:alnum:]_]".toList
  | 's' => some "[[:space:]]".toList
  | 'S' => some "[^[:space:]]".toList
  | 'b' => some "\\y".toList
  | 'B' => some "\\Y".toList
  | _ => none

/-- What is replaced are the shorthands. -/
theorem exists_of_mem_posixForms (member : entry ∈ posixForms) :
    ∃ letter, entry.1 = ['\\', letter] ∧ posixForm? letter = some entry.2 := by
  simp only [posixForms, List.mem_cons, List.not_mem_nil, or_false] at member
  rcases member with rfl | rfl | rfl | rfl | rfl | rfl | rfl | rfl <;> exact ⟨_, rfl, rfl⟩

section

variable (isForm : posixForm? letter = some form)

include isForm

/-- All shorthands are replaced. -/
theorem mem_posixForms : (['\\', letter], form) ∈ posixForms := by
  unfold posixForm? at isForm
  split at isForm <;> cases isForm <;> decide +kernel

/-- A form starts with a bracket or a backslash and has no parentheses. -/
theorem form_start :
    (∃ first others, form = first :: others ∧ (first = '[' ∨ first = '\\')) ∧ '(' ∉ form := by
  have each : ∀ entry ∈ posixForms, (entry.2.head? = some '[' ∨ entry.2.head? = some '\\') ∧
      '(' ∉ entry.2 := by
    decide +kernel
  obtain ⟨start, noOpener⟩ := each _ (mem_posixForms isForm)
  refine ⟨?_, noOpener⟩
  rcases start with start | start <;> obtain ⟨others, same⟩ := List.head?_eq_some_iff.mp start
  · exact ⟨_, others, same, .inl rfl⟩
  · exact ⟨_, others, same, .inr rfl⟩

/-- No shorthand has a parenthesis. -/
theorem opener_ne_of_form : '(' ≠ letter := by
  rintro rfl
  cases isForm

/-- No shorthand is in a form, or starts at its end. -/
theorem form_passed (member : entry ∈ posixForms) (text : List Char) :
    Text.replaceAll entry.1 entry.2 (form ++ text) =
      form ++ Text.replaceAll entry.1 entry.2 text := by
  have each : ∀ entry ∈ posixForms, ∀ other ∈ posixForms,
      ¬entry.1 <:+: other.2 ∧ other.2.getLast? ≠ some '\\' := by decide +kernel
  obtain ⟨absent, ended⟩ := each entry member _ (mem_posixForms isForm)
  obtain ⟨other, same, -⟩ := exists_of_mem_posixForms member
  rw [same] at absent ⊢
  exact Text.replaceAll_append absent ended text

end

/-- A text does not go on with the letter of a shorthand. -/
def Quiet (text : List Char) : Prop :=
  ∀ letter, text.head? = some letter → posixForm? letter = none

/-- A text goes on with the letter of a shorthand or not. -/
theorem quiet_or_short (text : List Char) :
    Quiet text ∨ ∃ letter form rest, posixForm? letter = some form ∧ text = letter :: rest := by
  cases text with
  | nil => exact .inl fun letter found => by simp at found
  | cons letter rest =>
    cases isForm : posixForm? letter with
    | none =>
      refine .inl fun other found => ?_
      obtain rfl : letter = other := by simpa using found
      exact isForm
    | some form => exact .inr ⟨letter, form, rest, isForm, rfl⟩

/-- A backslash that is no part of a shorthand is kept, as all other characters are. -/
theorem not_prefix_of_quiet (member : entry ∈ posixForms) (plain : c = '\\' → Quiet rest) :
    ¬entry.1 <+: c :: rest := by
  obtain ⟨letter, same, isForm⟩ := exists_of_mem_posixForms member
  rw [same, List.cons_prefix_cons]
  rintro ⟨rfl, others, rfl⟩
  simp [plain rfl letter rfl] at isForm

/-- Replacing a shorthand brings no letter of another one to the start. -/
theorem Quiet.replaceAll (quiet : Quiet text) (member : entry ∈ posixForms) :
    Quiet (Text.replaceAll entry.1 entry.2 text) := by
  cases text with
  | nil => exact quiet
  | cons c rest =>
    by_cases stands : entry.1 <+: c :: rest
    · obtain ⟨others, same⟩ := stands
      obtain ⟨letter, short, isForm⟩ := exists_of_mem_posixForms member
      obtain ⟨⟨first, tail, spelled, start⟩, -⟩ := form_start isForm
      rw [← same, Text.replaceAll_append_self (by simp [short]), spelled]
      rintro letter found
      obtain rfl : first = letter := by simpa using found
      rcases start with rfl | rfl <;> rfl
    · rw [Text.replaceAll_cons stands]
      exact quiet

/-- Replaces some shorthands, one after the other. -/
def replaceForms (forms : List (List Char × List Char)) (text : List Char) : List Char :=
  forms.foldl (fun text entry => Text.replaceAll entry.1 entry.2 text) text

section

variable {forms : List (List Char × List Char)} (known : ∀ entry ∈ forms, entry ∈ posixForms)
include known

/-- A form that was put in is left by the replacements that follow. -/
theorem replaceForms_append (isForm : posixForm? letter = some form) (text : List Char) :
    replaceForms forms (form ++ text) = form ++ replaceForms forms text := by
  induction forms generalizing text with
  | nil => rfl
  | cons entry others ih =>
    have later := ih (fun entry member => known entry (.tail _ member))
    rw [replaceForms, List.foldl_cons, form_passed isForm (known entry (.head _))]
    exact later _

/-- A character that starts no shorthand is kept by all replacements. -/
theorem replaceForms_cons (plain : c = '\\' → Quiet rest) :
    replaceForms forms (c :: rest) = c :: replaceForms forms rest := by
  induction forms generalizing rest with
  | nil => rfl
  | cons entry others ih =>
    have member := known entry (.head _)
    rw [replaceForms, List.foldl_cons, Text.replaceAll_cons (not_prefix_of_quiet member plain)]
    exact ih (fun entry member => known entry (.tail _ member))
      fun isBackslash => (plain isBackslash).replaceAll member

/-- A shorthand is replaced when its turn comes. -/
theorem replaceForms_short (isForm : posixForm? letter = some form)
    (member : (['\\', letter], form) ∈ forms) :
    replaceForms forms ('\\' :: letter :: rest) = form ++ replaceForms forms rest := by
  induction forms generalizing rest with
  | nil => simp at member
  | cons entry others ih =>
    have isKnown : ∀ entry ∈ others, entry ∈ posixForms :=
      fun entry member => known entry (.tail _ member)
    rw [replaceForms, List.foldl_cons]
    by_cases same : entry = (['\\', letter], form)
    · have replaced : Text.replaceAll entry.1 entry.2 ('\\' :: letter :: rest) =
          form ++ Text.replaceAll entry.1 entry.2 rest := by
        rw [same]
        exact Text.replaceAll_append_self (by simp) rest
      rw [replaced]
      exact replaceForms_append isKnown isForm _
    · -- Another shorthand leaves both characters.
      have isOther := (List.mem_cons.mp member).resolve_left (Ne.symm same)
      obtain ⟨other, short, isOtherForm⟩ := exists_of_mem_posixForms (known entry (.head _))
      have differs : other ≠ letter := by
        rintro rfl
        rw [isForm, Option.some.injEq] at isOtherForm
        exact same (Prod.ext short isOtherForm.symm)
      have noBackslash : letter ≠ '\\' := by
        rintro rfl
        cases isForm
      rw [Text.replaceAll_cons (by simp [short, differs]),
        Text.replaceAll_cons (by simp [short, Ne.symm noBackslash])]
      exact ih isKnown isOther

end

theorem toPosix_short (isForm : posixForm? letter = some form) :
    toPosix ('\\' :: letter :: rest) = form ++ toPosix rest :=
  replaceForms_short (fun _ member => member) isForm (mem_posixForms isForm)

theorem toPosix_cons (plain : c = '\\' → Quiet rest) : toPosix (c :: rest) = c :: toPosix rest :=
  replaceForms_cons (fun _ member => member) plain

/-- A text without backslashes is kept. -/
theorem toPosix_append (noBackslash : '\\' ∉ word) (rest : List Char) :
    toPosix (word ++ rest) = word ++ toPosix rest := by
  induction word with
  | nil => rfl
  | cons c others ih =>
    rw [List.mem_cons, not_or] at noBackslash
    rw [List.cons_append, toPosix_cons fun same => absurd same.symm noBackslash.1, ih noBackslash.2,
      List.cons_append]

/-- A pattern is empty or starts with a shorthand or with another character. -/
@[elab_as_elim]
theorem scan_induction {motive : List Char → Prop} (nil : motive [])
    (short : ∀ letter form rest, posixForm? letter = some form → motive rest →
      motive ('\\' :: letter :: rest))
    (plain : ∀ c rest, (c = '\\' → Quiet rest) → motive rest → motive (c :: rest))
    (text : List Char) : motive text := by
  induction size : text.length using Nat.strongRecOn generalizing text with
  | _ size ih =>
    subst size
    cases text with
    | nil => exact nil
    | cons c rest =>
      have later := ih rest.length (by simp) rest rfl
      rcases quiet_or_short rest with quiet | ⟨letter, form, others, isForm, rfl⟩
      · exact plain c rest (fun _ => quiet) later
      · by_cases isBackslash : c = '\\'
        · subst isBackslash
          exact short letter form others isForm (ih others.length (by grind) others rfl)
        · exact plain c (letter :: others) (absurd · isBackslash) later

/-- A text without brackets and backslashes stands at the start of a pattern before and after its
shorthands are replaced. -/
theorem prefix_toPosix (free : ∀ c ∈ word, c ≠ '[' ∧ c ≠ '\\') (text : List Char) :
    word <+: toPosix text ↔ word <+: text := by
  induction text using scan_induction generalizing word with
  | nil => rfl
  | short letter form rest isForm _ =>
    obtain ⟨⟨first, tail, rfl, start⟩, -⟩ := form_start isForm
    cases word with
    | nil => simp
    | cons head others =>
      obtain ⟨noBracket, noBackslash⟩ := free head (.head _)
      have differs : head ≠ first := by
        rcases start with rfl | rfl <;> assumption
      simp [toPosix_short isForm, differs, noBackslash]
  | plain c rest quiet ih =>
    cases word with
    | nil => simp
    | cons head others =>
      rw [toPosix_cons quiet, List.cons_prefix_cons, List.cons_prefix_cons,
        ih fun c member => free c (.tail _ member)]

/-- A text behind an opening parenthesis, without brackets and backslashes, occurs in a pattern
before and after its shorthands are replaced. -/
theorem infix_toPosix (free : ∀ c ∈ word, c ≠ '[' ∧ c ≠ '\\') (text : List Char) :
    '(' :: word <:+: toPosix text ↔ '(' :: word <:+: text := by
  induction text using scan_induction with
  | nil => rfl
  | short letter form rest isForm ih =>
    have noOpener : '(' ∉ ['\\', letter] := by
      simp [opener_ne_of_form isForm]
    rw [toPosix_short isForm, Text.infix_append (form_start isForm).2, ih]
    exact (Text.infix_append noOpener rest).symm
  | plain c rest quiet ih =>
    rw [toPosix_cons quiet, List.infix_cons_iff, List.infix_cons_iff, List.cons_prefix_cons,
      List.cons_prefix_cons, prefix_toPosix free, ih]

/-! ## Groups -/

/-- The opener of a group that captures nothing becomes that of one that does. -/
theorem captureAll_group (rest : List Char) :
    captureAll (['(', '?', ':'] ++ rest) = '(' :: captureAll rest :=
  Text.replaceAll_append_self (by simp) rest

theorem captureAll_cons (plain : ¬['(', '?', ':'] <+: c :: rest) :
    captureAll (c :: rest) = c :: captureAll rest :=
  Text.replaceAll_cons plain

@[simp] theorem captureAll_nil : captureAll [] = [] := rfl

/-- A text without opening parentheses is kept. -/
theorem captureAll_append (noOpener : '(' ∉ word) (rest : List Char) :
    captureAll (word ++ rest) = word ++ captureAll rest := by
  induction word with
  | nil => rfl
  | cons c others ih =>
    rw [List.mem_cons, not_or] at noOpener
    rw [List.cons_append, captureAll_cons (by simp [noOpener.1]), ih noOpener.2, List.cons_append]

/-- The first character is kept. -/
theorem head?_captureAll (text : List Char) : (captureAll text).head? = text.head? := by
  cases text with
  | nil => rfl
  | cons c rest =>
    by_cases opens : ['(', '?', ':'] <+: c :: rest
    · obtain ⟨others, same⟩ := opens
      rw [← same, captureAll_group]
      rfl
    · rw [captureAll_cons opens]
      rfl

/-- A text without opening parentheses stands at the start of a pattern before and after its openers
are replaced. -/
theorem prefix_captureAll (noOpener : '(' ∉ word) (text : List Char) :
    word <+: captureAll text ↔ word <+: text := by
  induction text generalizing word with
  | nil => rfl
  | cons c rest ih =>
    cases word with
    | nil => simp
    | cons head others =>
      rw [List.mem_cons, not_or] at noOpener
      by_cases opens : ['(', '?', ':'] <+: c :: rest
      · obtain ⟨tail, same⟩ := opens
        rw [← same, captureAll_group]
        simp [Ne.symm noOpener.1]
      · rw [captureAll_cons opens, List.cons_prefix_cons, List.cons_prefix_cons, ih noOpener.2]

/-- A text behind an opening parenthesis occurs after the openers are replaced if it did so before,
or behind an opener that is replaced. -/
theorem infix_captureAll (noOpener : '(' ∉ word)
    (differs : ∀ others, ¬word <+: '?' :: ':' :: others) (text : List Char) :
    '(' :: word <:+: captureAll text ↔
      '(' :: word <:+: text ∨ '(' :: '?' :: ':' :: word <:+: text := by
  induction text with
  | nil => simp
  | cons c rest ih =>
    by_cases opens : ['(', '?', ':'] <+: c :: rest
    · -- Behind the opener, or later; from the question mark on there is no other place.
      obtain ⟨others, same⟩ := opens
      obtain ⟨rfl, rfl⟩ : '(' = c ∧ ['?', ':'] ++ others = rest := by simpa using same
      rw [captureAll_append (by decide), Text.infix_append (by decide),
        Text.infix_append (by decide), Text.infix_append (by decide)] at ih
      have behind (word : List Char) :
          '(' :: word <:+: ['(', '?', ':'] ++ others ↔
            word <+: '?' :: ':' :: others ∨ '(' :: word <:+: others := by
        rw [List.cons_append, List.infix_cons_iff, List.cons_prefix_cons,
          Text.infix_append (by decide)]
        simp
      rw [← same, captureAll_group, List.infix_cons_iff, List.cons_prefix_cons,
        prefix_captureAll noOpener, ih, behind, behind]
      simp only [differs, true_and, false_or, List.cons_prefix_cons]
      exact or_left_comm
    · rw [captureAll_cons opens, List.infix_cons_iff, List.infix_cons_iff, List.infix_cons_iff,
        List.cons_prefix_cons, List.cons_prefix_cons, List.cons_prefix_cons,
        prefix_captureAll noOpener, ih]
      have noGroup : ¬('(' = c ∧ '?' :: ':' :: word <+: rest) := by
        rintro ⟨rfl, before⟩
        exact opens (List.cons_prefix_cons.mpr
          ⟨rfl, (List.prefix_append ['?', ':'] word).trans before⟩)
      simp only [noGroup, false_or, or_assoc]

/-! ## Both together -/

/-- A pattern after all replacements. -/
def rewritten (text : List Char) : List Char :=
  captureAll (toPosix text)

theorem rewritten_short (isForm : posixForm? letter = some form) (rest : List Char) :
    rewritten ('\\' :: letter :: rest) = form ++ rewritten rest := by
  rw [rewritten, toPosix_short isForm, captureAll_append (form_start isForm).2, rewritten]

/-- The opener of a group that captures nothing becomes that of one that does. -/
theorem rewritten_group (rest : List Char) :
    rewritten (['(', '?', ':'] ++ rest) = '(' :: rewritten rest := by
  rw [rewritten, toPosix_append (by decide), captureAll_group, rewritten]

/-- Any other character is kept. -/
theorem rewritten_cons (quiet : c = '\\' → Quiet rest) (plain : ¬['(', '?', ':'] <+: c :: rest) :
    rewritten (c :: rest) = c :: rewritten rest := by
  have stillPlain : ¬['(', '?', ':'] <+: c :: toPosix rest := by
    rw [List.cons_prefix_cons] at plain ⊢
    rwa [prefix_toPosix (by simp)]
  rw [rewritten, toPosix_cons quiet, captureAll_cons stillPlain, rewritten]

/-- A text with none of the characters that are looked for is kept. -/
theorem rewritten_append (noBackslash : '\\' ∉ word) (noOpener : '(' ∉ word) (rest : List Char) :
    rewritten (word ++ rest) = word ++ rewritten rest := by
  rw [rewritten, toPosix_append noBackslash, captureAll_append noOpener, rewritten]

/-- **The order of the replacements does not matter.** -/
theorem rewritten_eq (text : List Char) : rewritten text = toPosix (captureAll text) := by
  induction text using scan_induction with
  | nil => rfl
  | short letter form rest isForm ih =>
    have noOpener : '(' ∉ ['\\', letter] := by
      simp [opener_ne_of_form isForm]
    have kept : captureAll ('\\' :: letter :: rest) = '\\' :: letter :: captureAll rest :=
      captureAll_append noOpener rest
    rw [rewritten_short isForm, ih, kept, toPosix_short isForm]
  | plain c rest quiet ih =>
    by_cases opens : ['(', '?', ':'] <+: c :: rest
    · -- Behind the opener both orders agree, because they do so from the question mark on.
      obtain ⟨others, same⟩ := opens
      obtain ⟨-, rfl⟩ : '(' = c ∧ ['?', ':'] ++ others = rest := by simpa using same
      have later : rewritten others = toPosix (captureAll others) := by
        rwa [rewritten_append (by decide) (by decide), captureAll_append (by decide),
          toPosix_append (by decide), List.append_cancel_left_eq] at ih
      rw [← same, rewritten_group, captureAll_group, later, toPosix_cons (by simp)]
    · have stillQuiet : c = '\\' → Quiet (captureAll rest) := by
        unfold Quiet
        rwa [head?_captureAll]
      rw [rewritten_cons quiet opens, ih, captureAll_cons opens, toPosix_cons stillQuiet]

end Regex

end CelWhere
