import CelWhere.Proofs.Alignment
import CelWhere.Proofs.Chain
import CelWhere.Proofs.Grouping.Text
import CelWhere.Proofs.Operand

/-! # Paths

A chain of selections is written with dots, unless its first field holds JSON; then the fields
behind that one are selected from the inside out, each around what is written for the ones before
it.

* `Dialect.jsonAccess` — the text of one selection around a base;
* `Fragment.Prints` — fragments that write a text and do nothing else, if no limit stops them;
* `Context.prints_dotted`, `Context.prints_jsonChain` — what the two sorts of chains write;
* `parse?_dotted` — names with dots between them are read as a chain. -/

namespace CelWhere

variable {context : Context} {object : Tree} {rest : List Char} {fields : List String}

/-- The text of the selection of a JSON field, around a base that writes a text. -/
def Dialect.jsonAccess (dialect : Dialect) (base field : String) (final : Bool) : String :=
  ((dialect.jsonField (.text base) field final).run { dialect } .fresh).session.text

/-! ## Fragments that write a text -/

namespace Fragment

/-- A fragment writes a text, whatever was written before, and does nothing else. Limits are left
aside. -/
def Prints (settings : Settings) (fragment : Fragment) (text : String) : Prop :=
  ∀ session, fragment.runGuarded settings (fun _ => none) session =
    { session := session.write text }

variable {settings : Settings} {first second base : Fragment} {one two text : String}

theorem prints_text (settings : Settings) (text : String) :
    (Fragment.text text).Prints settings text := fun _ => rfl

/-- Fragments one after the other write their texts one after the other. -/
theorem Prints.append (firstPrints : first.Prints settings one)
    (secondPrints : second.Prints settings two) :
    (first ++ second).Prints settings (one ++ two) := by
  intro session
  show (first.runGuarded settings _ session).andThen _ = _
  rw [firstPrints]
  show second.runGuarded settings _ (session.write one) = _
  rw [secondPrints]
  simp [Session.write, String.append_assoc]

/-- A check of the schemas writes nothing, if it is not made or they have the field. -/
theorem prints_known {table field : String}
    (passes : settings.validate = false ∨ settings.catalog.unknownFault? table field = none) :
    (Fragment.known table field).Prints settings "" := by
  intro session
  rcases passes with unchecked | isKnown
  · simp [runGuarded, run, unchecked, Session.write]
  · simp [runGuarded, run, isKnown, Session.write]

/-- Going deeper writes nothing. -/
theorem Prints.nested (prints : base.Prints settings text) :
    (Fragment.nested base).Prints settings text := by
  intro session
  simp only [runGuarded]
  rw [prints]
  rfl

/-- A selection is written around what its base writes. -/
theorem Prints.jsonField (prints : base.Prints settings text) (dialect : Dialect) (field : String)
    (final : Bool) :
    (dialect.jsonField base field final).Prints settings (dialect.jsonAccess text field final) := by
  intro session
  cases dialect <;> simp [Dialect.jsonAccess, Dialect.jsonField, append_eq, runGuarded, run,
    Outcome.andThen, prints _, Session.write, Session.fresh, String.append_assoc]

/-- Fields behind a JSON field are selected from the inside out. -/
theorem Prints.jsonSteps (prints : base.Prints settings text) (middle : List String)
    (last : String) :
    (Convert.jsonSteps context base (middle ++ [last])).Prints settings
      (context.dialect.jsonAccess
        (middle.foldl (fun inner field => context.dialect.jsonAccess inner field false) text)
        last true) := by
  induction middle generalizing base text with
  | nil => exact prints.jsonField context.dialect last true
  | cons field rest ih =>
    have inner := prints.jsonField context.dialect field false
    -- A field is the last one only if none follows.
    obtain ⟨next, behind, follows⟩ : ∃ next behind, rest ++ [last] = next :: behind := by
      cases rest with
      | nil => exact ⟨_, _, rfl⟩
      | cons next rest => exact ⟨_, _, rfl⟩
    rw [List.cons_append, follows, Convert.jsonSteps, ← follows]
    · exact ih inner
    · simp

end Fragment

/-! ## Chains of selections -/

/-- Names with dots between them. -/
def dotted (names : List String) : String :=
  ".".intercalate names

/-- One more name stands behind a dot. -/
theorem dotted_append (root : String) (fields : List String) (field : String) :
    dotted (root :: (fields ++ [field])) = dotted (root :: fields) ++ "." ++ field := by
  unfold dotted
  rw [← List.cons_append, String.intercalate_append_of_ne_nil (by simp) (by simp),
    String.intercalate_singleton]

section

variable {text first : String} {settings : Settings} {tree : Tree} {root : String}
  {fields : List String}

/-- A valid name writes itself. -/
theorem Context.prints_name (context : Context) {name : Token}
    (valid : columnNameFault? name.text = none) :
    (context.fragment (.node .ident [.token name])).Prints settings name.text := by
  have converted : context.fragment (.node .ident [.token name]) = .text name.text := by
    rw [Context.fragment_eq]
    show reference name.text = _
    rw [reference, valid]
  rw [converted]
  exact Fragment.prints_text settings name.text

/-- A chain is one below its levels. -/
theorem Tree.chain?_core {chain : String × List String} (found : tree.chain? = some chain) :
    tree.core.chain? = some chain := by
  obtain ⟨root, fields⟩ := chain
  induction tree, root, fields, found using Tree.chain?_induction with
  | name => rfl
  | select field found ih => simp [Tree.core, Tree.chain?, found]
  | level isLevel found ih =>
    rcases isLevel with rfl | rfl <;> simpa [Tree.core, Rule.isLevel] using ih

/-- The root of a chain is found, if it is not empty. -/
theorem Tree.root?_of_ne_empty (found : tree.chain? = some (root, fields)) (given : root ≠ "") :
    tree.root? = .ok (some root) := by
  simp [root?, rootName_of_chain? found, Except.map, given]

theorem ne_empty_of_valid (valid : columnNameFault? root = none) : root ≠ "" :=
  (NameRules.fault?_eq_none.mp valid).1

/-- The selection of a field in a chain asks whether the first field of the chain holds JSON. -/
theorem Context.fragment_selection (context : Context) {field : Token}
    (found : object.chain? = some (root, fields)) (given : root ≠ "") :
    context.fragment (.node .memberDot [object, .token field]) =
      .known root (fields.headD field.text) ++
        if context.catalog.isJson root (fields.headD field.text) then
          Convert.jsonPath context context.child [object, .token field]
        else context.child object ++ "." ++ fieldName field.text := by
  rw [Context.fragment_eq]
  show Convert.selection context context.child [object, .token field] = _
  simp only [Convert.selection, Tree.root?_of_ne_empty found given, Fragment.attempt_ok,
    Tree.nameText_token, Tree.firstField_of_chain? found]

/-- **Dots are kept.** A chain of valid names whose first field does not hold JSON is written as it
is. -/
theorem Context.prints_dotted (unchecked : settings.validate = false)
    (found : tree.chain? = some (root, fields))
    (valid : ∀ name ∈ root :: fields, columnNameFault? name = none)
    (noJson : ∀ first ∈ fields.head?, context.catalog.isJson root first = false) :
    (context.fragment tree).Prints settings (dotted (root :: fields)) := by
  induction tree, root, fields, found using Tree.chain?_induction with
  | name => exact context.prints_name (valid _ (by simp))
  | @select object root fields field found ih =>
    -- The first field is that of the object, or the selected one itself.
    have notJson : context.catalog.isJson root (fields.headD field.text) = false := by
      apply noJson
      cases fields <;> simp
    have objectPrints := ih
      (fun name member => valid name (List.cons_subset_cons root
        (List.subset_append_left fields _) member))
      (fun first isFirst => noJson first (by simp_all [List.head?_append]))
    have fieldPrints : (fieldName field.text).Prints settings field.text := by
      rw [fieldName, valid field.text (by simp)]
      exact Fragment.prints_text settings field.text
    have checked :=
      (@Fragment.prints_known settings root (fields.headD field.text) (.inl unchecked)).append
      ((objectPrints.nested.append (Fragment.prints_text settings ".")).append fieldPrints)
    rw [String.empty_append] at checked
    rw [context.fragment_selection found (ne_empty_of_valid (valid root (by simp))), notJson,
      dotted_append]
    exact checked
  | level isLevel found ih =>
    rw [context.fragment_level _ (by rcases isLevel with rfl | rfl <;> rfl)]
    exact (ih valid noJson).nested

/-- A path through a JSON field writes what the selections behind that field write around it. -/
theorem Context.prints_jsonPath {children : List Tree} {rest : List String}
    (found : (Tree.node .memberDot children).chain? = some (root, first :: rest))
    (valid : columnNameFault? root = none)
    (steps : ∀ base : Fragment, base.Prints settings (root ++ "." ++ first) →
      (Convert.jsonSteps context base rest).Prints settings text) :
    (Convert.jsonPath context context.child children).Prints settings text := by
  obtain ⟨name, rfl, path⟩ := Tree.fieldPath_of_chain? found
  have basePrints :=
    (context.prints_name valid).nested.append (Fragment.prints_text settings ("." ++ first))
  rw [← String.append_assoc] at basePrints
  simp only [Convert.jsonPath, path, Fragment.attempt_ok]
  exact steps _ basePrints

/-- What holds of paths through a JSON field holds of the chains that have it as their first
field. -/
theorem Context.of_jsonChain (holds : Fragment → Prop) (given : root ≠ "")
    (found : tree.chain? = some (root, fields)) (isFirst : fields.head? = some first)
    (isJson : context.catalog.isJson root first = true)
    (nested : ∀ {body}, holds body → holds (.nested body))
    (path : ∀ {children}, (Tree.node .memberDot children).chain? = some (root, fields) →
      holds (.known root first ++ Convert.jsonPath context context.child children)) :
    holds (context.fragment tree) := by
  induction tree, root, fields, found using Tree.chain?_induction with
  | name => cases isFirst
  | @select object root fields field found ih =>
    have same : fields.headD field.text = first := by
      cases fields <;> simpa using isFirst
    rw [context.fragment_selection found given, same, if_pos isJson]
    exact path (by simp [Tree.chain?, found])
  | level isLevel found ih =>
    rw [context.fragment_level _ (by rcases isLevel with rfl | rfl <;> rfl)]
    exact nested (ih given isFirst isJson path)

/-- **JSON paths are written from the inside out.** A chain whose first field holds JSON writes what
the selections of the other fields write around that field, also with validation if the schemas have
the field. -/
theorem Context.prints_jsonChain {rest : List String}
    (passes : settings.validate = false ∨ settings.catalog.unknownFault? root first = none)
    (found : tree.chain? = some (root, first :: rest)) (valid : columnNameFault? root = none)
    (isJson : context.catalog.isJson root first = true)
    (steps : ∀ base : Fragment, base.Prints settings (root ++ "." ++ first) →
      (Convert.jsonSteps context base rest).Prints settings text) :
    (context.fragment tree).Prints settings text := by
  refine Context.of_jsonChain (·.Prints settings text) (ne_empty_of_valid valid) found rfl isJson
    .nested fun whole => ?_
  have checked := (Fragment.prints_known passes).append (Context.prints_jsonPath whole valid steps)
  rwa [String.empty_append] at checked

/-- If no limit is passed, a tree is converted as it is without limits. -/
theorem Settings.visit_of_within (valid : settings.fault? = none)
    (within : ∀ fault, settings.convertTree tree = .error fault → ¬fault.isLimit) :
    settings.visit .fresh tree = (settings.context.fragment tree).runGuarded settings
      (fun _ => none) .fresh := by
  rcases settings.visit_limited settings.maxDepth settings.maxLength (fun _ _ => rfl) .fresh tree
    with same | ⟨passed, -⟩
  · exact same
  · have limited : (settings.visit .fresh tree).fault.any Fault.isLimit := passed
    cases found : (settings.visit .fresh tree).fault with
    | none => simp [found] at limited
    | some fault =>
      have isLimit : fault.isLimit := by simpa [found] using limited
      exact absurd isLimit (within fault (convertTree_eq_error.mpr (.inr ⟨valid, found⟩)))

/-- A tree that writes a text is converted to it, if the settings are valid and no limit is
passed. -/
theorem Settings.convertTree_of_printing (valid : settings.fault? = none)
    (within : ∀ fault, settings.convertTree tree = .error fault → ¬fault.isLimit)
    (prints : (settings.context.fragment tree).Prints settings text) :
    settings.convertTree tree = .ok ⟨text, #[]⟩ := by
  have visited : settings.visit .fresh tree = { session := Session.fresh.write text } :=
    (visit_of_within valid within).trans (prints .fresh)
  refine convertTree_eq_ok.mpr ⟨valid, ?_⟩
  rw [visited]
  exact ⟨rfl, String.empty_append, rfl⟩

end

/-! ## Reading a path -/

/-- The names of the language: words that are no truth values. -/
structure IsFieldName (name : String) : Prop where
  /-- The first character starts a name. -/
  starts : name.toList.head?.any Lexer.isNameStart
  /-- All characters are those of names. -/
  all : name.toList.all Lexer.isNameChar
  /-- The name is no truth value. -/
  other : name ∉ ["true", "false"]

instance (name : String) : Decidable (IsFieldName name) :=
  decidable_of_iff (name.toList.head?.any Lexer.isNameStart ∧ name.toList.all Lexer.isNameChar ∧
    name ∉ ["true", "false"]) ⟨fun ⟨starts, all, other⟩ => ⟨starts, all, other⟩,
      fun ⟨starts, all, other⟩ => ⟨starts, all, other⟩⟩

namespace IsFieldName

variable {name : String} (isName : IsFieldName name)

include isName

theorem chars : ∀ c ∈ name.toList, Lexer.isNameChar c = true :=
  List.all_eq_true.mp isName.all

/-- A name has a first character. -/
theorem exists_cons : ∃ first others, name.toList = first :: others ∧ Lexer.isNameStart first := by
  have starts := isName.starts
  cases spelled : name.toList with
  | nil => simp [spelled] at starts
  | cons first others => exact ⟨first, others, rfl, by simpa [spelled] using starts⟩

/-- The characters of a name are no quotes. -/
theorem noQuote : ∀ c ∈ name.toList, isQuote c = false := by
  intro c member
  have isChar := isName.chars c member
  have other : ∀ mark, Lexer.isNameChar mark = false → c ≠ mark := by
    rintro mark no rfl
    simp [no] at isChar
  simp [isQuote, other '"' rfl, other '\'' rfl]

end IsFieldName

namespace Lexer

variable {name : String}

/-- A text goes on with no word. -/
def EndsWord (text : List Char) : Prop :=
  ∀ c ∈ text.head?, isNameChar c = false

/-- A name is read up to where no word goes on. -/
theorem word?_append (isName : IsFieldName name) (ends : EndsWord rest) :
    word? (name.toList ++ rest) = some (name, rest) := by
  have chars := isName.chars
  obtain ⟨first, others, spelled, starts⟩ := isName.exists_cons
  have taken : (name.toList ++ rest).takeWhile isNameChar = name.toList := by
    rw [List.takeWhile_append_of_pos chars]
    cases rest with
    | nil => simp
    | cons c behind => simp [ends c (by simp)]
  have dropped : (name.toList ++ rest).dropWhile isNameChar = rest := by
    rw [List.dropWhile_append_of_pos chars]
    cases rest with
    | nil => simp
    | cons c behind => simp [ends c (by simp)]
  have read : word? (name.toList ++ rest) =
      some (String.ofList ((name.toList ++ rest).takeWhile isNameChar),
      (name.toList ++ rest).dropWhile isNameChar) := by
    rw [spelled, List.cons_append, word?, if_pos starts]
  rw [read, taken, dropped, String.ofList_toList]

/-- The start of a name starts an operand, and no number. -/
theorem isNameStart_other {c : Char} (starts : isNameStart c) :
    isOperandStart c ∧ Text.isPlainDigit c = false ∧ c ≠ '.' ∧ c ≠ '-' := by
  have other : ∀ mark, isNameStart mark = false → c ≠ mark := by
    rintro mark no rfl
    simp [no] at starts
  have noFeed : c.toNat ≠ 12 := by
    intro isFeed
    have same : c = Char.ofNat 12 := by rw [← isFeed, Char.ofNat_toNat]
    exact other _ (by decide) same
  have noSpace : isSpace c = false := by
    simp [isSpace, other ' ' rfl, other '\t' rfl, other '\n' rfl, other '\r' rfl, noFeed]
  have noDigit : Text.isPlainDigit c = false := by
    by_contra digit
    have noStart := Grouping.isNameStart_of_isPlainDigit (Bool.not_eq_false _ ▸ digit)
    simp [noStart] at starts
  refine ⟨?_, noDigit, other '.' rfl, other '-' rfl⟩
  simp [isOperandStart, noSpace, other '/' rfl, other '!' rfl, other '-' rfl]

/-- No string literal is read from a text without quotes. -/
theorem string?_of_noQuote {text : List Char} (noQuote : ∀ c ∈ text, isQuote c = false) :
    string? text = none := by
  have within : ∀ c ∈ (splitRaw text).2, isQuote c = false := by
    intro c member
    unfold splitRaw at member
    split at member
    · exact noQuote c (.tail _ member)
    · exact noQuote c (.tail _ member)
    · exact noQuote c member
  have unread : ∀ {kind lines} (mark : Char) (others : List Char), isQuote mark = true →
      quotedBy? kind (mark :: others) lines text = none := by
    intro kind lines mark others quotes
    have noPrefix : (mark :: others).isPrefixOf (splitRaw text).2 = false := by
      cases body : (splitRaw text).2 with
      | nil => rfl
      | cons c rest =>
        have other : mark ≠ c := by
          rintro rfl
          simp [within mark (by simp [body])] at quotes
        simp [List.isPrefixOf, other]
    simp [quotedBy?, noPrefix]
  rw [string?, unread _ _ rfl, unread _ _ rfl, unread _ _ rfl, unread _ _ rfl]
  rfl

/-- No number is read where a name starts. -/
theorem number?_of_isNameStart {c : Char} (starts : isNameStart c) (rest : List Char) :
    number? (c :: rest) = none := by
  obtain ⟨-, noDigit, noPoint, noMinus⟩ := isNameStart_other starts
  have noZero : c ≠ '0' := by
    rintro rfl
    exact absurd starts (by decide)
  have unsigned : splitMinus (c :: rest) = ([], c :: rest) := by
    unfold splitMinus
    split
    next same => exact absurd (List.cons.inj same).1 noMinus
    · rfl
  have noFloat : float? (c :: rest) = none := by
    simp only [float?, unsigned, List.takeWhile_cons, List.dropWhile_cons, noDigit,
      Bool.false_eq_true, if_false]
    split
    next same => exact absurd (List.cons.inj same).1 noPoint
    · rfl
  have noInteger : integer? (c :: rest) = none := by
    simp only [integer?, unsigned, List.takeWhile_cons, List.dropWhile_cons, noDigit,
      Bool.false_eq_true, if_false]
    split
    next same => exact absurd (List.cons.inj same).1 noZero
    · rfl
  simp only [number?, noFloat, noInteger]

/-- A name is read as an operand up to where no word goes on, if no quote follows at all. -/
theorem operand?_name (isName : IsFieldName name) (noNull : name ≠ "null") (ends : EndsWord rest)
    (noQuote : ∀ c ∈ rest, isQuote c = false) :
    operand? (name.toList ++ rest) = some (⟨.ident, name⟩, rest) := by
  have clean : ∀ c ∈ name.toList ++ rest, isQuote c = false := by
    intro c member
    exact (List.mem_append.mp member).elim (isName.noQuote c) (noQuote c)
  have read := word?_append isName ends
  have isIdent : wordToken name = ⟨.ident, name⟩ := by
    have noTruth := isName.other
    simp only [List.mem_cons, List.not_mem_nil, or_false] at noTruth
    simp [wordToken, noTruth, noNull]
  have noString := string?_of_noQuote clean
  obtain ⟨first, others, spelled, starts⟩ := isName.exists_cons
  have noBytes : bytes? (name.toList ++ rest) = none := by
    rw [spelled] at clean ⊢
    have behind : string? (others ++ rest) = none :=
      string?_of_noQuote fun c member => clean c (.tail _ member)
    simp [bytes?, behind]
  have noNumber : number? (name.toList ++ rest) = none := by
    rw [spelled]
    exact number?_of_isNameStart starts _
  simp [operand?, noBytes, noString, noNumber, read, isIdent]

/-- A field is read behind its dot. -/
theorem name?_append (isName : IsFieldName name) (ends : EndsWord rest) :
    name? (name.toList ++ rest) = some (⟨.ident, name⟩, rest) := by
  have read := word?_append isName ends
  have noTruth := isName.other
  simp only [List.mem_cons, List.not_mem_nil, or_false] at noTruth
  obtain ⟨first, others, spelled, starts⟩ := isName.exists_cons
  have noSkip : skip (name.toList ++ rest) = name.toList ++ rest := by
    rw [spelled, List.cons_append, skip_of_isOperandStart (isNameStart_other starts).1]
  simp [name?, noSkip, read, noTruth]

end Lexer

/-- The characters of fields, each behind a dot. -/
def dottedChars (fields : List String) : List Char :=
  fields.flatMap fun field => '.' :: field.toList

/-- The characters of names with dots between them. -/
theorem toList_dotted (root : String) (fields : List String) :
    (dotted (root :: fields)).toList = root.toList ++ dottedChars fields := by
  induction fields using List.reverseRecOn with
  | nil => simp [dotted, dottedChars]
  | append_singleton fields field ih =>
    rw [dotted_append]
    simp [ih, dottedChars]

/-- There is a dot for every field. -/
theorem length_le_dottedChars (fields : List String) :
    fields.length ≤ (dottedChars fields).length := by
  induction fields with
  | nil => simp
  | cons field rest ih =>
    rw [dottedChars, List.flatMap_cons, ← dottedChars, List.cons_append, List.length_cons,
      List.length_cons, List.length_append]
    omega

/-- A text that can stand behind a path: it goes on with no word, no call and no selection, and has
no quotes. -/
structure EndsPath (text : List Char) : Prop where
  /-- The last name is complete. -/
  word : Lexer.EndsWord text
  /-- Nothing is quoted. -/
  noQuote : ∀ c ∈ text, isQuote c = false
  /-- The last name is no method. -/
  noCall : Lexer.punctuation? '(' text = none
  /-- No selection follows. -/
  ends : ∀ fuel object, Parser.memberTail (fuel + 1) object text = some (object, text)

theorem endsPath_nil : EndsPath [] :=
  ⟨by simp [Lexer.EndsWord], by simp, rfl, fun _ _ => rfl⟩

/-- Fields behind dots go on with no word and no call, and have no quotes. -/
theorem dottedChars_spec (names : ∀ field ∈ fields, IsFieldName field) (ends : EndsPath rest) :
    Lexer.EndsWord (dottedChars fields ++ rest) ∧
      (∀ c ∈ dottedChars fields ++ rest, isQuote c = false) ∧
      Lexer.punctuation? '(' (dottedChars fields ++ rest) = none := by
  refine ⟨?_, ?_, ?_⟩
  · cases fields with
    | nil => exact ends.word
    | cons field rest =>
      intro c isHead
      obtain rfl : '.' = c := by simpa [dottedChars] using isHead
      rfl
  · intro c member
    rcases List.mem_append.mp member with inFields | behind
    · obtain ⟨field, isField, inField⟩ := List.mem_flatMap.mp inFields
      rcases List.mem_cons.mp inField with rfl | inName
      · rfl
      · exact (names field isField).noQuote c inName
    · exact ends.noQuote c behind
  · cases fields with
    | nil => exact ends.noCall
    | cons field rest => rfl

namespace Tree

/-- The selection of a field as an operand with its selections. -/
def selecting (object : Tree) (field : String) : Tree :=
  .node .member [.node .memberDot [object, .token ⟨.ident, field⟩]]

/-- Selections behind each other make a longer chain. -/
theorem chain?_selecting {root : String} {inner : List String}
    (found : object.chain? = some (root, inner)) (fields : List String) :
    (fields.foldl selecting object).chain? = some (root, inner ++ fields) := by
  induction fields generalizing object inner with
  | nil => simpa using found
  | cons field rest ih =>
    have longer : (object.selecting field).chain? = some (root, inner ++ [field]) := by
      simp [selecting, chain?, found]
    simpa using ih longer

/-- A name and the selections behind it. -/
def selections (root : String) (fields : List String) : Tree :=
  fields.foldl selecting (.node .member [.node .primary [.node .ident [.token ⟨.ident, root⟩]]])

/-- A name and the selections behind it are a chain. -/
theorem chain?_selections (root : String) (fields : List String) :
    (selections root fields).chain? = some (root, fields) := by
  have start : (Tree.node .member [.node .primary [.node .ident [.token ⟨.ident, root⟩]]]).chain? =
      some (root, []) := rfl
  have chain := chain?_selecting start fields
  rwa [List.nil_append] at chain

end Tree

namespace Parser

open Lexer

/-- Fields behind dots are read as selections, one after the other. -/
theorem memberTail_fields (fuel : Nat) (object : Tree)
    (names : ∀ field ∈ fields, IsFieldName field) (ends : EndsPath rest) :
    memberTail (fuel + fields.length + 1) object (dottedChars fields ++ rest) =
      some (fields.foldl Tree.selecting object, rest) := by
  induction fields generalizing object with
  | nil => exact ends.ends fuel object
  | cons field others ih =>
    have otherNames : ∀ other ∈ others, IsFieldName other :=
      fun other member => names other (by simp [member])
    obtain ⟨endsWord, -, noCall⟩ := dottedChars_spec otherNames ends
    have text : dottedChars (field :: others) ++ rest =
        '.' :: (field.toList ++ (dottedChars others ++ rest)) := by
      simp [dottedChars]
    have read := name?_append (names field (by simp)) endsWord
    have starts :=
      skip_of_isOperandStart (c := '.') rfl (field.toList ++ (dottedChars others ++ rest))
    rw [text]
    simp only [memberTail, starts, read, noCall]
    exact ih _ otherNames

/-- **Names with dots between them are read as selections.** Every field takes one call. -/
theorem member_dotted (fuel : Nat) {root : String}
    (names : ∀ name ∈ root :: fields, IsFieldName name) (noNull : root ≠ "null")
    (ends : EndsPath rest) :
    member (fuel + fields.length + 2) (root.toList ++ (dottedChars fields ++ rest)) =
      some (Tree.selections root fields, rest) := by
  have fieldNames : ∀ field ∈ fields, IsFieldName field :=
    fun field isField => names field (by simp [isField])
  obtain ⟨endsWord, noQuote, noCall⟩ := dottedChars_spec fieldNames ends
  have read := operand?_name (names root (by simp)) noNull endsWord noQuote
  rw [member, primary_of_name read rfl noCall]
  exact memberTail_fields fuel _ fieldNames ends

/-- **Names with dots between them are read as a chain.** -/
theorem parse?_dotted {root : String} (names : ∀ name ∈ root :: fields, IsFieldName name)
    (noNull : root ≠ "null") :
    ∃ tree, parse? (dotted (root :: fields)) = some tree ∧
      tree.core.chain? = some (root, fields) := by
  obtain ⟨first, others, spelled, starts⟩ := (names root (by simp)).exists_cons
  refine ⟨(Tree.selections root fields).underLevels, ?_, ?_⟩
  · -- Every field has at least its dot in the text, so there are enough calls.
    let behind := others ++ dottedChars fields
    have dots : fields.length ≤ behind.length := by
      have each := length_le_dottedChars fields
      simp only [behind, List.length_append]
      omega
    obtain ⟨fuel, enough⟩ : ∃ fuel, 20 * (behind.length + 1) + 8 = fuel + fields.length + 2 :=
      ⟨20 * (behind.length + 1) + 6 - fields.length, by omega⟩
    have whole : root.toList ++ (dottedChars fields ++ []) = first :: behind := by
      rw [spelled, List.append_nil, List.cons_append]
    have read := member_dotted fuel names noNull endsPath_nil
    rw [whole, ← enough] at read
    rw [parse?, toList_dotted, ← List.append_nil (dottedChars fields), whole,
      parseChars?_of_member (isNameStart_other starts).1 stops_nil read]
    rfl
  · show (Tree.selections root fields).core.chain? = some (root, fields)
    exact Tree.chain?_core (Tree.chain?_selections root fields)

end Parser

/-! ## Conversion of a path -/


namespace Settings

/-- What a conversion gives for the path of a root, a first field and the fields behind it. -/
structure WritesPath (settings : Settings) (root first : String) (rest : List String)
    (result : Except Fault Condition) : Prop where
  /-- A field that holds JSON is written behind its table. -/
  column : settings.catalog.isJson root first = true → rest = [] →
    result = .ok ⟨root ++ "." ++ first, #[]⟩
  /-- The fields behind it are selected from the inside out, and only the last selection is a final
  one. -/
  json : settings.catalog.isJson root first = true → ∀ middle last, rest = middle ++ [last] →
    let inner := middle.foldl (fun base field => settings.dialect.jsonAccess base field false)
      (root ++ "." ++ first)
    result = .ok ⟨settings.dialect.jsonAccess inner last true, #[]⟩
  /-- Behind a field that does not hold JSON, valid names are written with dots. -/
  plain : settings.catalog.isJson root first = false →
    (∀ field ∈ first :: rest, columnNameFault? field = none) →
    result = .ok ⟨dotted (root :: first :: rest), #[]⟩

/-- **Paths are written as they should be at every length.** Without validation, and if no limit is
passed, a tree that is a chain from a valid name is converted to its path. The names of such a chain
with dots between them are the text of such a tree. -/
theorem convert_path (settings : Settings) {root first : String} {rest : List String}
    (valid : columnNameFault? root = none) (unchecked : settings.validate = false) :
    (∀ tree : Tree, tree.core.chain? = some (root, first :: rest) →
      (∀ fault, settings.convertTree tree = .error fault → ¬fault.isLimit) →
      settings.WritesPath root first rest (settings.convertTree tree)) ∧
    ((∀ name ∈ root :: first :: rest, IsFieldName name) →
      ∃ tree, parse? (dotted (root :: first :: rest)) = some tree ∧
        settings.convertIn (dotted (root :: first :: rest)) =
        (settings.convertTree tree).mapError .fault ∧
        tree.core.chain? = some (root, first :: rest)) := by
  constructor
  · intro tree found within
    have converts {text : String}
        (prints : (settings.context.fragment tree.core).Prints settings text) :
        settings.convertTree tree = .ok ⟨text, #[]⟩ :=
      convertTree_of_printing (by simp [fault?, unchecked]) within
        (Context.of_core (·.Prints settings _) .nested prints)
    refine ⟨fun isJson alone => converts ?_, fun isJson middle last more => converts ?_,
      fun noJson names => converts ?_⟩
    · refine Context.prints_jsonChain (.inl unchecked) found valid isJson fun base prints => ?_
      rw [alone]
      exact prints
    · refine Context.prints_jsonChain (.inl unchecked) found valid isJson fun base prints => ?_
      rw [more]
      exact prints.jsonSteps middle last
    · refine Context.prints_dotted unchecked found ?_ ?_
      · rintro name (_ | ⟨_, member⟩)
        · exact valid
        · exact names name member
      · rintro field isFirst
        obtain rfl : first = field := by simpa using isFirst
        exact noJson
  · intro names
    have noNull : root ≠ "null" := by
      rintro rfl
      exact absurd valid (by decide +kernel)
    obtain ⟨tree, read, chain⟩ := Parser.parse?_dotted names noNull
    exact ⟨tree, read, settings.convertIn_of_parse? read, chain⟩

/-- A field inside a field of a JSON column, converted for BigQuery. -/
theorem convert_path_json :
    let settings : Settings :=
      { dialect := .bigquery, catalog :=
        [("users", ⟨[{ name := "preferences", isJson := true }]⟩)] }
    settings.convertIn "users.preferences.theme.dark" =
      .ok ⟨"JSON_VALUE(JSON_QUERY(users.preferences, '$.theme'), '$.dark')", #[]⟩ := by
  intro settings
  obtain ⟨writes, reads⟩ :=
    @convert_path settings "users" "preferences" ["theme", "dark"] (by decide +kernel) rfl
  obtain ⟨tree, -, converted, chain⟩ := reads (by decide +kernel)
  have text : dotted ["users", "preferences", "theme", "dark"] = "users.preferences.theme.dark" :=
    by decide +kernel
  rw [text] at converted
  have within : ∀ fault, settings.convertTree tree = .error fault → ¬fault.isLimit := by
    intro fault failed
    have succeeds : (settings.convertIn "users.preferences.theme.dark").toOption.isSome :=
      by decide +kernel
    rw [converted, failed] at succeeds
    simp [Except.mapError, Except.toOption] at succeeds
  rw [converted, (writes tree chain within).json rfl ["theme"] "dark" rfl]
  rfl

end Settings

end CelWhere
