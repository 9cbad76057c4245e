import CelWhere.Convert.Method
import CelWhere.Proofs.Construct.Expression

/-! # Methods are sound

Each method is sound if its object and its arguments are. A method that reads the text of a string
puts it into a quoted region; only `matches` decides by it what else to write, and keeps its
pattern. Two things are asked of these strings: a pattern stays in its region if the expression is
regular, and the format of a formatted string, which is not looked through for null bytes, is
excused for having one.

* `Surface.formatCall_sound` — the method that can bear a null byte;
* `Surface.methodCall_sound` — all methods. -/

namespace CelWhere

variable {tree : Tree} {token : Token}

/-- The literal that a tree consists of is the first child of a literal node that it consists of. -/
theorem Tree.unwrap?_literal (found : tree.literal? = some token) :
    ∃ rest, tree.unwrap? .literal = some (.token token :: rest) := by
  refine literal?_induction (motive := fun tree => ∃ rest, tree.unwrap? .literal =
    some (.token token :: rest)) ?_ ?_ found
  · intro rest
    unfold Tree.unwrap?
    exact ⟨rest, rfl⟩
  · rintro rule child notLiteral ⟨rest, below⟩
    rw [Tree.unwrap?, if_neg notLiteral]
    exact ⟨rest, below⟩

namespace Surface

open CelWhere.Convert
open CelWhere.Quoting (EvenBackslashes Quotation)

variable {source : Source} {object : Tree} {arguments : List Tree}

/-- The tree of a call of a method with arguments. -/
def methodTree (object : Tree) (method : String) (arguments : List Tree) : Tree :=
  .node .memberDotArg [object, .token ⟨.ident, method⟩, .node .exprList arguments]

/-- A way to write a call is sound for an object and arguments, beside those of the blanked tree. -/
abbrev Handles (source : Source) (write : Tree → List Tree → Fragment) (object : Tree)
    (arguments : List Tree) : Prop :=
  IsSound source (write object arguments) (write object.blanked (arguments.map Tree.blanked))

section

variable {method part : String}

variable (objectPart : source.Part object) (each : ∀ argument ∈ arguments, source.Part argument)

/-! ## Comprehensions -/

section

include objectPart

theorem rowsAs_sound {iterator : String} (isWord : IsWord iterator.toList) :
    IsSound source (rowsAs source.context source.child object iterator)
      (rowsAs source.context source.child object.blanked iterator) :=
  .template (.slot (unnest_sound objectPart.sound)) [.spans (.fixed _) [.word iterator isWord]] rfl

/-- The scope of a variable over the rows of an array. -/
theorem scope_sound {iterator : Tree} (iteratorPart : source.Part iterator)
    {write write' : String → Fragment}
    (writes : ∀ name, IsWord name.toList →
      IsSound source (rowsAs source.context source.child object name)
      (rowsAs source.context source.child object.blanked name) →
      IsSound source (write name) (write' name)) :
    IsSound source (.attempt iterator.identName fun name => .binding name (write name))
      (.attempt iterator.blanked.identName fun name => .binding name (write' name)) := by
  have grammatical := iteratorPart.settled.grammatical
  rw [Tree.identName_blanked grammatical]
  refine .attempt fun name found => .binding ?_ name
  have isWord : IsWord name.toList := isWord_name (grammatical.identName found)
  exact writes name isWord (rowsAs_sound objectPart isWord)

include each

/-- A test of the elements by a condition, if its texts fit around the rows and the condition. -/
theorem quantified_sound {opening middle closing : String}
    (fits : ∀ {rows rows' test test' : Fragment}, IsSound source rows rows' →
      IsSound source test test' → IsSound source (opening ++ rows ++ middle ++ test ++ closing)
      (opening ++ rows' ++ middle ++ test' ++ closing)) :
    Handles source (quantified source.context source.child method opening middle closing) object
      arguments := by
  match arguments, each with
  | [iterator, condition], each =>
    exact scope_sound objectPart (each iterator (by simp)) fun _ _ rows =>
      fits rows (each condition (by simp)).sound
  | [], _ | [_], _ | _ :: _ :: _ :: _, _ => exact .fail _

theorem mapped_sound : Handles source (mapped source.context source.child) object arguments := by
  match arguments, each with
  | [iterator, value], each =>
    exact scope_sound objectPart (each iterator (by simp)) fun name isWord rows =>
      subquery_sound (each value (by simp)).sound rows
  | [iterator, condition, value], each =>
    exact scope_sound objectPart (each iterator (by simp)) fun name isWord rows =>
      subqueryWhere_sound (each value (by simp)).sound rows (each condition (by simp)).sound
  | [], _ | [_], _ | _ :: _ :: _ :: _ :: _, _ => exact .fail _

theorem filtered_sound :
    Handles source (filtered source.context source.child) object arguments := by
  match arguments, each with
  | [iterator, condition], each =>
    refine scope_sound objectPart (each iterator (by simp)) fun name isWord rows => ?_
    -- What is collected is the variable itself.
    have variableSound : IsSound source name name :=
      .template (.spans (.word name isWord) []) [] rfl
    exact subqueryWhere_sound variableSound rows (each condition (by simp)).sound
  | [], _ | [_], _ | _ :: _ :: _ :: _, _ => exact .fail _

end

/-! ## Strings and patterns -/

section

include objectPart

/-- The test that a string matches a pattern that is regular, the same for the blanked tree. -/
theorem matchTest_sound
    (even : source.Regular → source.dialect = .mysql → EvenBackslashes token.stringValue.toList) :
    IsSound source (matchTest source.context source.child object token)
      (matchTest source.context source.child object.blanked token) := by
  refine .attempt fun converted accepted => ?_
  have written : (String.ofList converted.pattern).toList = converted.pattern :=
    String.toList_ofList
  refine regexMatch_sound objectPart.sound _ ?_ fun regular isMysql => ?_
  · rw [written]
    exact null_not_mem_convertRegex accepted
  · have evenSource := even regular isMysql
    rw [show source.context.dialect = .mysql from isMysql] at accepted
    rw [written]
    exact (Quoting.evenBackslashes_captured accepted).mpr evenSource

/-- The test that a string matches a pattern, called as a method, which keeps the pattern. -/
theorem matchesMethod_sound
    (member : arguments ≠ [] → methodTree object "matches" arguments ∈ source.tree.parts) :
    IsSound source (matchesMethod source.context source.child object arguments)
      (matchesMethod source.context source.child object.blanked
        (Tree.blankedBut (Tree.keptByMethod "matches") arguments)) := by
  match arguments, member with
  | [pattern], member =>
    show IsSound source (matchesMethod source.context source.child object [pattern])
      (matchesMethod source.context source.child object.blanked [pattern])
    simp only [matchesMethod]
    split
    next token found =>
      refine matchTest_sound objectPart fun regular isMysql => ?_
      have safe := regular.1 .matchesMethod object pattern token (member (by simp)) found
      rw [isMysql] at safe
      exact safe
    · exact .fail _
  | [], _ | _ :: _ :: _, _ => exact .fail _

theorem sizeOfValue_sound :
    IsSound source (sizeOfValue source.context source.child object)
      (sizeOfValue source.context source.child object.blanked) := by
  unfold sizeOfValue
  rw [source.context.catalog.isArrayValue_blanked objectPart.settled.grammatical]
  refine .attempt fun isArray _ => ?_
  split
  · exact arrayLength_sound objectPart.sound 1
  · exact applied_sound objectPart.sound (by decide)

include each

theorem containsTest_sound :
    Handles source (containsTest source.context source.child) object arguments := by
  match arguments, each with
  | [part], each =>
    have partPart := each part (by simp)
    have test := contains_sound objectPart.sound partPart.sound
    simp only [Handles, List.map_cons, List.map_nil, containsTest]
    rcases stringLiteral?_cases partPart.settled.grammatical with
      ⟨none, none'⟩ | ⟨token, other, one, two, empty⟩
    · rw [none, none']
      exact test
    · -- A blanked string is empty and passes the check for null bytes.
      rw [one, two]
      exact .withoutNull (by rw [empty]; rfl) fun _ => test
  | [], _ | _ :: _ :: _, _ => exact .fail _

/-- A test of a string against a literal at one of its ends, if it is sound for the literals of
regular sources. -/
theorem affixTest_sound {test : Fragment → String → Fragment}
    (writes : ∀ {one one' : Fragment} {text : String} (other : String), IsSound source one one' →
      '\x00' ∉ text.toList → (source.Regular → source.dialect = .bigquery → '\'' ∉ text.toList) →
      IsSound source (test one text) (test one' other))
    (noQuote : ∀ part token, arguments = [part] → part.stringLiteral? = some token →
      source.Regular → source.dialect = .bigquery → '\'' ∉ token.stringValue.toList) :
    Handles source (affixTest source.child method test) object arguments := by
  match arguments, each, noQuote with
  | [part], each, noQuote =>
    simp only [Handles, List.map_cons, List.map_nil, affixTest]
    rcases stringLiteral?_cases (each part (by simp)).settled.grammatical with
      ⟨none, none'⟩ | ⟨token, other, found, two, empty⟩
    · rw [none]
      exact .fail _
    · rw [found, two]
      exact .withoutNull (by rw [empty]; rfl) fun clean =>
        writes _ objectPart.sound clean (noQuote part token rfl found)
  | [], _, _ | _ :: _ :: _, _, _ => exact .fail _

end

/-! ## Positions and parts -/

theorem positionFromOne_sound {index : Tree} (part : source.Part index) :
    IsSound source (positionFromOne source.child index)
      (positionFromOne source.child index.blanked) := by
  unfold positionFromOne
  rw [Tree.intLiteral?_blanked part.settled.grammatical]
  split
  · exact .attempt fun value _ => .template (.number _ _ _) [] rfl
  · exact .template (.slot part.sound) [.fixed _] rfl

theorem substringRange_sound {start finish : Tree} (startPart : source.Part start)
    (finishPart : source.Part finish) :
    IsSound source (substringRange source.child start finish)
      (substringRange source.child start.blanked finish.blanked) := by
  unfold substringRange
  rw [Tree.intLiteral?_blanked startPart.settled.grammatical,
    Tree.intLiteral?_blanked finishPart.settled.grammatical]
  split
  · refine .attempt fun first _ => ?_
    -- The length is computed here if the end is a number too.
    cases finish.intLiteral? with
    | some token =>
      have length : IsSound source
          (.attempt (readInteger .decimal token.text) fun last => .number "" (last - first) "")
          (.attempt (readInteger .decimal token.text) fun last => .number "" (last - first) "") :=
        .attempt fun last _ => .template (.number _ _ _) [] rfl
      exact .template (.number _ _ _) [.fixed _, .slot length] rfl
    | none =>
      have length : IsSound source (source.child finish ++ .number " - (" first ")")
          (source.child finish.blanked ++ .number " - (" first ")") :=
        .template (.slot finishPart.sound) [.number _ _ _] rfl
      exact .template (.number _ _ _) [.fixed _, .slot length] rfl
  · exact .template (.slot startPart.sound)
      [.fixed _, .slot finishPart.sound, .fixed _, .slot startPart.sound, .fixed _] rfl

section

include objectPart each

theorem charAt_sound : Handles source (charAt source.child) object arguments := by
  match arguments, each with
  | [index], each =>
    have position := positionFromOne_sound (each index (by simp))
    exact .template (.fixed _) [.slot objectPart.sound, .fixed _, .slot position, .fixed _] rfl
  | [], _ | _ :: _ :: _, _ => exact .fail _

theorem indexOfCall_sound : Handles source (indexOfCall source.child) object arguments := by
  match arguments, each with
  | [part], each => exact indexOf_sound objectPart.sound (each part (by simp)).sound
  | [part, offset], each =>
    have partSound := (each part (by simp)).sound
    have offsetPart := each offset (by simp)
    simp only [Handles, List.map_cons, List.map_nil, indexOfCall,
      Tree.intLiteral?_blanked offsetPart.settled.grammatical]
    split
    · exact .attempt fun value _ => indexOfFrom_sound objectPart.sound partSound value
    · exact indexOfFromExpr_sound objectPart.sound partSound offsetPart.sound
  | [], _ | _ :: _ :: _ :: _, _ => exact .fail _

theorem lastIndexOfCall_sound : Handles source (lastIndexOfCall source.child) object arguments := by
  match arguments, each with
  | part :: _, each => exact lastIndexOf_sound objectPart.sound (each part (by simp)).sound
  | [], _ => exact .fail _

theorem substring_sound : Handles source (substring source.child) object arguments := by
  match arguments, each with
  | [start], each =>
    have position := positionFromOne_sound (each start (by simp))
    exact .template (.fixed _) [.slot objectPart.sound, .fixed _, .slot position, .fixed _] rfl
  | [start, finish], each =>
    have range := substringRange_sound (each start (by simp)) (each finish (by simp))
    exact .template (.fixed _) [.slot objectPart.sound, .fixed _, .slot range, .fixed _] rfl
  | [], _ | _ :: _ :: _ :: _, _ => exact .fail _

theorem replacement_sound : Handles source (replacement source.child) object arguments := by
  have replacedSound {part substitute : Tree} (partPart : source.Part part)
      (substitutePart : source.Part substitute) :
      IsSound source (replaced source.child object part substitute)
        (replaced source.child object.blanked part.blanked substitute.blanked) :=
    .template (.fixed _) [.slot objectPart.sound, .fixed _, .slot partPart.sound, .fixed _,
      .slot substitutePart.sound, .fixed _] rfl
  match arguments, each with
  | [part, substitute], each =>
    exact replacedSound (each part (by simp)) (each substitute (by simp))
  | [part, substitute, limit], each =>
    have whole := replacedSound (each part (by simp)) (each substitute (by simp))
    simp only [Handles, List.map_cons, List.map_nil, replacement,
      Tree.intLiteral?_blanked (each limit (by simp)).settled.grammatical]
    split
    · refine .attempt fun value _ => ?_
      split
      · exact whole
      · exact .fail _
    · exact whole
  | [], _ | [_], _ | _ :: _ :: _ :: _ :: _, _ => exact .fail _

theorem splitCall_sound :
    Handles source (splitCall source.context source.child) object arguments := by
  match arguments, each with
  | [delimiter], each => exact split_sound objectPart.sound (each delimiter (by simp)).sound
  | [delimiter, limit], each =>
    have delimiterSound := (each delimiter (by simp)).sound
    simp only [Handles, List.map_cons, List.map_nil, splitCall,
      Tree.intLiteral?_blanked (each limit (by simp)).settled.grammatical]
    split
    · refine .attempt fun value _ => ?_
      -- By the limit: all parts, none, the whole string, an error, or as many as asked for.
      unfold splitUpTo
      split
      · exact split_sound objectPart.sound delimiterSound
      split
      · exact emptyArray_sound
      split
      · exact (arrayLiteral_sound objectPart.sound).mono rfl
      split
      · exact .fail _
      · exact splitLimited_sound objectPart.sound delimiterSound value
    · exact .fail _
  | [], _ | _ :: _ :: _ :: _, _ => exact .fail _

theorem joinCall_sound :
    Handles source (joinCall source.context source.child) object arguments := by
  match arguments, each with
  | [], _ =>
    have quoted : IsSound source (source.dialect.stringLiteral "")
        (source.dialect.stringLiteral "") := by
      cases source with
      | _ => exact .text "''" rfl rfl
    exact joinStrings_sound objectPart.sound quoted
  | [delimiter], each => exact joinStrings_sound objectPart.sound (each delimiter (by simp)).sound
  | _ :: _ :: _, _ => exact .fail _

end

/-! ## Formats -/

/-- The arguments of a format, of which each stands behind a comma. -/
theorem formatArguments_sound {items : List Tree} (parts : ∀ item ∈ items, source.Part item) :
    Sound source .gentle (formatArguments source.child items)
      (formatArguments source.child (items.map Tree.blanked)) := by
  induction items with
  | nil => exact .template (.fixed _) [] rfl
  | cons item rest ih =>
    have later := ih fun other member => parts other (by simp [member])
    exact .template (.fixed _) [.slot (parts item (by simp)).sound, .slot later] rfl

/-- In a regular expression for MySQL, the backslashes of a string that a settled tree consists of
leave all quotes unescaped. -/
theorem Source.Regular.even_of_settled (regular : source.Regular) (settled : source.Settled tree)
    (found : tree.stringLiteral? = some token) :
    source.dialect = .mysql → EvenBackslashes token.stringValue.toList := by
  obtain ⟨given, isString⟩ := Option.filter_eq_some_iff.mp found
  obtain ⟨literal, notEmpty⟩ := Option.filter_eq_some_iff.mp given
  obtain ⟨rest, unwrapped⟩ := Tree.unwrap?_literal literal
  have ready := (Source.hereditary_settled.unwrap settled unwrapped).ready
  -- A literal node has its token as the only child.
  obtain ⟨kind, -, one⟩ := ready.produced
  obtain rfl : rest = [] := by simpa using congrArg List.length one
  exact regular.even ready.mem isString (by simpa using notEmpty)

/-- A format and the values that stand behind it. The text of the format is not looked through for
null bytes. -/
theorem format_sound {format : List Char} (other : List Char) {values values' : Fragment}
    (even : source.Regular → source.dialect = .mysql → EvenBackslashes format)
    (valuesSound : Sound source .gentle values values')
    (bears : '\x00' ∈ format → source.BearsNull
      ("FORMAT(" ++ (source.dialect.stringLiteral (String.ofList (plainFormat format)) : String) ++
      values ++ ")")) :
    IsSound source
      ("FORMAT(" ++ (source.dialect.stringLiteral (String.ofList (plainFormat format)) : String) ++
        values ++ ")")
      ("FORMAT(" ++ (source.dialect.stringLiteral (String.ofList (plainFormat other)) : String) ++
        values' ++ ")") := by
  have written : (String.ofList (plainFormat format)).toList = plainFormat format :=
    String.toList_ofList
  have quoted : Quoted source ('\x00' ∈ format) '\''
      (source.dialect.escapeString (String.ofList (plainFormat format)))
      (source.dialect.escapeString (String.ofList (plainFormat other))) := by
    refine quoted_escapeString _ (fun regular isMysql => ?_) fun hasNull => ?_
    · rw [written, ← Quoting.evenFrom_iff, evenFrom_plainFormat, Quoting.evenFrom_iff]
      exact even regular isMysql
    · rwa [written, null_mem_plainFormat] at hasNull
  exact .templateUnless (.fixed _) [.spans (.fixed _) [.content quoted, .fixed _],
    .slot valuesSound, .fixed _] rfl bears

/-- A formatted string, which bears a null byte if its format has one. -/
theorem formatCall_sound (objectSettled : source.Settled object)
    (each : ∀ argument ∈ arguments, source.Settled argument)
    (member : arguments ≠ [] → methodTree object "format" arguments ∈ source.tree.parts) :
    Handles source (formatCall source.context source.child) object arguments := by
  match arguments, each, member with
  | [list], each, member =>
    have part := member (by simp)
    have converted : source.context.fragment (methodTree object "format" [list]) =
        formatCall source.context source.child object [list] := Context.fragment_eq ..
    simp only [Handles, List.map_cons, List.map_nil, formatCall] at converted ⊢
    rcases stringLiteral?_cases objectSettled.grammatical with
      ⟨none, none'⟩ | ⟨token, other, found, two, empty⟩
    · rw [none]
      exact .fail _
    · rw [found] at converted ⊢
      rw [two]
      simp only [empty] at converted ⊢
      cases specifier : unsupportedSpecifier? token.stringValue.toList with
      | some letter => exact .fail _
      | none =>
        simp only [specifier] at converted ⊢
        refine format_sound [] ?_ ?_ fun hasNull =>
          ⟨_, part, converted, token.stringValue, ?_, hasNull⟩
        · exact fun regular => regular.even_of_settled objectSettled found
        · -- The values are those of the list, if the argument is one and has some.
          have noValues : Sound source .gentle .empty .empty := .template (.fixed _) [] rfl
          rw [Tree.unwrap?_blanked (by simp) (by simp) (by simp)]
          cases unwrapped : list.unwrap? .listLit with
          | none => exact noValues
          | some children =>
            have listReady :=
              (Source.hereditary_settled.unwrap (each list (by simp)) unwrapped).ready
            rcases listReady.produced with none | one
            · obtain rfl : children = [] := by simpa using none
              exact noValues
            · obtain ⟨items, rfl, label⟩ := Tree.map_label_one.mp one
              obtain ⟨items, rfl⟩ := Tree.label_eq_rule.mp label
              have itemsSettled : source.Settled (.node .exprList items) :=
                listReady.each _ (by simp)
              simp only [Option.map_some, List.map_cons, List.map_nil, Tree.blanked_node,
                Tree.blankedChildren]
              exact formatArguments_sound itemsSettled.items
        · simp [methodTree, Tree.unchecked?, found]
  | [], _, _ | _ :: _ :: _, _, _ => exact .fail _

/-! ## Times -/

/-- The parts of timestamps are words. -/
theorem isWord_timestampPart {fromZero : Bool}
    (found : timestampPart? method = some (part, fromZero)) :
    IsWord part.toList := by
  unfold timestampPart? at found
  split at found <;> cases found <;> decide

include objectPart each

theorem timestampPart_sound (isWord : IsWord part.toList) (fromZero : Bool) :
    IsSound source (timestampPart source.context source.child object part fromZero arguments)
      (timestampPart source.context source.child object.blanked part fromZero
        (arguments.map Tree.blanked)) := by
  -- The first argument, if there is one, is the time zone.
  have zones : Option.Rel (IsSound source) (arguments.head?.map source.child)
      ((arguments.map Tree.blanked).head?.map source.child) := by
    cases arguments with
    | nil => exact .none
    | cons zone rest => exact .some (each zone (by simp)).sound
  have value := extract_sound objectPart.sound isWord zones
  unfold timestampPart
  split
  · exact .template (.slot value) [.fixed _] rfl
  · exact value

/-! ## Calls -/

theorem callMethod_sound
    (member : arguments ≠ [] → methodTree object method arguments ∈ source.tree.parts) :
    IsSound source (callMethod source.context source.child object method arguments)
      (callMethod source.context source.child object.blanked method
        (Tree.blankedBut (Tree.keptByMethod method) arguments)) := by
  -- Of all methods only `matches` keeps an argument.
  by_cases isMatches : method = "matches"
  · subst isMatches
    exact matchesMethod_sound objectPart member
  have noneKept : Tree.keptByMethod method = fun _ => false := by
    funext position
    simp [Tree.keptByMethod, isMatches]
  rw [noneKept, Tree.blankedBut_none]
  have applied {function : String} (isWord : IsWord function.toList) :
      IsSound source (applied function (source.child object))
        (applied function (source.child object.blanked)) :=
    applied_sound objectPart.sound isWord
  by_cases isPart : (timestampPart? method).isSome
  · obtain ⟨entry, found⟩ := Option.isSome_iff_exists.mp isPart
    rw [callMethod_of_part found, callMethod_of_part found]
    exact timestampPart_sound objectPart each (isWord_timestampPart found) _
  -- One case for each other name, in the order in which they are tried.
  fun_cases callMethod source.context source.child object method arguments
  iterate 3
    exact .comprehension <| quantified_sound objectPart each fun rows test =>
      .template (.fixed _) [.slot rows, .fixed _, .slot test, .fixed _] rfl
  · exact .comprehension (mapped_sound objectPart each)
  · exact .comprehension (filtered_sound objectPart each)
  · exact containsTest_sound objectPart each
  · refine affixTest_sound objectPart each (startsWith_sound ·)
      fun part token given found regular isBigQuery => ?_
    subst given
    have safe := regular.1 .startsWith object part token (member (by simp)) found
    rwa [isBigQuery] at safe
  · refine affixTest_sound objectPart each (endsWith_sound ·)
      fun part token given found regular isBigQuery => ?_
    subst given
    have safe := regular.1 .endsWith object part token (member (by simp)) found
    rwa [isBigQuery] at safe
  · exact absurd rfl isMatches
  · exact sizeOfValue_sound objectPart
  · exact applied (by decide)
  · exact applied (by decide)
  · exact applied (by decide)
  · exact charAt_sound objectPart each
  · exact indexOfCall_sound objectPart each
  · exact lastIndexOfCall_sound objectPart each
  · exact substring_sound objectPart each
  · exact replacement_sound objectPart each
  · exact applied (by decide)
  · exact splitCall_sound objectPart each
  · exact joinCall_sound objectPart each
  · exact formatCall_sound objectPart.settled (fun argument within =>
      (each argument within).settled) member
  · simp [‹timestampPart? method = some _›] at isPart
  · rw [‹timestampPart? method = none›]
    exact .fail _

end

theorem methodCall_sound {children : List Tree} (ready : source.Ready .memberDotArg children) :
    IsSound source (methodCall source.context source.child children)
      (methodCall source.context source.child (Tree.blankedChildren .memberDotArg children)) := by
  obtain ⟨object, name, label, rfl | ⟨items, rfl⟩⟩ := ready.grammatical.memberDotArg
  · have noArguments : ∀ argument ∈ ([] : List Tree), source.Part argument := by simp
    exact callMethod_sound (ready.part (by simp) label) noArguments (absurd rfl)
  · have itemsSettled : source.Settled (.node .exprList items) := ready.each _ (by simp)
    exact callMethod_sound (ready.part (by simp) label) itemsSettled.items fun _ => ready.mem

end Surface

end CelWhere
