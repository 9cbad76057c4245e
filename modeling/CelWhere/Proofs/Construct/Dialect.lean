import CelWhere.Proofs.Construct.Template

/-! # Constructs of the dialects are sound

Every construct of the dialects is sound if its parts are. Each lemma names the pieces of its
construct from left to right, one case for each way to write it. What is asked of the contents of
strings is what keeps their regions closed. -/

namespace CelWhere.Surface

variable {text field part : String} (other : String) (value : Int)

open CelWhere.Quoting (EvenBackslashes)

/-- What holds of the sources of each dialect. -/
@[elab_as_elim, cases_eliminator]
theorem Source.dialectCases {motive : Source → Prop}
    (postgresql : ∀ catalog tree grammatical, motive ⟨⟨.postgresql, catalog⟩, tree, grammatical⟩)
    (mysql : ∀ catalog tree grammatical, motive ⟨⟨.mysql, catalog⟩, tree, grammatical⟩)
    (sqlite : ∀ catalog tree grammatical, motive ⟨⟨.sqlite, catalog⟩, tree, grammatical⟩)
    (duckdb : ∀ catalog tree grammatical, motive ⟨⟨.duckdb, catalog⟩, tree, grammatical⟩)
    (bigquery : ∀ catalog tree grammatical, motive ⟨⟨.bigquery, catalog⟩, tree, grammatical⟩)
    (source : Source) :
    motive source := by
  obtain ⟨⟨dialect, catalog⟩, tree, grammatical⟩ := source
  cases dialect with
  | postgresql => exact postgresql catalog tree grammatical
  | mysql => exact mysql catalog tree grammatical
  | sqlite => exact sqlite catalog tree grammatical
  | duckdb => exact duckdb catalog tree grammatical
  | bigquery => exact bigquery catalog tree grammatical

variable {source : Source} {one one' two two' three three' : Fragment}

/-! ## Contents of strings -/

/-- Text without quotes, backslashes and null bytes, the same for the blanked tree. -/
theorem quoted_plain (noQuote : '\'' ∉ text.toList) (noBackslash : '\\' ∉ text.toList)
    (noNull : '\x00' ∉ text.toList) :
    Quoted source False '\'' text text :=
  ⟨fun _ => ⟨Lexical.quotable_of_not_mem noQuote, Lexical.quotable_of_not_mem noQuote⟩,
    fun _ => .of_not_mem noQuote noBackslash, noNull⟩

/-- The escaped inside of a string literal, whatever stands in its place for the blanked tree. -/
theorem quoted_escapeString {excused : Prop}
    (even : source.Regular → source.dialect = .mysql → EvenBackslashes text.toList)
    (clean : '\x00' ∈ text.toList → excused) :
    Quoted source excused '\'' (source.dialect.escapeString text)
      (source.dialect.escapeString other) := by
  have quotable (standard : source.dialect ∈ Dialect.standard) (text : String) :
      Lexical.Quotable (source.dialect.escapeString text).toList := by
    unfold Dialect.escapeString
    cases source with
    | postgresql | sqlite | duckdb =>
      rw [String.toList_ofList]
      exact Lexical.quotable_doubleQuotes _
    | mysql | bigquery => simp [Dialect.standard] at standard
  exact ⟨fun standard => ⟨quotable standard.1 text, quotable standard.1 other⟩,
    fun regular => stays_escapeString (even regular), fun member =>
      clean (null_mem_escapeString.mp member)⟩

/-- The name of a field. -/
theorem quoted_name (source : Source) (isWord : IsWord field.toList) :
    Quoted source False '\'' (source.dialect.escapeString field)
      (source.dialect.escapeString field) :=
  quoted_escapeString field (fun _ _ => isWord.evenBackslashes) isWord.null_not_mem

/-- The pattern of a text, whatever stands in its place for the blanked tree. -/
theorem quoted_likePattern (clean : '\x00' ∉ text.toList)
    (noQuote : source.Regular → source.dialect = .bigquery → '\'' ∉ text.toList) :
    Quoted source False '\'' (String.ofList (likePattern text.toList))
      (String.ofList (likePattern other.toList)) := by
  refine ⟨fun _ => ?_, fun regular => ?_, fun member => clean ?_⟩
  · rw [String.toList_ofList, String.toList_ofList]
    exact ⟨Lexical.quotable_likePattern _, Lexical.quotable_likePattern _⟩
  · rw [String.toList_ofList]
    exact stays_likePattern (noQuote regular)
  · rw [String.toList_ofList] at member
    exact null_mem_likePattern member

/-- The types that an expression can ask for. -/
def castTypes : List String := ["bool", "bytes", "double", "int", "uint", "string"]

/-- The SQL names of the types that an expression can ask for are words. -/
theorem isWord_typeName {dialect : Dialect} {type : String} (isType : type ∈ castTypes) :
    IsWord (dialect.typeName type).toList := by
  simp only [castTypes, List.mem_cons, List.not_mem_nil, or_false] at isType
  rcases isType with rfl | rfl | rfl | rfl | rfl | rfl <;> cases dialect <;> decide

/-- The conversions of parts of a date do no harm in a quoted region. -/
theorem dateFormat_spelled {format : String} (found : dateFormat? part = some format) :
    '\'' ∉ format.toList ∧ '\\' ∉ format.toList ∧ '\x00' ∉ format.toList := by
  unfold dateFormat? at found
  split at found <;> cases found <;> decide

section

/-! ## One operand -/

variable (first : IsSound source one one')

include first

theorem applied_sound {function : String} (isWord : IsWord function.toList) :
    IsSound source (applied function one) (applied function one') :=
  .template (.spans (.word function isWord) [.fixed _]) [.slot first, .fixed _] rfl

/-- A test that a string starts with a text, whatever stands in its place for the blanked tree. -/
theorem startsWith_sound (clean : '\x00' ∉ text.toList)
    (noQuote : source.Regular → source.dialect = .bigquery → '\'' ∉ text.toList) :
    IsSound source (source.dialect.startsWith one text) (source.dialect.startsWith one' other) := by
  have quoted := quoted_likePattern other clean noQuote
  cases source with
  | _ => exact .template (.slot first) [.spans (.fixed _) [.content quoted, .fixed _], .fixed _] rfl

/-- A test that a string ends with a text, whatever stands in its place for the blanked tree. -/
theorem endsWith_sound (clean : '\x00' ∉ text.toList)
    (noQuote : source.Regular → source.dialect = .bigquery → '\'' ∉ text.toList) :
    IsSound source (source.dialect.endsWith one text) (source.dialect.endsWith one' other) := by
  have quoted := quoted_likePattern other clean noQuote
  cases source with
  | _ => exact .template (.slot first) [.spans (.fixed _) [.content quoted, .fixed _], .fixed _] rfl

/-- A match against a regular expression, the same for the blanked tree. -/
theorem regexMatch_sound {pattern : String} (caseInsensitive : Bool)
    (clean : '\x00' ∉ pattern.toList)
    (even : source.Regular → source.dialect = .mysql → EvenBackslashes pattern.toList) :
    IsSound source (source.dialect.regexMatch one pattern caseInsensitive)
      (source.dialect.regexMatch one' pattern caseInsensitive) := by
  have quoted := quoted_escapeString pattern even clean
  cases source with
  | postgresql | mysql =>
    cases caseInsensitive <;>
      exact .template (.slot first) [.fixed _, .spans (.fixed _) [.content quoted, .fixed _]] rfl
  | duckdb =>
    cases caseInsensitive <;>
      exact .template (.fixed _) [.slot first, .spans (.fixed _) [.content quoted, .fixed _]] rfl
  | bigquery =>
    cases caseInsensitive <;>
      exact .template (.fixed _) [.slot first, .fixed _,
        .spans (.fixed _) [.content quoted, .fixed _], .fixed _] rfl
  | sqlite => exact .fail _

theorem arrayLength_sound (dimension : Int) :
    IsSound source (source.dialect.arrayLength dimension one)
      (source.dialect.arrayLength dimension one') := by
  cases source with
  | postgresql => exact .template (.fixed _) [.slot first, .number _ _ _] rfl
  | mysql | sqlite | duckdb | bigquery => exact .template (.fixed _) [.slot first, .fixed _] rfl

theorem elementAt_sound (index : Int) :
    IsSound source (source.dialect.elementAt one index) (source.dialect.elementAt one' index) := by
  cases source with
  | postgresql | duckdb | bigquery => exact .template (.slot first) [.number _ _ _] rfl
  | mysql | sqlite => exact .template (.fixed _) [.slot first, .number _ _ _] rfl

theorem unnest_sound : IsSound source (source.dialect.unnest one) (source.dialect.unnest one') := by
  cases source with
  | _ => exact .template (.fixed _) [.slot first, .fixed _] rfl

theorem cast_sound {type : String} (isType : type ∈ castTypes) :
    IsSound source (source.dialect.cast one type) (source.dialect.cast one' type) :=
  .template (.fixed _) [.slot first, .fixed _, .spans (.word _ (isWord_typeName isType)) [],
    .fixed _] rfl

theorem castToNumeric_sound :
    IsSound source (source.dialect.castToNumeric one) (source.dialect.castToNumeric one') := by
  cases source with
  | postgresql | mysql | sqlite | duckdb => exact .template (.slot first) [.fixed _] rfl
  | bigquery => exact .template (.fixed _) [.slot first, .fixed _] rfl

theorem epochSeconds_sound :
    IsSound source (source.dialect.epochSeconds one) (source.dialect.epochSeconds one') := by
  cases source with
  | _ => exact .template (.fixed _) [.slot first, .fixed _] rfl

theorem castToTimestamp_sound :
    IsSound source (source.dialect.castToTimestamp one) (source.dialect.castToTimestamp one') := by
  cases source with
  | _ => exact .template (.fixed _) [.slot first, .fixed _] rfl

theorem extractPart_sound (isWord : IsWord part.toList) {zone zone' : Option Fragment}
    (zones : Option.Rel (IsSound source) zone zone') :
    IsSound source (Dialect.extractPart part one zone) (Dialect.extractPart part one' zone') := by
  cases zones with
  | some second =>
    exact .template (.spans (.fixed _) [.word part isWord, .fixed _])
      [.slot first, .fixed _, .slot second, .fixed _] rfl
  | none =>
    exact .template (.spans (.fixed _) [.word part isWord, .fixed _]) [.slot first, .fixed _] rfl

theorem extract_sound (isWord : IsWord part.toList) {zone zone' : Option Fragment}
    (zones : Option.Rel (IsSound source) zone zone') :
    IsSound source (source.dialect.extract part one zone)
      (source.dialect.extract part one' zone') := by
  cases source with
  | postgresql | duckdb => exact extractPart_sound first isWord zones
  | bigquery =>
    refine extractPart_sound first ?_ zones
    split
    · decide
    · exact isWord
  | mysql =>
    show IsSound _ (if part = "DOW" then _ else _) (if part = "DOW" then _ else _)
    split
    · exact .template (.fixed _) [.slot first, .fixed _] rfl
    · exact extractPart_sound first isWord .none
  | sqlite =>
    unfold Dialect.extract
    cases found : dateFormat? part with
    | some format =>
      obtain ⟨noQuote, noBackslash, noNull⟩ := dateFormat_spelled found
      exact .template (.spans (.fixed _) [.content (quoted_plain noQuote noBackslash noNull),
        .fixed _])
        [.slot first, .fixed _] rfl
    | none => exact extractPart_sound first isWord .none

/-- An interval has no null bytes but those of its value, if its unit has none. -/
theorem interval_clean {unit : String} (noNull : '\x00' ∉ unit.toList) :
    Clean source False (source.dialect.interval one unit) := by
  have text {sql : String} (clean : '\x00' ∉ sql.toList) : Clean source False (.text sql) := by
    intro found member hasNull
    obtain rfl := List.mem_singleton.mp member
    exact absurd hasNull clean
  have plain : Clean source False (.text "INTERVAL " ++ one ++ .text (" " ++ unit) : Fragment) :=
    ((text (by decide)).append first.clean).append (text (by simp [noNull]))
  have modifier : Clean source False
      (.text "'+' || " ++ one ++ .text (" || ' " ++ modifierUnit unit ++ "s'") : Fragment) :=
    ((text (by decide)).append first.clean).append (text (by simp [null_mem_modifierUnit, noNull]))
  cases source with
  | postgresql | mysql | duckdb | bigquery => exact plain
  | sqlite => exact modifier

/-- An interval whose unit is a name. -/
theorem interval_sound {unit : String} (isName : ∀ c ∈ unit.toList, Lexer.isNameChar c) :
    IsSound source (source.dialect.interval one unit) (source.dialect.interval one' unit) := by
  cases source with
  | postgresql | mysql | duckdb | bigquery =>
    exact .template (.fixed _) [.slot first,
      .spans (.fixed _) [.word unit (isWord_name isName)]] rfl
  | sqlite =>
    exact .template (.fixed _) [.slot first,
      .spans (.fixed _) [.word _ (isWord_modifierUnit isName), .fixed _]] rfl

/-! ## Two operands -/

variable (second : IsSound source two two')

include second

/-- The position of one string in another, both of which are written twice. -/
theorem indexOf_sound : IsSound source (indexOf one two) (indexOf one' two') :=
  .template (.fixed _) [.slot second, .fixed _, .slot first, .fixed _, .slot second,
    .fixed _, .slot first, .fixed _] rfl

theorem indexOfFrom_sound (offset : Int) :
    IsSound source (indexOfFrom one two offset) (indexOfFrom one' two' offset) :=
  .template (.fixed _) [.slot second, .fixed _, .slot first, .number _ _ _, .fixed _,
    .slot second, .fixed _, .slot first, .number _ _ _, .number _ _ _] rfl

theorem indexOfFromExpr_sound (third : IsSound source three three') :
    IsSound source (indexOfFromExpr one two three) (indexOfFromExpr one' two' three') :=
  .template (.fixed _) [.slot second, .fixed _, .slot first, .fixed _, .slot third, .fixed _,
    .fixed _, .slot second, .fixed _, .slot first, .fixed _, .slot third, .fixed _, .fixed _,
    .slot third, .fixed _] rfl

/-- The last position, which is found in the reversed strings. -/
theorem lastIndexOf_sound : IsSound source (lastIndexOf one two) (lastIndexOf one' two') :=
  .template (.fixed _) [.slot second, .fixed _, .slot first, .fixed _, .slot first, .fixed _,
    .slot second, .fixed _, .slot first, .fixed _, .slot second, .fixed _] rfl

theorem concat_sound :
    IsSound source (source.dialect.concat one two) (source.dialect.concat one' two') := by
  cases source with
  | postgresql | sqlite | duckdb | bigquery =>
    exact .template (.slot first) [.fixed _, .slot second] rfl
  | mysql => exact .template (.fixed _) [.slot first, .fixed _, .slot second, .fixed _] rfl

theorem contains_sound :
    IsSound source (source.dialect.contains one two) (source.dialect.contains one' two') := by
  cases source with
  | postgresql | mysql =>
    exact .template (.fixed _) [.slot second, .fixed _, .slot first, .fixed _] rfl
  | sqlite | duckdb | bigquery =>
    exact .template (.fixed _) [.slot first, .fixed _, .slot second, .fixed _] rfl

theorem split_sound :
    IsSound source (source.dialect.split one two) (source.dialect.split one' two') := by
  cases source with
  | postgresql | duckdb | bigquery =>
    exact .template (.fixed _) [.slot first, .fixed _, .slot second, .fixed _] rfl
  | mysql => exact .template (.fixed _) [.slot first, .fixed _] rfl
  | sqlite => exact .fail _

theorem splitLimited_sound (limit : Int) :
    IsSound source (source.dialect.splitLimited one two limit)
      (source.dialect.splitLimited one' two' limit) := by
  cases source with
  | postgresql | duckdb | bigquery =>
    exact .template (.fixed _) [.slot first, .fixed _, .slot second, .number _ _ _] rfl
  | mysql => exact .template (.fixed _) [.slot first, .fixed _] rfl
  | sqlite => exact .fail _

theorem joinStrings_sound :
    IsSound source (source.dialect.joinStrings one two) (source.dialect.joinStrings one' two') := by
  cases source with
  | postgresql | duckdb | bigquery =>
    exact .template (.fixed _) [.slot first, .fixed _, .slot second, .fixed _] rfl
  | mysql => exact .template (.fixed _) [.slot first, .fixed _] rfl
  | sqlite => exact .fail _

theorem element_sound :
    IsSound source (source.dialect.element one two) (source.dialect.element one' two') := by
  cases source with
  | postgresql | duckdb | bigquery =>
    exact .template (.slot first) [.fixed _, .slot second, .fixed _] rfl
  | mysql | sqlite => exact .template (.fixed _) [.slot first, .fixed _, .slot second, .fixed _] rfl

theorem membership_sound :
    IsSound source (source.dialect.membership one two) (source.dialect.membership one' two') := by
  cases source with
  | postgresql | sqlite | duckdb | bigquery =>
    exact .template (.slot first) [.fixed _, .slot second, .fixed _] rfl
  | mysql => exact .template (.fixed _) [.slot second, .fixed _, .slot first, .fixed _] rfl

theorem timestampArithmetic_sound {operator : String} (isSign : operator = "+" ∨ operator = "-") :
    IsSound source (source.dialect.timestampArithmetic operator one two)
      (source.dialect.timestampArithmetic operator one' two') := by
  cases source with
  | postgresql | mysql | duckdb =>
    rcases isSign with rfl | rfl <;>
      exact .template (.slot first) [.spans (.fixed _) [.fixed _, .fixed _], .slot second] rfl
  | bigquery =>
    rcases isSign with rfl | rfl <;>
      exact .template (.fixed _) [.slot first, .fixed _, .slot second, .fixed _] rfl
  | sqlite =>
    rcases isSign with rfl | rfl
    · exact .template (.fixed _) [.slot first, .fixed _, .slot second, .fixed _] rfl
    · -- The modifier of a difference is that of the sum with its signs replaced.
      have shifted : IsSound _ ("REPLACE(" ++ two ++ ", '+', '-')")
          ("REPLACE(" ++ two' ++ ", '+', '-')") :=
        .template (.fixed _) [.slot second, .fixed _] rfl
      exact .template (.fixed _) [.slot first, .fixed _, .slot shifted, .fixed _] rfl

theorem subqueryWhere_sound (third : IsSound source three three') :
    IsSound source
      (source.dialect.collectOpen ++ one ++ source.dialect.collectClose ++ " FROM " ++ two ++
        " WHERE " ++ three ++ ")")
      (source.dialect.collectOpen ++ one' ++ source.dialect.collectClose ++ " FROM " ++ two' ++
        " WHERE " ++ three' ++ ")") := by
  cases source with
  | _ => exact .template (.fixed _) [.slot first, .fixed _, .fixed _, .slot second, .fixed _,
    .slot third, .fixed _] rfl

theorem subquery_sound :
    IsSound source (source.dialect.collectOpen ++ one ++ source.dialect.collectClose ++
      " FROM " ++ two ++ ")")
      (source.dialect.collectOpen ++ one' ++ source.dialect.collectClose ++ " FROM " ++
        two' ++ ")") := by
  cases source with
  | _ => exact .template (.fixed _) [.slot first, .fixed _, .fixed _, .slot second, .fixed _] rfl

end

/-! ## JSON values, arrays and structures -/

/-- A field of a JSON value that does not end with a minus sign; neither does the field. -/
theorem jsonField_sound (first : Sound source .firm one one') (isWord : IsWord field.toList)
    (final : Bool) :
    Sound source .firm (source.dialect.jsonField one field final)
      (source.dialect.jsonField one' field final) := by
  have quoted := quoted_name source isWord
  cases source with
  | postgresql | mysql | duckdb =>
    cases final <;> exact .template (.slot first)
      [.spans (.fixed _) [.content quoted, .fixed _]] rfl
  | sqlite =>
    exact .template (.fixed _) [.slot first, .spans (.fixed _) [.content quoted, .fixed _]] rfl
  | bigquery =>
    cases final <;> exact .template (.fixed _)
      [.slot first, .spans (.fixed _) [.content quoted, .fixed _]] rfl

theorem jsonExists_sound (first : Sound source .firm one one') (isWord : IsWord field.toList)
    (binary : Bool) :
    IsSound source (source.dialect.jsonExists binary field one)
      (source.dialect.jsonExists binary field one') := by
  have quoted := quoted_name source isWord
  cases source with
  | postgresql =>
    cases binary <;> exact .template (.slot first)
      [.spans (.fixed _) [.content quoted, .fixed _]] rfl
  | mysql | sqlite | duckdb | bigquery =>
    exact .template (.fixed _) [.slot first, .spans (.fixed _) [.content quoted, .fixed _]] rfl

theorem arrayLiteral_sound (elements : IsSound source one one') :
    Sound source .firm (source.dialect.arrayOpen ++ one ++ source.dialect.arrayClose)
      (source.dialect.arrayOpen ++ one' ++ source.dialect.arrayClose) := by
  cases source with
  | _ => exact .template (.fixed _) [.slot elements, .fixed _] rfl

theorem structLiteral_sound (values : IsSound source one one') :
    Sound source .firm (source.dialect.structOpen ++ one ++ source.dialect.structClose)
      (source.dialect.structOpen ++ one' ++ source.dialect.structClose) := by
  cases source with
  | _ => exact .template (.fixed _) [.slot values, .fixed _] rfl

theorem emptyArray_sound :
    IsSound source (source.dialect.emptyArray "text") (source.dialect.emptyArray "text") := by
  cases source with
  | postgresql => exact .template (.spans (.fixed _) [.fixed _, .fixed _]) [] rfl
  | mysql => exact .text "JSON_ARRAY()" rfl rfl
  | sqlite => exact .text "json_array()" rfl rfl
  | duckdb => exact .template (.spans (.fixed _) [.fixed _, .fixed _]) [] rfl
  | bigquery =>
    have element : IsWord (Dialect.bigqueryElementType "text").toList := by decide
    exact .template (.spans (.fixed _) [.word _ element, .fixed _]) [] rfl

/-! ## Times -/

theorem secondsModifier_sound (perSecond : Nat) :
    IsSound source (secondsModifier value perSecond) (secondsModifier value perSecond) := by
  unfold secondsModifier
  cases Binary64.ofInt? value with
  | some double =>
    have numerals := Lexical.shortest_subset (double.divideBy perSecond)
    have avoids {c : Char} (other : c ∉ Lexical.numerals) :
        c ∉ (double.divideBy perSecond).shortest.toList :=
      fun member => other (numerals member)
    have quoted : Quoted source False '\'' _ _ :=
      quoted_plain (avoids (by decide)) (avoids (by decide)) (avoids (by decide))
    exact .template (.spans (.fixed _) [.content quoted, .fixed _]) [] rfl
  | none => exact .fail _

/-- A number is safe between texts with which it is, unless it is not written. -/
theorem number_sound {before after : String} {value : Int}
    (written : IsSound source (.text (before ++ Integer.toText value ++ after))
      (.text (before ++ Integer.toText value ++ after))) :
    IsSound source (.number before value after) (.number before value after) := by
  unfold Fragment.number
  split
  · exact .fail _
  · exact written

theorem duration_sound (unit : TimeUnit) : IsSound source (source.dialect.duration value unit.name)
      (source.dialect.duration value unit.name) := by
  have plain : IsSound source (.number "INTERVAL " value (" " ++ unit.name))
      (.number "INTERVAL " value (" " ++ unit.name)) := by
    have isWord : IsWord unit.name.toList := by cases unit <;> decide
    refine number_sound ?_
    rw [← String.append_assoc]
    exact .template (.spans (.fixed _) [.numeral _ (isNumeral_toText value), .fixed _,
      .word _ isWord]) [] rfl
  have modifier (isWord : IsWord (modifierUnit unit.name).toList) :
      IsSound source (.number "'+" value (" " ++ modifierUnit unit.name ++ "s'"))
      (.number "'+" value (" " ++ modifierUnit unit.name ++ "s'")) := by
    refine number_sound ?_
    rw [← String.append_assoc, ← String.append_assoc]
    exact .template (.spans (.fixed _) [.numeral _ (isNumeral_toText value), .fixed _,
      .word _ isWord, .fixed _]) [] rfl
  cases source with
  | postgresql | mysql | duckdb | bigquery => exact plain
  | sqlite =>
    cases unit with
    | hour | minute | second => exact modifier (by decide)
    | millisecond | microsecond | nanosecond => exact secondsModifier_sound value _

/-! ## Literals -/

theorem literalInt_sound : IsSound source (.literal (.int value)) (.literal (.int value)) := by
  refine .literal (.numeral _ (isNumeral_toText value)) [] rfl fun text written => ?_
  obtain rfl := Literal.inlineText_int written
  exact ⟨rfl, written⟩

/-- Doubles, by the texts that they are read from. -/
theorem literalFloat_sound (isNumeral : IsNumeral text.toList) (value : Binary64) :
    IsSound source (.literal (.float text value)) (.literal (.float text value)) :=
  .literal (.numeral text isNumeral) [] rfl fun _ written => ⟨(Except.ok.inj written).symm, rfl⟩

/-- Strings, whatever stands in their place for the blanked tree. -/
theorem literalString_sound
    (even : source.Regular → source.dialect = .mysql → EvenBackslashes text.toList) :
    IsSound source (.literal (.string text)) (.literal (.string other)) :=
  .literal (.fixed ['\'']) [.content (quoted_escapeString other even fun _ => trivial),
    .fixed ['\'']] rfl
    fun _ written => ⟨(Except.ok.inj written).symm, rfl⟩

/-- Bytes, by their codes. -/
theorem literalBytes_sound (bytes : List UInt8) :
    IsSound source (.literal (.bytes bytes)) (.literal (.bytes bytes)) := by
  have isWord : IsWord (String.ofList (upperHex bytes)).toList := by
    rw [String.toList_ofList]
    exact isWord_name (Lexical.isNameChar_upperHex bytes)
  have spelled {text : String} (written : (Literal.bytes bytes).inlineText source.dialect =
      .ok text) :
      text = source.dialect.bytesLiteral bytes ∧
        (Literal.bytes bytes).inlineText source.dialect =
        .ok (source.dialect.bytesLiteral bytes) := by
    obtain rfl := Literal.inlineText_bytes written
    exact ⟨rfl, written⟩
  cases source with
  | postgresql | duckdb =>
    exact .literal (.fixed ['\'', '\\', 'x']) [.word _ isWord, .fixed ['\'']] rfl fun _ written =>
      spelled written
  | mysql | sqlite =>
    exact .literal (.fixed ['X', '\'']) [.word _ isWord, .fixed ['\'']] rfl fun _ written =>
      spelled written
  | bigquery catalog tree grammatical =>
    let octal := String.ofList (bytes.flatMap fun byte => '\\' :: octalTriple byte.toNat)
    have quoted : Quoted ⟨⟨.bigquery, catalog⟩, tree, grammatical⟩ True '"' octal octal := by
      refine ⟨fun standard => absurd standard.1 (by simp [Dialect.standard]), fun _ => ?_,
        fun _ => trivial⟩
      rw [String.toList_ofList]
      exact stays_octal bytes
    exact .literal (.fixed ['b', '"']) [.content quoted, .fixed ['"']] rfl fun _ written =>
      spelled written

end CelWhere.Surface
