import CelWhere.Proofs.Blame.Token
import CelWhere.Proofs.Lexical.Text
import CelWhere.Proofs.Operand

/-! # Units of intervals

The unit of an interval is the text of a single token, which is written as it stands, or in lower
case where a modifier is written. So it is a bare word exactly if the token is spelled like one:
names are, and numbers without sign and point; strings and bytes keep their quotes.

* `Token.Spelled`, `parse?_spelled` — how the tokens of a read expression are spelled;
* `Dialect.unitText` — what is written for a unit, and which of its characters survive;
* `Token.isBare` — the tokens that are written as bare words. -/

namespace CelWhere

variable {text : List Char} {mark : Char} {tree unit : Tree}

/-! ## Tokens that are read -/

/-- The characters of numbers that are not those of names. -/
def numberMarks : List Char :=
  ['-', '+', '.']

namespace Token

/-- What is known of the spelling of tokens: the words have the characters of names, numbers perhaps
signs and a point among them, and strings and bytes have quotes. -/
def Spelled (token : Token) : Prop :=
  match token.kind with
  | .ident | .bool | .null => ∀ c ∈ token.text.toList, Lexer.isNameChar c
  | .int | .uint | .float => ∀ c ∈ token.text.toList, Lexer.isNameChar c ∨ c ∈ numberMarks
  | .string | .multiline | .bytes => ∃ c ∈ token.text.toList, isQuote c
  | .other _ => False

/-- Whether a token is spelled like a bare word: it is a word, or a number without sign and
point. -/
def isBare (token : Token) : Bool :=
  match token.kind with
  | .ident | .bool | .null => true
  | .int | .uint | .float => token.text.toList.all (· ∉ numberMarks)
  | _ => false

end Token

namespace Lexer

/-- Digits of base sixteen are characters of names. -/
theorem isNameChar_of_isHexDigit {c : Char} (digit : isHexDigit c) : isNameChar c := by
  simp only [isHexDigit, Bool.or_eq_true, Bool.and_eq_true, decide_eq_true_eq] at digit
  simp only [isNameChar, isNameStart, Bool.or_eq_true, Bool.and_eq_true, decide_eq_true_eq]
  rcases digit with (plain | ⟨low, high⟩) | ⟨low, high⟩
  · exact .inr plain
  · exact .inl (.inl (.inr ⟨low, Char.le_trans high (show 'f' ≤ 'z' by decide)⟩))
  · exact .inl (.inr ⟨low, Char.le_trans high (show 'F' ≤ 'Z' by decide)⟩)

/-- The digits of an integer have the characters of names, and perhaps a minus. -/
theorem integer?_spelled :
    Yields (fun digits => ∀ c ∈ digits, isNameChar c ∨ c ∈ numberMarks) (integer? text) := by
  have minus : ∀ c ∈ (splitMinus text).1, c ∈ numberMarks := by
    unfold splitMinus
    split <;> simp [numberMarks]
  have plain (body : List Char) : Yields (fun digits => ∀ c ∈ digits, isNameChar c ∨
      c ∈ numberMarks)
      (if (body.takeWhile Text.isPlainDigit).isEmpty then none
        else some ((splitMinus text).1 ++ body.takeWhile Text.isPlainDigit,
          body.dropWhile Text.isPlainDigit)) := by
    split
    · exact .none
    · refine .some fun c member => ?_
      rcases List.mem_append.mp member with inMinus | inDigits
      · exact .inr (minus c inMinus)
      · have digit : Text.isPlainDigit c = true := List.all_eq_true.mp List.all_takeWhile c inDigits
        exact .inl (by simp [isNameChar, digit])
  unfold integer?
  dsimp only
  split
  next behind _ =>
    split
    · exact plain _
    · -- Digits of base sixteen stand behind their mark.
      refine .some ?_
      simp only [List.mem_append, List.mem_cons]
      rintro c (inMinus | rfl | rfl | inDigits)
      · exact .inr (minus c inMinus)
      · exact .inl rfl
      · exact .inl rfl
      · exact .inl (isNameChar_of_isHexDigit (List.all_eq_true.mp List.all_takeWhile c inDigits))
  · exact plain _

/-- A number with a point or an exponent has the characters of names, and perhaps signs and a
point. -/
theorem float?_spelled : Yields Token.Spelled (float? text) := by
  intro token rest read
  obtain ⟨isFloat, -, chars⟩ := float?_wellFormed read
  rw [isFloat] at chars
  rw [Token.Spelled, isFloat]
  intro c member
  have spelled := chars c member
  simp only [isFloatChar, Bool.or_eq_true, decide_eq_true_eq] at spelled
  rcases spelled with ((((digit | rfl) | rfl) | rfl) | rfl) | rfl
  · exact .inl (by simp [isNameChar, digit])
  · exact .inr (by decide)
  · exact .inr (by decide)
  · exact .inr (by decide)
  · exact .inl rfl
  · exact .inl rfl

/-- A literal between quotes has them in its text. -/
theorem quotedBy?_spelled {kind : TokenKind} {others : List Char} {lines : Bool}
    (quotes : isQuote mark = true) :
    Yields (fun token => token.kind = kind ∧ ∃ c ∈ token.text.toList, isQuote c)
      (quotedBy? kind (mark :: others) lines text) := by
  unfold quotedBy?
  dsimp only
  split
  · exact .map fun _ _ => ⟨rfl, mark, by simp, quotes⟩
  · exact .none

/-- A string literal has quotes. -/
theorem string?_spelled :
    Yields (fun token => token.Spelled ∧ ∃ c ∈ token.text.toList, isQuote c) (string? text) := by
  intro token rest found
  unfold string? at found
  simp only [Option.or_eq_some_iff] at found
  rcases found with found | ⟨-, found | ⟨-, found | ⟨-, found⟩⟩⟩ <;>
    obtain ⟨kind, quoted⟩ := quotedBy?_spelled rfl found <;>
    exact ⟨by rwa [Token.Spelled, kind], quoted⟩

/-- The tokens that are read are spelled like those of their kind. -/
theorem tokens_spelled : Parser.TokensHave Token.Spelled where
  operand _ := by
    refine operand?_yields (fun _ _ _ read => ?_) (fun read => (string?_spelled read).1)
      (fun read => float?_spelled read) (fun read => ?_) fun read => ?_
    · obtain ⟨c, member, quotes⟩ := (string?_spelled read).2
      exact ⟨c, by simp [member], quotes⟩
    · have spelled := integer?_spelled read
      refine ⟨by simpa [Token.Spelled] using spelled, fun mark isMark => ?_⟩
      have isName : isNameChar mark := by
        rcases List.mem_pair.mp isMark with rfl | rfl <;> rfl
      simpa [Token.Spelled, or_imp, forall_and] using ⟨spelled, .inl isName⟩
    · have chars := (word?_spelled read).2
      show (wordToken _).Spelled
      unfold wordToken
      split
      · exact chars
      · split
        · exact chars
        · exact chars
  name _ _ _ found := by
    obtain ⟨isName, -, chars⟩ := name?_wellFormed found
    rw [isName] at chars
    rwa [Token.Spelled, isName]

end Lexer

/-- **The tokens of a read expression are spelled like those of their kind.** -/
theorem parse?_spelled {text : String} (found : parse? text = some tree) :
    tree.EachToken Token.Spelled :=
  parse?_eachToken Lexer.tokens_spelled found

/-! ## What is written for a unit -/

/-- The characters that tell a token from a bare word. -/
def unitMarks : List Char :=
  '"' :: '\'' :: numberMarks

namespace Token.Spelled

variable {token : Token} (spelled : token.Spelled)

include spelled

/-- A bare word has the characters of names. -/
theorem isNameChar (bare : token.isBare) : ∀ c ∈ token.text.toList, Lexer.isNameChar c := by
  unfold Spelled at spelled
  unfold isBare at bare
  intro c member
  cases kind : token.kind with
  | ident | bool | null =>
    rw [kind] at spelled
    exact spelled c member
  | int | uint | float =>
    rw [kind] at spelled bare
    have noMark : c ∉ numberMarks := by simpa using List.all_eq_true.mp bare c member
    exact (spelled c member).resolve_right noMark
  | string | multiline | bytes | other => simp [kind] at bare

/-- A token that is no bare word has a mark. -/
theorem exists_mark (notBare : ¬token.isBare) : ∃ mark ∈ unitMarks, mark ∈ token.text.toList := by
  unfold Spelled at spelled
  unfold isBare at notBare
  cases kind : token.kind with
  | ident | bool | null => simp [kind] at notBare
  | int | uint | float =>
    simp only [kind, List.all_eq_true, decide_eq_true_eq, not_forall, not_not] at notBare
    obtain ⟨mark, member, isMark⟩ := notBare
    exact ⟨mark, by simp [unitMarks, isMark], member⟩
  | string | multiline | bytes =>
    rw [kind] at spelled
    obtain ⟨mark, member, quotes⟩ := spelled
    simp only [isQuote, Bool.or_eq_true, decide_eq_true_eq] at quotes
    refine ⟨mark, ?_, member⟩
    rcases quotes with rfl | rfl <;> decide
  | other name => simp [kind] at spelled

end Token.Spelled

/-- No mark is a character of names, and marks have no case. -/
theorem unitMarks_caseless (isMark : mark ∈ unitMarks) :
    Lexer.isNameChar mark = false ∧ mark ≠ 'Σ' ∧ Text.lowerChar mark = [mark] := by
  simp only [unitMarks, numberMarks, List.mem_cons, List.not_mem_nil, or_false] at isMark
  rcases isMark with rfl | rfl | rfl | rfl | rfl <;> exact ⟨rfl, by decide, rfl⟩

/-- The marks are kept in lower case. -/
theorem mem_lowerFrom_of_mem_unitMarks (isMark : mark ∈ unitMarks) (given : mark ∈ text)
    (afterLetter : Bool) :
    mark ∈ Text.lowerFrom afterLetter text := by
  induction text generalizing afterLetter with
  | nil => simp at given
  | cons head rest ih =>
    rw [Text.lowerFrom, List.mem_append]
    rcases List.mem_cons.mp given with rfl | later
    · obtain ⟨-, noSigma, caseless⟩ := unitMarks_caseless isMark
      exact .inl (by simp [noSigma, caseless])
    · exact .inr (ih later _)

/-- The marks are kept in the unit of a modifier. -/
theorem mem_modifierUnit_of_mem_unitMarks (isMark : mark ∈ unitMarks) {unit : String}
    (given : mark ∈ unit.toList) :
    mark ∈ (modifierUnit unit).toList := by
  have lowered : mark ∈ (Text.lower unit).toList := by
    rw [Text.lower, String.toList_ofList]
    exact mem_lowerFrom_of_mem_unitMarks isMark given false
  unfold modifierUnit
  rw [String.toList_ofList]
  split
  next plural =>
    -- The letter that is dropped is no mark.
    obtain ⟨front, same⟩ := List.getLast?_eq_some_iff.mp plural
    have noLetter : mark ≠ 's' := by
      rintro rfl
      exact absurd isMark (by decide)
    rw [same] at lowered ⊢
    simpa [noLetter] using lowered
  · exact lowered

/-- The texts around the value and the unit of an interval. -/
structure IntervalFrame where
  /-- The text before the value. -/
  before : String
  /-- The text between the value and the unit. -/
  between : String
  /-- The text behind the unit. -/
  after : String
  deriving DecidableEq, Repr

namespace Dialect

/-- What a dialect writes for a unit: the unit itself, or in SQLite the plural of a modifier. -/
def unitText (dialect : Dialect) (unit : String) : String :=
  match dialect with
  | .sqlite => modifierUnit unit ++ "s"
  | _ => unit

/-- What a dialect writes around the value and the unit of an interval. -/
def intervalFrame : Dialect → IntervalFrame
  | .sqlite => ⟨"'+' || ", " || ' ", "'"⟩
  | _ => ⟨"INTERVAL ", " ", ""⟩

/-- An interval is its value and its unit in the frame of the dialect. -/
theorem interval_eq (dialect : Dialect) (value : Fragment) (unit : String) :
    dialect.interval value unit = .text dialect.intervalFrame.before ++ value ++
      (dialect.intervalFrame.between ++ dialect.unitText unit ++ dialect.intervalFrame.after :
        String) := by
  cases dialect with
  | sqlite =>
    have plural : " || ' " ++ modifierUnit unit ++ "s'" =
        " || ' " ++ (modifierUnit unit ++ "s") ++ "'" := by
      rw [String.append_assoc, String.append_assoc, String.append_assoc]
      rfl
    rw [interval, plural]
    rfl
  | postgresql | mysql | duckdb | bigquery =>
    show _ = Fragment.text "INTERVAL " ++ value ++ (" " ++ unit ++ "" : String)
    rw [String.append_empty]
    rfl

/-- **A token is written as a bare word exactly if it is spelled like one.** -/
theorem unitText_isName_iff (dialect : Dialect) {token : Token} (spelled : token.Spelled) :
    (∀ c ∈ (dialect.unitText token.text).toList, Lexer.isNameChar c) ↔ token.isBare := by
  have kept : ∀ {mark}, mark ∈ unitMarks → mark ∈ token.text.toList →
      mark ∈ (dialect.unitText token.text).toList := by
    intro mark isMark given
    cases dialect with
    | sqlite => simp [unitText, mem_modifierUnit_of_mem_unitMarks isMark given]
    | postgresql | mysql | duckdb | bigquery => exact given
  have words : (∀ c ∈ token.text.toList, Lexer.isNameChar c) →
      ∀ c ∈ (dialect.unitText token.text).toList, Lexer.isNameChar c := by
    intro chars
    cases dialect with
    | sqlite =>
      intro c member
      rcases List.mem_append.mp (String.toList_append ▸ member) with inUnit | inPlural
      · exact Lexical.isNameChar_modifierUnit chars c inUnit
      · obtain rfl : c = 's' := by simpa using inPlural
        rfl
    | postgresql | mysql | duckdb | bigquery => exact chars
  constructor
  · intro written
    by_contra notBare
    obtain ⟨mark, isMark, given⟩ := spelled.exists_mark notBare
    have isName := written mark (kept isMark given)
    simp [(unitMarks_caseless isMark).1] at isName
  · intro bare
    exact words (spelled.isNameChar bare)

end Dialect

/-! ## Calls -/

namespace Tree

/-- The call that makes an interval of a value and a unit. -/
def intervalCall (value unit : Tree) : Tree :=
  .node .identArg [.token ⟨.ident, "interval"⟩, .node .exprList [value, unit]]

/-- The value and the unit of a call that makes an interval. -/
def intervalArguments? : Tree → Option (Tree × Tree)
  | .node .identArg [.token name, .node .exprList [value, unit]] =>
    if name = ⟨.ident, "interval"⟩ then some (value, unit) else none
  | _ => none

/-- A tree with a value and a unit is the call with them. -/
theorem eq_intervalCall {call value : Tree}
    (isCall : call.intervalArguments? = some (value, unit)) :
    call = intervalCall value unit := by
  unfold intervalArguments? at isCall
  split at isCall
  next name first second =>
    obtain ⟨rfl, same⟩ := Option.ite_none_right_eq_some.mp isCall
    obtain ⟨rfl, rfl⟩ := Prod.mk.inj (Option.some.inj same)
    rfl
  · simp at isCall

/-- A literal is the only token of its tree. -/
theorem Grammatical.tokens_of_literal? {token : Token} (grammatical : tree.Grammatical)
    (found : tree.literal? = some token) : tree.tokens = [token] := by
  refine literal?_induction (motive := fun tree => tree.tokens = [token]) rfl
    (fun rule child _ below => ?_)
    grammatical found
  simpa [tokens, tokensOf] using below

/-- A name is the only token of its tree. -/
theorem Grammatical.tokens_of_unwrap? {children : List Tree} (grammatical : tree.Grammatical)
    (found : tree.unwrap? .ident = some children) :
    ∃ token, children = [.token token] ∧ tree.tokens = [token] := by
  induction tree with
  | token leaf => simp [unwrap?] at found
  | node rule below ih =>
    unfold unwrap? at found
    split at found
    next isIdent =>
      obtain rfl := Option.some.inj found
      subst isIdent
      obtain ⟨text, rfl⟩ := grammatical.ident
      exact ⟨⟨.ident, text⟩, rfl, rfl⟩
    · split at found
      next only =>
        obtain ⟨token, same, tokens⟩ := ih only (.head _) (grammatical.child (.head _)) found
        exact ⟨token, same, by simpa [Tree.tokens, tokensOf] using tokens⟩
      · simp at found

/-- The unit of an interval is the text of the only token of its tree. -/
theorem Grammatical.intervalUnit_eq_ok {text : String} (grammatical : unit.Grammatical)
    (found : Convert.intervalUnit unit = .ok text) :
    ∃ token, unit.tokens = [token] ∧ token.text = text := by
  unfold Convert.intervalUnit at found
  split at found
  next token given =>
    have isLiteral : unit.literal? = some token := (Option.filter_eq_some_iff.mp given).1
    exact ⟨token, grammatical.tokens_of_literal? isLiteral, by simpa using found⟩
  · split at found
    next name rest named =>
      obtain ⟨token, same, tokens⟩ := grammatical.tokens_of_unwrap? named
      obtain ⟨rfl, rfl⟩ := List.cons.inj same
      exact ⟨token, tokens, by simpa using found⟩
    · simp at found
    · simp at found

end Tree

/-- A call that makes an interval goes on with the text of its unit, if it has one. -/
theorem Context.fragment_intervalCall (context : Context) (value unit : Tree) :
    context.fragment (Tree.intervalCall value unit) =
      .attempt (Convert.intervalUnit unit)
      (context.dialect.interval (.nested (context.fragment value))) := by
  rw [Context.fragment_eq]
  rfl

namespace Settings

/-- A call that has a unit writes its value and the unit into the frame of the dialect. -/
theorem visit_intervalCall_eq (settings : Settings) {value : Tree} {spelling : String}
    (session : Session) (found : Convert.intervalUnit unit = .ok spelling) :
    let frame := settings.dialect.intervalFrame
    settings.visit session (Tree.intervalCall value unit) =
      (settings.visitBelow (session.write frame.before) value).andThen fun reached =>
        { session := reached.write (frame.between ++ settings.dialect.unitText spelling ++
          frame.after) } := by
  rw [visit, Context.fragment_intervalCall, found, Fragment.attempt_ok, Dialect.interval_eq]
  rfl

/-- **Units of intervals are bare words exactly if they are spelled so.** A call in a read
expression that makes an interval has a single token as its unit. It writes the value and then the
text of the token, in SQLite in lower case and in the plural, and that is a bare word exactly if the
token is a word, or a number without sign and point. -/
theorem visit_intervalCall (settings : Settings) {text : String} {tree call value unit : Tree}
    (session : Session) (read : parse? text = some tree) (part : call ∈ tree.parts)
    (isCall : call.intervalArguments? = some (value, unit))
    (converts : (settings.visit session call).fault = none) :
    let frame := settings.dialect.intervalFrame
    ∃ token, unit.tokens = [token] ∧
      settings.visit session call =
        (settings.visitBelow (session.write frame.before) value).andThen (fun reached =>
          { session := reached.write (frame.between ++ settings.dialect.unitText token.text ++
            frame.after) }) ∧
      ((∀ c ∈ (settings.dialect.unitText token.text).toList, Lexer.isNameChar c) ↔
        token.isBare) := by
  intro frame
  obtain rfl := Tree.eq_intervalCall isCall
  have isUnit : unit ∈ (Tree.intervalCall value unit).parts := by
    have self := unit.self_mem_parts
    simp [Tree.intervalCall, Tree.parts, Tree.partsOf, self]
  -- The unit inherits what is known of the whole expression.
  have inherits {property : Tree → Prop} (hereditary : Tree.Hereditary property)
      (holds : property tree) :
      property unit :=
    hereditary.of_mem_parts (hereditary.of_mem_parts holds part) isUnit
  have grammatical : unit.Grammatical := inherits Tree.Hereditary.parts (parse?_isExpression read).1
  have among : unit.tokens ⊆ tree.tokens :=
    inherits (Tree.Hereditary.tokens_subset tree.tokens) (List.Subset.refl _)
  cases found : Convert.intervalUnit unit with
  | error fault =>
    rw [visit, Context.fragment_intervalCall, found] at converts
    simp [Fragment.run] at converts
  | ok spelling =>
    obtain ⟨token, tokens, rfl⟩ := grammatical.intervalUnit_eq_ok found
    have spelled : token.Spelled := parse?_spelled read token (among (by simp [tokens]))
    exact ⟨token, tokens, settings.visit_intervalCall_eq session found,
      settings.dialect.unitText_isName_iff spelled⟩

/-- A string as the unit of an interval in SQLite, which is no bare word. -/
theorem visit_intervalCall_string :
    let settings : Settings := { dialect := .sqlite }
    let token : Token := ⟨.string, "'; --'"⟩
    ∃ tree call value unit, parse? "interval(1, '; --')" = some tree ∧ call ∈ tree.parts ∧
      call.intervalArguments? = some (value, unit) ∧ (settings.visit .fresh call).fault = none ∧
      unit.tokens = [token] ∧ token.isBare = false ∧
      ¬∀ c ∈ (settings.dialect.unitText token.text).toList, Lexer.isNameChar c := by
  intro settings token
  obtain ⟨tree, read⟩ : ∃ tree, parse? "interval(1, '; --')" = some tree :=
    Option.isSome_iff_exists.mp (by decide +kernel)
  have stands : ∀ tree ∈ parse? "interval(1, '; --')", ∃ call ∈ tree.parts,
      ∃ found ∈ call.intervalArguments?,
      (settings.visit .fresh call).fault = none ∧ found.2.tokens = [token] := by decide +kernel
  obtain ⟨call, part, ⟨value, unit⟩, isCall, converts, tokens⟩ := stands tree read
  obtain ⟨found, only, -, bare⟩ :=
    @visit_intervalCall settings _ tree call value unit .fresh read part isCall converts
  obtain rfl : found = token := by simpa using only.symm.trans tokens
  refine ⟨tree, call, value, unit, read, part, isCall, converts, tokens, rfl, ?_⟩
  rw [bare]
  decide

/-- **A string can be the unit of an interval**, and is written with its quotes: as a word in double
quotes, and in SQLite behind a quote that ends the text around it. -/
theorem unit_written_with_quotes :
    ({} : Settings).convert "interval(1, \"DAY; --\")" = .ok "INTERVAL 1 \"DAY; --\"" ∧
    ({ dialect := .sqlite } : Settings).convert "interval(1, '; --')" =
    .ok "'+' || 1 || ' '; --'s'" ∧
    ¬(∀ c ∈ "\"DAY; --\"".toList, Lexer.isNameChar c) ∧
    ¬∀ c ∈ "'; --'s".toList, Lexer.isNameChar c := by
  refine ⟨?_, ?_, ?_, ?_⟩
  · decide +kernel
  · decide +kernel
  · intro isName
    exact absurd (isName '"' (by decide)) (by decide)
  · intro isName
    exact absurd (isName '\'' (by decide)) (by decide)

end Settings

end CelWhere
