import CelWhere.Proofs.Grammar

/-! # Readers follow the grammar

What the readers of tokens and expressions return follows the grammar: tokens are spelled like one
of their kind, and each reader returns a grammatical tree with the label that its caller puts into a
production. What holds of all tokens that are read holds of the tokens of these trees.

* `Lexer.operand?_wellFormed`, `Lexer.name?_wellFormed` — the tokens;
* `Tree.EachToken` — a property of all tokens of a tree;
* `Parser.Readers` — what all readers of expressions return with a bound on their calls, carried
  from each bound to the next;
* `parse?_isExpression`, `parse?_eachToken` — the tree of every text is that of an expression, with
  such tokens. -/

namespace CelWhere

variable {leaf : Token} {rule : Rule} {children : List Tree} {property : Token → Prop}

/-! ## Tokens -/

namespace Lexer

/-- What a reader returns, if anything, has a property. -/
def Yields {α : Type} (property : α → Prop) (result : Option (α × List Char)) : Prop :=
  ∀ ⦃found rest⦄, result = some (found, rest) → property found

namespace Yields

variable {α β : Type} {property : α → Prop}

theorem none : Yields property .none := nofun

theorem some {found : α} {rest : List Char} (holds : property found) :
    Yields property (.some (found, rest)) := by
  rintro _ _ ⟨⟩
  exact holds

theorem map {result : Option β} {change : β → α × List Char}
    (holds : ∀ read, result = .some read → property (change read).1) :
    Yields property (result.map change) := by
  intro found rest same
  obtain ⟨read, isRead, changed⟩ := Option.map_eq_some_iff.mp same
  simpa [changed] using holds read isRead

theorem or {first second : Option (α × List Char)} (one : Yields property first)
    (two : Yields property second) :
    Yields property (first.or second) := by
  intro found rest same
  rcases Option.or_eq_some_iff.mp same with early | ⟨-, late⟩
  · exact one early
  · exact two late

end Yields

variable {text : List Char}

/-- A word has a first character and only the characters of names. -/
theorem word?_spelled :
    Yields (fun word => word ≠ "" ∧ ∀ c ∈ word.toList, isNameChar c) (word? text) := by
  unfold word?
  split
  next head tail =>
    split
    next start =>
      have startsName : isNameChar head = true := by simp [isNameChar, start]
      refine .some ⟨by simp [startsName], fun c member => ?_⟩
      rw [String.toList_ofList] at member
      exact List.all_eq_true.mp List.all_takeWhile c member
    · exact .none
  · exact .none

/-- The name behind a dot is spelled like a name. -/
theorem name?_wellFormed :
    Yields (fun token => token.kind = .ident ∧ token.WellFormed) (name? text) := by
  unfold name?
  split
  next word behind read =>
    split
    · exact .none
    · exact .some ⟨rfl, word?_spelled read⟩
  · exact .none

/-- The token of a word is spelled like one of its kind. -/
theorem wordToken_wellFormed {word : String} (given : word ≠ "")
    (spelled : ∀ c ∈ word.toList, isNameChar c) :
    (wordToken word).WellFormed ∧
      ((wordToken word).kind = .ident ∨ (wordToken word).kind ∈ TokenKind.literals) := by
  unfold wordToken
  split
  · exact ⟨⟨given, trivial⟩, .inr (by simp [TokenKind.literals])⟩
  · split
    · exact ⟨⟨given, trivial⟩, .inr (by simp [TokenKind.literals])⟩
    · exact ⟨⟨given, spelled⟩, .inl rfl⟩

/-- Digits are characters of numbers. -/
theorem takeWhile_isPlainDigit (text : List Char) :
    ∀ c ∈ text.takeWhile Text.isPlainDigit, isFloatChar c := by
  intro c member
  have digit : Text.isPlainDigit c = true := List.all_eq_true.mp List.all_takeWhile c member
  simp [isFloatChar, digit]

/-- The minus of a number is a character of numbers. -/
theorem splitMinus_spelled (text : List Char) : ∀ c ∈ (splitMinus text).1, isFloatChar c := by
  unfold splitMinus
  split <;> simp [isFloatChar]

/-- An exponent has only the characters of numbers. -/
theorem exponent?_spelled : Yields (fun power => ∀ c ∈ power, isFloatChar c) (exponent? text) := by
  unfold exponent?
  split
  next mark body =>
    split
    next isMark =>
      have markChar : isFloatChar mark = true := by
        rcases Bool.or_eq_true .. ▸ isMark with small | capital <;> simp_all [isFloatChar]
      have signed (sign : List Char) (spelled : ∀ c ∈ sign, isFloatChar c) (body : List Char) :
          Yields (fun power => ∀ c ∈ power, isFloatChar c)
            (if (body.takeWhile Text.isPlainDigit).isEmpty then none
              else some (mark :: sign ++ body.takeWhile Text.isPlainDigit,
                body.dropWhile Text.isPlainDigit)) := by
        split
        · exact .none
        · refine .some ?_
          simp only [List.mem_append, List.mem_cons]
          rintro c ((rfl | inSign) | inDigits)
          · exact markChar
          · exact spelled c inSign
          · exact takeWhile_isPlainDigit body c inDigits
      dsimp only
      split
      · exact signed ['+'] (by simp [isFloatChar]) _
      · exact signed ['-'] (by simp [isFloatChar]) _
      · exact signed [] nofun _
    · exact .none
  · exact .none

/-- A text of characters of numbers makes a well-formed number. -/
theorem wellFormed_float {chars : List Char} (given : chars ≠ [])
    (spelled : ∀ c ∈ chars, isFloatChar c) :
    (Token.mk .float (String.ofList chars)).WellFormed :=
  ⟨by simpa using given, by simpa using spelled⟩

/-- A number with a point or an exponent is spelled like one. -/
theorem float?_wellFormed :
    Yields (fun token => token.kind = .float ∧ token.WellFormed) (float? text) := by
  have point : isFloatChar '.' = true := by decide
  -- The parts of a number: a minus, digits, a point with more digits, an exponent.
  have minus := splitMinus_spelled text
  have whole := takeWhile_isPlainDigit (splitMinus text).2
  unfold float?
  dsimp only
  split
  next behind _ =>
    have fraction := takeWhile_isPlainDigit behind
    split
    · exact .none
    · split
      next power after read =>
        have exponent := exponent?_spelled read
        refine .some ⟨rfl, wellFormed_float (by simp) ?_⟩
        simp only [List.mem_append, List.mem_cons]
        rintro c (inMinus | (inWhole | rfl | inFraction) | inPower)
        · exact minus c inMinus
        · exact whole c inWhole
        · exact point
        · exact fraction c inFraction
        · exact exponent c inPower
      · refine .some ⟨rfl, wellFormed_float (by simp) ?_⟩
        simp only [List.mem_append, List.mem_cons]
        rintro c (inMinus | inWhole | rfl | inFraction)
        · exact minus c inMinus
        · exact whole c inWhole
        · exact point
        · exact fraction c inFraction
  · split
    · exact .none
    next isGiven =>
      refine .map fun ⟨power, after⟩ read => ⟨rfl, wellFormed_float (by simp_all) ?_⟩
      have exponent := exponent?_spelled read
      simp only [List.mem_append]
      rintro c (inMinus | inWhole | inPower)
      · exact minus c inMinus
      · exact whole c inWhole
      · exact exponent c inPower

/-- The digits of an integer are not empty. -/
theorem integer?_given : Yields (· ≠ []) (integer? text) := by
  -- Digits without a mark are not empty; with one, the mark itself is there.
  have plainGiven (minus body : List Char) :
      Yields (· ≠ []) (if (body.takeWhile Text.isPlainDigit).isEmpty then none
      else some (minus ++ body.takeWhile Text.isPlainDigit, body.dropWhile Text.isPlainDigit)) := by
    split
    · exact .none
    · exact .some (by simp_all)
  unfold integer?
  dsimp only
  split
  · split
    · exact plainGiven _ _
    · exact .some (by simp)
  · exact plainGiven _ _

/-- A string literal between given quotes is of the given kind and not empty. -/
theorem quotedBy?_given {kind : TokenKind} {quotes : List Char} {lines : Bool}
    (some_quotes : quotes ≠ []) :
    Yields (fun token => token.kind = kind ∧ token.text ≠ "")
      (quotedBy? kind quotes lines text) := by
  unfold quotedBy?
  dsimp only
  split
  · exact .map fun _ _ => ⟨rfl, by simp [some_quotes]⟩
  · exact .none

/-- A string literal is on one line or on several, and not empty. -/
theorem string?_given : Yields (fun token => token.isString ∧ token.text ≠ "") (string? text) := by
  have quoted {kind : TokenKind} (isString : kind = .string ∨ kind = .multiline)
      {quotes : List Char} {lines : Bool}
      (some_quotes : quotes ≠ []) :
      Yields (fun token => token.isString ∧ token.text ≠ "")
        (quotedBy? kind quotes lines text) := by
    intro token rest found
    obtain ⟨rfl, given⟩ := quotedBy?_given some_quotes found
    exact ⟨by simpa [Token.isString] using isString, given⟩
  -- Three double or single quotes are tried before one.
  exact .or (quoted (.inr rfl) nofun) (.or (quoted (.inr rfl) nofun)
    (.or (quoted (.inl rfl) nofun) (quoted (.inl rfl) nofun)))

/-- A string literal is spelled like one. -/
theorem string?_wellFormed :
    Yields (fun token => token.WellFormed ∧ token.kind ∈ TokenKind.literals) (string? text) := by
  rintro ⟨kind, spelling⟩ rest found
  obtain ⟨isString, given⟩ := string?_given found
  rcases Bool.or_eq_true .. ▸ isString with single | several
  · obtain rfl : kind = .string := by simpa using single
    exact ⟨⟨given, trivial⟩, by simp [TokenKind.literals]⟩
  · obtain rfl : kind = .multiline := by simpa using several
    exact ⟨⟨given, trivial⟩, by simp [TokenKind.literals]⟩

/-- What holds of the tokens of each sort holds of those with which operands start. -/
theorem operand?_yields
    (bytes : ∀ {text} (mark : Char), Yields
      (fun token => property ⟨.bytes, mark.toString ++ token.text⟩) (string? text))
    (string : ∀ {text}, Yields property (string? text))
    (float : ∀ {text}, Yields property (float? text))
    (integer : ∀ {text}, Yields (fun digits => property ⟨.int, String.ofList digits⟩ ∧
      ∀ mark ∈ ['u', 'U'], property ⟨.uint, String.ofList (digits ++ [mark])⟩) (integer? text))
    (word : ∀ {text}, Yields (fun word => property (wordToken word)) (word? text)) :
    Yields property (operand? text) := by
  refine .or ?_ (.or string (.or ?_ (.map fun _ read => word read)))
  · unfold bytes?
    split
    · split
      · exact .map fun _ read => bytes _ read
      · exact .none
    · exact .none
  · unfold number?
    split
    next read => exact read ▸ float
    · split
      next read => exact .some ((integer read).2 'u' (by simp))
      next read => exact .some ((integer read).2 'U' (by simp))
      next read => exact .some (integer read).1
      · exact .none

/-- The token with which an operand starts is a literal or a name, spelled like one of its kind. -/
theorem operand?_wellFormed : Yields
    (fun token => token.WellFormed ∧ (token.kind = .ident ∨ token.kind ∈ TokenKind.literals))
    (operand? text) := by
  refine operand?_yields (fun _ _ _ _ => ?_) (fun read => (string?_wellFormed read).imp_right .inr)
    (fun read => ?_)
    (fun read => ?_) fun read => ?_
  · exact ⟨⟨by simp [Char.toString], trivial⟩, .inr (by simp [TokenKind.literals])⟩
  · obtain ⟨kind, wellFormed⟩ := float?_wellFormed read
    exact ⟨wellFormed, .inr (by simp [kind, TokenKind.literals])⟩
  · exact ⟨⟨⟨by simpa using integer?_given read, trivial⟩, .inr (by simp [TokenKind.literals])⟩,
      fun _ _ => ⟨⟨by simp, trivial⟩, .inr (by simp [TokenKind.literals])⟩⟩
  · obtain ⟨given, spelled⟩ := word?_spelled read
    exact wordToken_wellFormed given spelled

end Lexer

/-! ## Tokens of trees -/

/-- All tokens of a tree have a property. -/
def Tree.EachToken (property : Token → Prop) (tree : Tree) : Prop :=
  ∀ token ∈ tree.tokens, property token

@[simp] theorem Tree.eachToken_token :
    (Tree.token leaf).EachToken property ↔ property leaf := by
  simp [EachToken, tokens]

/-- A node has the tokens of its children. -/
@[simp] theorem Tree.eachToken_node :
    (Tree.node rule children).EachToken property ↔
      ∀ child ∈ children, child.EachToken property := by
  show (∀ token ∈ tokensOf children, property token) ↔ _
  induction children with
  | nil => simp [tokensOf]
  | cons head rest ih =>
    simp only [tokensOf, List.mem_append, or_imp, forall_and, List.mem_cons, forall_eq, ih]
    rfl

/-! ## Expressions -/

/-- A tree follows the grammar and its tokens have a property. -/
def Tree.Read (property : Token → Prop) (tree : Tree) : Prop :=
  tree.Grammatical ∧ tree.EachToken property

/-- Such a tree with a rule at its root. -/
def Tree.IsReadAs (property : Token → Prop) (rule : Rule) (tree : Tree) : Prop :=
  tree.Read property ∧ tree.label = .rule rule

@[simp] theorem Tree.read_token :
    (Tree.token leaf).Read property ↔ leaf.WellFormed ∧ property leaf := by
  simp [Read]

@[simp] theorem Tree.read_node :
    (Tree.node rule children).Read property ↔
      rule.Produces (children.map label) ∧ ∀ child ∈ children, child.Read property := by
  simp only [Read, grammatical_node, eachToken_node, and_assoc, forall_and]

/-- A node is read as its rule if the rule produces its children and they are read. -/
theorem Tree.isReadAs_node (produced : rule.Produces (children.map label))
    (each : ∀ child ∈ children, child.Read property) :
    (Tree.node rule children).IsReadAs property rule :=
  ⟨read_node.mpr ⟨produced, each⟩, rfl⟩

namespace Parser

open Lexer

/-- What the readers of tokens return has a property. -/
structure TokensHave (property : Token → Prop) : Prop where
  /-- Operands start with such tokens. -/
  operand (text : List Char) : Yields property (operand? text)
  /-- Names behind a dot are such tokens. -/
  name (text : List Char) : Yields property (name? text)

namespace TokensHave

variable {property : Token → Prop} (tokens : TokensHave property) {text : List Char}

include tokens

/-- Such tokens are spelled like one of their kind, a literal or a name where an operand starts. -/
theorem operand_wellFormed : Yields (fun token =>
    (token.WellFormed ∧ property token) ∧ (token.kind = .ident ∨ token.kind ∈ TokenKind.literals))
    (operand? text) :=
  fun _ _ found => ⟨⟨(operand?_wellFormed found).1, tokens.operand _ found⟩,
    (operand?_wellFormed found).2⟩

/-- Behind a dot they are names. -/
theorem name_wellFormed :
    Yields (fun token => token.kind = .ident ∧ token.WellFormed ∧ property token) (name? text) :=
  fun _ _ found => ⟨(name?_wellFormed found).1, (name?_wellFormed found).2, tokens.name _ found⟩

end TokensHave

/-- The rule of the operands of a level. -/
def Level.operandRule (level : Level) : Rule :=
  match level.tighter? with
  | some tighter => tighter.rule
  | none => .unary

/-- A level produces a single operand. -/
theorem Level.produces_operand (level : Level) : level.rule.Produces [.rule level.operandRule] := by
  cases level <;> exact .inl rfl

/-- The productions of an operator: its level produces its wrapped left operand and a right operand,
or both as they are if the grammar has no rule for the left one. -/
theorem produces_placeOf (operator : Lexer.Operator) :
    match placeOf operator with
    | (level, some rule) =>
      level.rule.Produces [.rule rule, .rule level.operandRule] ∧ rule.Produces [.rule level.rule]
    | (level, none) => level.rule.Produces [.rule level.rule, .rule level.operandRule] := by
  cases operator <;>
    simp [placeOf, Level.rule, Level.operandRule, Level.tighter?, Rule.Produces, Rule.comparisons,
      Rule.products]

/-- An operator joins a tree of its level and an operand to a tree of its level. -/
theorem join_isReadAs {operator : Lexer.Operator} {left right : Tree}
    (leftOf : left.IsReadAs property (placeOf operator).1.rule)
    (rightOf : right.IsReadAs property (placeOf operator).1.operandRule) :
    (join operator left right).IsReadAs property (placeOf operator).1.rule := by
  obtain ⟨leftRead, leftLabel⟩ := leftOf
  obtain ⟨rightRead, rightLabel⟩ := rightOf
  have produced := produces_placeOf operator
  -- Only what its level produces matters of the operator.
  unfold join
  generalize placeOf operator = place at *
  obtain ⟨level, wrapper⟩ := place
  cases wrapper with
  | none =>
    refine Tree.isReadAs_node ?_ (by simp [leftRead, rightRead])
    simpa [leftLabel, rightLabel] using produced
  | some rule =>
    obtain ⟨whole, wrapped⟩ := produced
    refine Tree.isReadAs_node (by simpa [rightLabel] using whole) ?_
    simpa [leftRead, rightRead, leftLabel] using wrapped

/-- What the readers return under a bound on their calls. -/
structure Readers (property : Token → Prop) (fuel : Nat) : Prop where
  /-- Expressions. -/
  expression (text : List Char) : Yields (·.IsReadAs property .expr) (expression fuel text)
  /-- The operands of a level with their operators. -/
  binary (level : Level) (text : List Char) : Yields (·.IsReadAs property level.rule)
    (binary fuel level text)
  /-- An operand of a level. -/
  operandOf (level : Level) (text : List Char) :
    Yields (·.IsReadAs property level.operandRule) (operandOf fuel level text)
  /-- Further operators of a level behind a left operand. -/
  binaryTail {level : Level} {left : Tree} (leftOf : left.IsReadAs property level.rule)
    (text : List Char) :
    Yields (·.IsReadAs property level.rule) (binaryTail fuel level left text)
  /-- Operands with their signs. -/
  unary (text : List Char) : Yields (·.IsReadAs property .unary) (unary fuel text)
  /-- Operands with their selections. -/
  member (text : List Char) : Yields (·.IsReadAs property .member) (member fuel text)
  /-- Further selections behind an operand. -/
  memberTail {object : Tree} (objectOf : object.IsReadAs property .member) (text : List Char) :
    Yields (·.IsReadAs property .member) (memberTail fuel object text)
  /-- Operands without selections. -/
  primary (text : List Char) : Yields (·.IsReadAs property .primary) (primary fuel text)
  /-- The arguments of a call: none, or one list. -/
  arguments (text : List Char) :
    Yields (fun list => list = [] ∨ ∃ tree, list = [tree] ∧ tree.IsReadAs property .exprList)
      (arguments fuel text)
  /-- Expressions divided by commas. -/
  expressions (text : List Char) :
    Yields (fun list => (Tree.node .exprList list).Read property) (expressions fuel text)
  /-- The entries of a map. -/
  entries (text : List Char) : Yields (fun list => (Tree.node .mapInits list).Read property)
    (entries fuel text)
  /-- The fields of an object. -/
  fields (text : List Char) : Yields (fun list => (Tree.node .fieldInits list).Read property)
    (fields fuel text)

namespace Readers

variable {property : Token → Prop} {fuel : Nat} (tokens : TokensHave property)
  (readers : Readers property fuel) {level : Level} {text rest : List Char}
  {left object tree : Tree} {list : List Tree}

include readers

/-- One more call for expressions: a condition alone, or a choice. -/
theorem expression_succ :
    Yields (·.IsReadAs property .expr) (Parser.expression (fuel + 1) text) := by
  simp only [Parser.expression]
  split
  · exact .none
  next condition _ readCondition =>
    obtain ⟨conditionRead, conditionLabel⟩ := readers.binary _ _ readCondition
    split
    · exact .some (Tree.isReadAs_node (.inl (by simp [conditionLabel, Level.rule]))
        (by simpa using conditionRead))
    · split
      · exact .none
      next positive _ readPositive =>
        obtain ⟨positiveRead, positiveLabel⟩ := readers.binary _ _ readPositive
        split
        · exact .none
        · refine .map fun ⟨negative, _⟩ readNegative => ?_
          obtain ⟨negativeRead, negativeLabel⟩ := readers.expression _ readNegative
          refine Tree.isReadAs_node (.inr ?_) ?_
          · simp [conditionLabel, positiveLabel, negativeLabel, Level.rule]
          · simp [conditionRead, positiveRead, negativeRead]

/-- One more call for the operands of a level. -/
theorem binary_succ :
    Yields (·.IsReadAs property level.rule) (Parser.binary (fuel + 1) level text) := by
  simp only [Parser.binary]
  split
  · exact .none
  next operand _ read =>
    obtain ⟨isRead, label⟩ := readers.operandOf _ _ read
    refine readers.binaryTail (Tree.isReadAs_node ?_ (by simpa using isRead)) _
    simpa [label] using level.produces_operand

/-- One more call for an operand of a level. -/
theorem operandOf_succ :
    Yields (·.IsReadAs property level.operandRule) (Parser.operandOf (fuel + 1) level text) := by
  simp only [Parser.operandOf]
  unfold Level.operandRule
  cases level.tighter? with
  | some tighter => exact readers.binary tighter text
  | none => exact readers.unary text

/-- One more call for the operators of a level behind a left operand. -/
theorem binaryTail_succ (leftOf : left.IsReadAs property level.rule) :
    Yields (·.IsReadAs property level.rule) (Parser.binaryTail (fuel + 1) level left text) := by
  simp only [Parser.binaryTail]
  split
  · exact .some leftOf
  · split
    next operator _ _ sameLevel =>
      subst sameLevel
      split
      · exact .none
      next read => exact readers.binaryTail (join_isReadAs leftOf (readers.operandOf _ _ read)) _
    · exact .some leftOf

/-- One more call for an operand with its signs. -/
theorem unary_succ : Yields (·.IsReadAs property .unary) (Parser.unary (fuel + 1) text) := by
  have signed (sign : Rule) (behind : List Char) (isSign : sign ∈ [Rule.unaryNot, .unaryNeg])
      (empty : sign.Produces []) : Yields (·.IsReadAs property .unary)
        ((Parser.unary fuel behind).map fun read =>
          (Tree.node .unary [.node sign [], read.1], read.2)) := by
    refine .map fun ⟨operand, _⟩ readOperand => ?_
    obtain ⟨isRead, label⟩ := readers.unary _ readOperand
    refine Tree.isReadAs_node (.inr ⟨sign, isSign, by simp [label]⟩) ?_
    simp [isRead, empty]
  have unsigned (behind : List Char) : Yields (·.IsReadAs property .unary)
      ((Parser.member fuel behind).map fun read => (Tree.node .unary [read.1], read.2)) := by
    refine .map fun ⟨operand, _⟩ readOperand => ?_
    obtain ⟨isRead, label⟩ := readers.member _ readOperand
    exact Tree.isReadAs_node (.inl (by simp [label])) (by simpa using isRead)
  simp only [Parser.unary]
  split
  · exact signed .unaryNot _ (by simp) rfl
  · split
    · exact unsigned _
    · exact signed .unaryNeg _ (by simp) rfl
  · exact unsigned _

/-- One more call for an operand with its selections. -/
theorem member_succ : Yields (·.IsReadAs property .member) (Parser.member (fuel + 1) text) := by
  simp only [Parser.member]
  split
  · exact .none
  next read =>
    obtain ⟨isRead, label⟩ := readers.primary _ read
    refine readers.memberTail (Tree.isReadAs_node ⟨.primary, ?_, by simp [label]⟩
      (by simpa using isRead)) _
    simp [Rule.members]

/-- Arguments behind a name follow the grammar, and there is one list of them at most. -/
theorem arguments_labels (found : Parser.arguments fuel text = some (list, rest)) :
    (list.map Tree.label = [] ∨ list.map Tree.label = [.rule .exprList]) ∧
      ∀ tree ∈ list, tree.Read property := by
  rcases readers.arguments _ found with rfl | ⟨tree, rfl, isRead, label⟩
  · exact ⟨.inl rfl, by simp⟩
  · exact ⟨.inr (by simp [label]), by simpa using isRead⟩

include tokens in
/-- One more call for the selections behind an operand. -/
theorem memberTail_succ (objectOf : object.IsReadAs property .member) :
    Yields (·.IsReadAs property .member) (Parser.memberTail (fuel + 1) object text) := by
  obtain ⟨objectRead, objectLabel⟩ := objectOf
  -- Every selection becomes the operand of the next one.
  have next {rule : Rule} {children : List Tree} {behind : List Char}
      (isMember : rule ∈ Rule.members)
      (produced : rule.Produces (children.map Tree.label))
      (each : ∀ child ∈ children, child.Read property) :
      Yields (·.IsReadAs property .member)
        (Parser.memberTail fuel (.node .member [.node rule children]) behind) := by
    refine readers.memberTail (Tree.isReadAs_node ⟨rule, isMember, rfl⟩ ?_) _
    simpa using ⟨produced, each⟩
  simp only [Parser.memberTail]
  split
  · -- A dot: the call of a method, or the selection of a field.
    split
    · exact .none
    next name _ readName =>
      obtain ⟨nameKind, nameWellFormed⟩ := tokens.name_wellFormed readName
      split
      · split
        · exact .none
        next readArguments =>
          obtain ⟨labels, each⟩ := readers.arguments_labels readArguments
          refine next (by simp [Rule.members]) ?_ ?_
          · simpa [Rule.Produces, objectLabel, nameKind] using labels
          · simpa [objectRead, nameWellFormed] using each
      · refine next (by simp [Rule.members]) ?_ ?_
        · simp [Rule.Produces, objectLabel, nameKind]
        · simp [objectRead, nameWellFormed]
  · -- A bracket: an index.
    split
    · exact .none
    next readIndex =>
      obtain ⟨indexRead, indexLabel⟩ := readers.expression _ readIndex
      split
      · exact .none
      · refine next (by simp [Rule.members]) ?_ ?_
        · simp [Rule.Produces, objectLabel, indexLabel]
        · simp [objectRead, indexRead]
  · -- A brace: the fields of an object.
    split
    · refine next (by simp [Rule.members]) ?_ ?_
      · simp [Rule.Produces, objectLabel]
      · simp [objectRead]
    · split
      · exact .none
      next readFields =>
        refine next (by simp [Rule.members]) ?_ ?_
        · simp [Rule.Produces, objectLabel]
        · simpa [objectRead] using Tree.read_node.mp (readers.fields _ readFields)
  · exact .some ⟨objectRead, objectLabel⟩

include tokens in
/-- One more call for an operand without selections. -/
theorem primary_succ : Yields (·.IsReadAs property .primary) (Parser.primary (fuel + 1) text) := by
  have wrapped {rule : Rule} {children : List Tree} (isPrimary : rule ∈ Rule.primaries)
      (produced : rule.Produces (children.map Tree.label))
      (each : ∀ child ∈ children, child.Read property) :
      (Tree.node .primary [.node rule children]).IsReadAs property .primary := by
    refine Tree.isReadAs_node ⟨rule, isPrimary, rfl⟩ ?_
    simpa using ⟨produced, each⟩
  simp only [Parser.primary]
  split
  next token _ readToken =>
    -- A name, with arguments or without, or a literal.
    obtain ⟨tokenWellFormed, tokenKind⟩ := tokens.operand_wellFormed readToken
    split
    next isName =>
      split
      · refine .map fun ⟨list, _⟩ readArguments => ?_
        obtain ⟨labels, each⟩ := readers.arguments_labels readArguments
        refine wrapped (by simp [Rule.primaries]) ?_ ?_
        · simpa [Rule.Produces, isName] using labels
        · simpa [tokenWellFormed] using each
      · exact .some (wrapped (by simp [Rule.primaries]) (by simp [Rule.Produces, isName])
          (by simpa using tokenWellFormed))
    next isLiteral =>
      have kind := tokenKind.resolve_left isLiteral
      exact .some (wrapped (by simp [Rule.primaries]) ⟨token.kind, kind, rfl⟩
        (by simpa using tokenWellFormed))
  · split
    · -- A dot before a name.
      split
      · exact .none
      next name _ readName =>
        obtain ⟨nameKind, nameWellFormed⟩ := tokens.name_wellFormed readName
        split
        · refine .map fun ⟨list, _⟩ readArguments => ?_
          obtain ⟨labels, each⟩ := readers.arguments_labels readArguments
          refine wrapped (by simp [Rule.primaries]) ?_ ?_
          · simpa [Rule.Produces, nameKind] using labels
          · simpa [nameWellFormed] using each
        · exact .some (wrapped (by simp [Rule.primaries]) (by simp [Rule.Produces, nameKind])
            (by simpa using nameWellFormed))
    · -- An expression in parentheses.
      split
      · exact .none
      next readInner =>
        obtain ⟨isRead, label⟩ := readers.expression _ readInner
        exact .map fun _ _ =>
          wrapped (by simp [Rule.primaries]) (by simp [Rule.Produces, label])
            (by simpa using isRead)
    · -- A list, empty or not.
      split
      · exact .some (wrapped (by simp [Rule.primaries]) (.inl rfl) (by simp))
      · split
        · exact .none
        next readList =>
          refine .map fun _ _ => wrapped (by simp [Rule.primaries]) (.inr rfl) ?_
          simpa using Tree.read_node.mp (readers.expressions _ readList)
    · -- A map, empty or not.
      split
      · exact .some (wrapped (by simp [Rule.primaries]) (.inl rfl) (by simp))
      · refine .map fun ⟨children, _⟩ readEntries =>
          wrapped (by simp [Rule.primaries]) (.inr rfl) ?_
        simpa using Tree.read_node.mp (readers.entries _ readEntries)
    · exact .none

/-- One more call for the arguments of a call. -/
theorem arguments_succ :
    Yields (fun list => list = [] ∨ ∃ tree, list = [tree] ∧ tree.IsReadAs property .exprList)
      (Parser.arguments (fuel + 1) text) := by
  simp only [Parser.arguments]
  split
  · exact .some (.inl rfl)
  · split
    · exact .none
    next read => exact .map fun _ _ => .inr ⟨_, rfl, readers.expressions _ read, rfl⟩

/-- One more call for expressions divided by commas. -/
theorem expressions_succ :
    Yields (fun list => (Tree.node .exprList list).Read property)
      (Parser.expressions (fuel + 1) text) := by
  simp only [Parser.expressions]
  split
  · exact .none
  next readFirst =>
    obtain ⟨firstRead, firstLabel⟩ := readers.expression _ readFirst
    split
    · exact .some (by simp [Rule.Produces, firstRead, firstLabel])
    · refine .map fun ⟨others, _⟩ readOthers => ?_
      obtain ⟨⟨-, labels⟩, each⟩ := Tree.read_node.mp (readers.expressions _ readOthers)
      refine Tree.read_node.mpr ⟨⟨by simp, ?_⟩, ?_⟩
      · simpa [firstLabel] using labels
      · simpa [firstRead] using each

/-- One more call for the entries of a map. -/
theorem entries_succ :
    Yields (fun list => (Tree.node .mapInits list).Read property)
      (Parser.entries (fuel + 1) text) := by
  simp only [Parser.entries]
  split
  · exact .none
  next readKey =>
    obtain ⟨keyRead, keyLabel⟩ := readers.expression _ readKey
    split
    · exact .none
    · split
      · exact .none
      next readValue =>
        obtain ⟨valueRead, valueLabel⟩ := readers.expression _ readValue
        split
        · refine .map fun ⟨others, _⟩ readOthers => ?_
          obtain ⟨⟨-, labels⟩, each⟩ := Tree.read_node.mp (readers.entries _ readOthers)
          refine Tree.read_node.mpr ⟨⟨by simp, keyLabel, valueLabel, labels⟩, ?_⟩
          simpa [keyRead, valueRead] using each
        · refine .map fun _ _ => Tree.read_node.mpr ⟨⟨by simp, keyLabel, valueLabel, trivial⟩, ?_⟩
          simp [keyRead, valueRead]

include tokens in
/-- One more call for the fields of an object. -/
theorem fields_succ :
    Yields (fun list => (Tree.node .fieldInits list).Read property)
      (Parser.fields (fuel + 1) text) := by
  simp only [Parser.fields]
  split
  · exact .none
  next name _ readName =>
    obtain ⟨nameKind, nameWellFormed⟩ := tokens.name_wellFormed readName
    have nameLabel : (Tree.token name).label = .token .ident := by simp [nameKind]
    split
    · exact .none
    · split
      · exact .none
      next readValue =>
        obtain ⟨valueRead, valueLabel⟩ := readers.expression _ readValue
        split
        · refine .map fun ⟨others, _⟩ readOthers => ?_
          obtain ⟨⟨-, labels⟩, each⟩ := Tree.read_node.mp (readers.fields _ readOthers)
          refine Tree.read_node.mpr ⟨⟨by simp, nameLabel, valueLabel, labels⟩, ?_⟩
          simpa [nameWellFormed, valueRead] using each
        · refine .map fun _ _ => Tree.read_node.mpr ⟨⟨by simp, nameLabel, valueLabel, trivial⟩, ?_⟩
          simp [nameWellFormed, valueRead]

include tokens in
/-- One more call for all readers. -/
theorem succ : Readers property (fuel + 1) where
  expression _ := readers.expression_succ
  binary _ _ := readers.binary_succ
  operandOf _ _ := readers.operandOf_succ
  binaryTail leftOf _ := readers.binaryTail_succ leftOf
  unary _ := readers.unary_succ
  member _ := readers.member_succ
  memberTail objectOf _ := readers.memberTail_succ tokens objectOf
  primary _ := readers.primary_succ tokens
  arguments _ := readers.arguments_succ
  expressions _ := readers.expressions_succ
  entries _ := readers.entries_succ
  fields _ := readers.fields_succ tokens

end Readers

/-- Without calls no reader returns anything. -/
theorem Readers.zero : Readers property 0 where
  expression _ := .none
  binary _ _ := .none
  operandOf _ _ := .none
  binaryTail _ _ := .none
  unary _ := .none
  member _ := .none
  memberTail _ _ := .none
  primary _ := .none
  arguments _ := .none
  expressions _ := .none
  entries _ := .none
  fields _ := .none

/-- The readers follow the grammar under every bound. -/
theorem readers (tokens : TokensHave property) (fuel : Nat) : Readers property fuel := by
  -- The readers call each other, so they are carried from one bound to the next together.
  induction fuel with
  | zero => exact .zero
  | succ fuel ih => exact ih.succ tokens

end Parser

/-- What is read from a text follows the grammar and has tokens with every property of those that
are read. -/
theorem parse?_isReadAs (tokens : Parser.TokensHave property) {text : String} {tree : Tree}
    (found : parse? text = some tree) : tree.IsReadAs property .expr := by
  unfold parse? Parser.parseChars? at found
  split at found
  next read =>
    split at found
    · obtain rfl := Option.some.inj found
      exact (Parser.readers tokens _).expression _ read
    · simp at found
  · simp at found

/-- **Reading follows the grammar.** The tree of every text that can be read is that of an
expression. -/
theorem parse?_isExpression {text : String} {tree : Tree} (found : parse? text = some tree) :
    tree.IsExpression := by
  have anyToken : Parser.TokensHave fun _ => True :=
    ⟨fun _ _ _ _ => trivial, fun _ _ _ _ => trivial⟩
  obtain ⟨⟨grammatical, -⟩, label⟩ := parse?_isReadAs anyToken found
  exact ⟨grammatical, label⟩

/-- What holds of all tokens that are read holds of the tokens of the tree of a text. -/
theorem parse?_eachToken (tokens : Parser.TokensHave property) {text : String} {tree : Tree}
    (found : parse? text = some tree) : tree.EachToken property :=
  (parse?_isReadAs tokens found).1.2

end CelWhere
