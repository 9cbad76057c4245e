import CelWhere.Conversion
import CelWhere.Convert.Locality.Basic
import CelWhere.Proofs.Cutoff

/-! # Texts of one operand

A text that is one operand without a sign is read below all levels of precedence. Its conversion
goes down through the levels, one after the other, and writes what the operand does.

* `Tree.underLevels` — the tree of an operand as that of a whole expression;
* `Parser.expression_of_member`, `Parser.parseChars?_of_member` — reading an operand is reading an
  expression;
* `Fragment.nestedBy` — a fragment some levels deeper, and what running it does;
* `Settings.visitBelow` — visits of the operands of a tree. -/

namespace CelWhere

variable {c : Char} {token : Token} {tree : Tree}

/-- An operand with its selections, below the levels of operators and signs. -/
def Tree.underLevels (operand : Tree) : Tree :=
  .node .expr [.node .conditionalOr [.node .conditionalAnd [.node .relation [.node .addition
    [.node .multiplication [.node .unary [operand]]]]]]]

/-- A literal as a whole expression. -/
def Tree.loneLiteral (token : Token) : Tree :=
  underLevels (.node .member [.node .primary [.node .literal [.token token]]])

/-- Whether a character is one of the two quotes. -/
def isQuote (c : Char) : Bool :=
  c = '"' || c = '\''

/-! ## Reading an operand -/

namespace Lexer

/-- Characters with which an operand can start that has no sign: no blanks, and neither signs nor
what starts a comment. -/
def isOperandStart (c : Char) : Bool :=
  !isSpace c && c ≠ '/' && c ≠ '!' && c ≠ '-'

/-- Nothing is skipped where an operand starts. -/
theorem skip_of_isOperandStart (starts : isOperandStart c) (rest : List Char) :
    skip (c :: rest) = c :: rest := by
  simp only [isOperandStart, Bool.and_eq_true, Bool.not_eq_true', decide_eq_true_eq] at starts
  obtain ⟨⟨⟨noSpace, noSlash⟩, -⟩, -⟩ := starts
  simp [skip, skipFrom, noSpace, noSlash]

/-- No operator and no choice goes on with a text. -/
def Stops (text : List Char) : Prop :=
  operator? text = none ∧ punctuation? '?' text = none

theorem stops_nil : Stops [] :=
  ⟨rfl, rfl⟩

end Lexer

namespace Parser

open Lexer

variable {fuel : Nat} {text rest : List Char} {operand : Tree}

/-- An operand without a sign is an operand with its signs. -/
theorem unary_of_member (starts : isOperandStart c)
    (read : member fuel (c :: text) = some (operand, rest)) :
    unary (fuel + 1) (c :: text) = some (.node .unary [operand], rest) := by
  simp only [unary, skip_of_isOperandStart starts]
  simp only [isOperandStart, Bool.and_eq_true, Bool.not_eq_true', decide_eq_true_eq] at starts
  obtain ⟨⟨-, noNot⟩, noMinus⟩ := starts
  split
  next same => exact absurd (List.cons.inj same).1 noNot
  next same => exact absurd (List.cons.inj same).1 noMinus
  · simp [read]

/-- An operand of a level that no operator follows is all that the level reads. -/
theorem binary_of_operandOf {level : Level} (stops : Stops rest)
    (read : operandOf (fuel + 1) level text = some (operand, rest)) :
    binary (fuel + 2) level text = some (.node level.rule [operand], rest) := by
  simp only [binary, read, binaryTail, stops.1]

/-- What a level reads is an operand of the next looser one. -/
theorem operandOf_of_binary (level : Level) {tighter : Level} (next : level.tighter? = some tighter)
    (read : binary fuel tighter text = some (operand, rest)) :
    operandOf (fuel + 1) level text = some (operand, rest) := by
  simp only [operandOf, next, read]

/-- **An operand is an expression.** Where an operand without a sign is read and neither an operator
nor a choice follows it, an expression is read that consists of the operand below all levels. -/
theorem expression_of_member (starts : isOperandStart c) (stops : Stops rest)
    (read : member fuel (c :: text) = some (operand, rest)) :
    expression (fuel + 12) (c :: text) = some (operand.underLevels, rest) := by
  -- Each level reads what the next tighter one does, and one call more goes down to it.
  have signed := unary_of_member starts read
  have factor : operandOf (fuel + 2) .multiplication (c :: text) =
      some (.node .unary [operand], rest) := by
    simp only [operandOf, Level.tighter?, signed]
  have product := binary_of_operandOf stops factor
  have sum := binary_of_operandOf stops (operandOf_of_binary .addition rfl product)
  have comparison := binary_of_operandOf stops (operandOf_of_binary .relation rfl sum)
  have conjunction := binary_of_operandOf stops (operandOf_of_binary .and rfl comparison)
  have disjunction := binary_of_operandOf stops (operandOf_of_binary .or rfl conjunction)
  simp only [expression, disjunction, stops.2]
  rfl

/-- A text is read as an operand below all levels if the operand is all of it, and is no expression
if something is left that no operator starts. -/
theorem parseChars?_of_member (starts : isOperandStart c) (stops : Stops rest)
    (read : member (20 * (text.length + 1) + 8) (c :: text) = some (operand, rest)) :
    parseChars? (c :: text) = if (skip rest).isEmpty then some operand.underLevels else none := by
  have whole := expression_of_member starts stops read
  have enough : fuelFor (c :: text) = 20 * (text.length + 1) + 8 + 12 := by
    simp only [fuelFor, List.length_cons]
    omega
  rw [parseChars?, enough, whole]

/-- A literal is an operand without selections. -/
theorem primary_of_literal (read : operand? text = some (token, rest))
    (other : token.kind ≠ .ident) :
    primary (fuel + 1) text = some (.node .primary [.node .literal [.token token]], rest) := by
  simp only [primary, read, if_neg other]

/-- A text that is read as one literal is an expression of it. -/
theorem parse?_of_operand? (starts : isOperandStart c)
    (read : operand? (c :: text) = some (token, [])) (other : token.kind ≠ .ident) :
    parse? (String.ofList (c :: text)) = some (.loneLiteral token) := by
  have alone : member (20 * (text.length + 1) + 8) (c :: text) =
      some (.node .member [.node .primary [.node .literal [.token token]]], []) := by
    rw [member, primary_of_literal read other]
    rfl
  unfold parse?
  rw [String.toList_ofList, parseChars?_of_member starts stops_nil alone]
  rfl

/-- A name that no parenthesis follows is an operand without selections. -/
theorem primary_of_name (read : operand? text = some (token, rest)) (isName : token.kind = .ident)
    (noCall : punctuation? '(' rest = none) :
    primary (fuel + 1) text = some (.node .primary [.node .ident [.token token]], rest) := by
  simp only [primary, read, if_pos isName, noCall]

end Parser

/-! ## Going down to an operand -/

namespace Fragment

/-- A fragment a number of levels deeper. -/
def nestedBy : Nat → Fragment → Fragment
  | 0, body => body
  | count + 1, body => .nested (nestedBy count body)

/-- Within the limits, a fragment some levels deeper is run at that depth, which is set back behind
it. -/
theorem run_nestedBy {settings : Settings} {session : Session} {count : Nat} (body : Fragment)
    (deep : session.depth + count ≤ settings.maxDepth)
    (fits : session.text.length ≤ settings.maxLength) :
    (nestedBy count body).run settings session =
      (body.run settings { session with depth := session.depth + count }).closing fun after =>
        { after with depth := after.depth - count } := by
  induction count generalizing session with
  | zero => rfl
  | succ count ih =>
    let deeper : Session := { session with depth := session.depth + 1 }
    have allowed : deeper.limitFault? settings = none := by
      refine Session.limitFault?_eq_none.mpr ⟨?_, fits⟩
      show ((session.depth + 1 : Nat) : Int) ≤ settings.maxDepth
      omega
    have inner := @ih deeper (by simp only [deeper]; omega) fits
    have sameDepth : session.depth + 1 + count = session.depth + (count + 1) := by omega
    simp only [nestedBy, run, deeper, sameDepth] at allowed inner ⊢
    rw [allowed, inner]
    congr 2

end Fragment

/-- A level of precedence with a single operand goes one level deeper to it. -/
theorem Context.fragment_level (context : Context) (rule : Rule) (level : rule.isLevel)
    (child : Tree) :
    context.fragment (.node rule [child]) = .nested (context.fragment child) := by
  rw [Context.fragment_eq]
  cases rule with
  | expr | conditionalOr | conditionalAnd | relation | addition | multiplication | unary | member
  | primary => rfl
  | _ => simp [Rule.isLevel] at level

/-- What holds of the fragment below the levels above a tree holds of the tree's, if it holds one
level deeper. -/
theorem Context.of_core {context : Context} (property : Fragment → Prop)
    (nested : ∀ {fragment}, property fragment → property (.nested fragment))
    (core : property (context.fragment tree.core)) : property (context.fragment tree) := by
  fun_induction Tree.core tree with
  | case1 rule child isLevel ih =>
    rw [context.fragment_level rule isLevel]
    exact nested (ih core)
  | case2 => exact core
  | case3 => exact core

/-- An operand below all levels of operators and signs is seven levels deeper. -/
theorem Context.fragment_underLevels (context : Context) (operand : Tree) :
    context.fragment operand.underLevels = Fragment.nestedBy 7 (context.fragment operand) := by
  rw [Tree.underLevels, context.fragment_level .expr rfl, context.fragment_level .conditionalOr rfl,
    context.fragment_level .conditionalAnd rfl, context.fragment_level .relation rfl,
    context.fragment_level .addition rfl, context.fragment_level .multiplication rfl,
    context.fragment_level .unary rfl]
  rfl

/-! ## Visits -/

/-- Going on twice is going on with both. -/
theorem Outcome.andThen_assoc (outcome : Outcome) (next later : Session → Outcome) :
    (outcome.andThen next).andThen later = outcome.andThen fun session =>
      (next session).andThen later := by
  unfold andThen
  cases failed : outcome.fault with
  | none => rfl
  | some fault => simp [failed]

/-- Writing twice is writing both texts. -/
theorem Session.write_write (session : Session) (first second : String) :
    (session.write first).write second = session.write (first ++ second) := by
  simp [write, String.append_assoc]

/-- In either mode a literal as an expression of its own runs as its fragment at depth nine, if the
limits allow it. -/
theorem Settings.visit_loneLiteral (settings : Settings) {body : Fragment}
    (converted : settings.context.fragment (.node .literal [.token token]) = body)
    (deep : 9 ≤ settings.maxDepth) (long : 0 ≤ settings.maxLength) :
    settings.visit .fresh (.loneLiteral token) =
      (body.run settings { Session.fresh with depth := 9 }).closing fun after =>
        { after with depth := after.depth - 9 } := by
  show (settings.context.fragment (.loneLiteral token)).run settings .fresh = _
  rw [Tree.loneLiteral, Context.fragment_underLevels, Context.fragment_level _ .member rfl,
    Context.fragment_level _ .primary rfl, converted]
  show (Fragment.nestedBy 9 body).run settings .fresh = _
  exact Fragment.run_nestedBy _ (by simpa [Session.fresh] using deep)
    (by simpa [Session.fresh] using long)

/-- Converts a tree that stands one level below another one, continuing a session. -/
def Settings.visitBelow (settings : Settings) (session : Session) (tree : Tree) : Outcome :=
  (Fragment.nested (settings.context.fragment tree)).run settings session

/-- An expression is converted as its tree is. -/
theorem Settings.convertIn_of_parse? (settings : Settings) {text : String}
    (read : parse? text = some tree) :
    settings.convertIn text = (settings.convertTree tree).mapError .fault := by
  unfold convertIn withTree
  rw [read]
  dsimp only
  cases settings.convertTree tree with
  | ok condition => rfl
  | error fault => rfl

/-- An expression is converted to what its tree is. -/
theorem Settings.convertIn_eq_ok {settings : Settings} {text : String} {condition : Condition}
    (read : parse? text = some tree) (converted : settings.convertTree tree = .ok condition) :
    settings.convertIn text = .ok condition := by
  rw [settings.convertIn_of_parse? read, converted]
  rfl

end CelWhere
