import CelWhere.Sql.Identifier
import CelWhere.Sql.Operator

/-! # Reading operators by their precedence

A condition of names, numbers and operators is read from left to right. An operator takes as its
left operand all that was read before it and binds at least as tightly, so that operators of one
level group to the left; what binds more loosely stays open until its right operand is complete.

* `Operation` — trees of operators, with the parentheses that are written;
* `Operation.lexemes`, `readLexemes` — the lexemes of a tree, and the tree that lexemes are read as;
* `Operation.Grouped` — trees whose operands bind tightly enough to stand without parentheses of
  their own;
* `readLexemes_lexemes` — such trees are read back from their lexemes. -/

namespace CelWhere

/-! ## Trees of operators -/

/-- How tightly an operator binds. -/
def Operator.level : Operator → Nat
  | .or => 1
  | .and => 2
  | .compare _ => 4
  | .add | .sub => 5
  | .mul | .div => 6

namespace Grouping

/-- How tightly a negation binds: more than a conjunction and less than a comparison. -/
def notLevel : Nat := 3

/-- How tightly a minus sign binds: more than all operators. -/
def minusLevel : Nat := 7

/-- A tree of operators. -/
inductive Operation
  /-- A name. -/
  | name (text : String)
  /-- A natural number. -/
  | number (value : Nat)
  /-- An operation in parentheses. -/
  | paren (body : Operation)
  /-- An operation with a minus sign. -/
  | minus (body : Operation)
  /-- A negation. -/
  | not (body : Operation)
  /-- An operator with its two operands. -/
  | binary (operator : Operator) (left right : Operation)
  /-- The remainder of a division. -/
  | remainder (left right : Operation)
  deriving DecidableEq, Repr

namespace Operation

/-- How tightly the root of a tree binds. Names, numbers, parentheses and calls need no binding. -/
def level : Operation → Nat
  | .name _ | .number _ | .paren _ | .remainder _ _ => 8
  | .minus _ => minusLevel
  | .not _ => notLevel
  | .binary operator _ _ => operator.level

/-- Each operand binds tightly enough for its place: the left one at least as tightly as its
operator, the right one more tightly. -/
def Grouped : Operation → Prop
  | .name _ | .number _ => True
  | .paren body => body.Grouped
  | .minus body => minusLevel ≤ body.level ∧ body.Grouped
  | .not body => notLevel ≤ body.level ∧ body.Grouped
  | .binary operator left right =>
    (operator.level ≤ left.level ∧ left.Grouped) ∧ operator.level + 1 ≤ right.level ∧ right.Grouped
  | .remainder left right => left.Grouped ∧ right.Grouped

end Operation

/-! ## Lexemes -/

/-- The lexemes of conditions. -/
inductive Lexeme
  /-- A name. -/
  | name (text : String)
  /-- A natural number. -/
  | number (value : Nat)
  /-- An operator between operands, or the minus sign. -/
  | operator (operator : Operator)
  /-- The word of negations. -/
  | not
  /-- An opening parenthesis. -/
  | opening
  /-- A closing parenthesis. -/
  | closing
  /-- A comma. -/
  | comma
  deriving DecidableEq, Repr

/-- The lexemes of a tree; a remainder is a call. -/
def Operation.lexemes : Operation → List Lexeme
  | .name text => [.name text]
  | .number value => [.number value]
  | .paren body => .opening :: (body.lexemes ++ [.closing])
  | .minus body => .operator .sub :: body.lexemes
  | .not body => .not :: body.lexemes
  | .binary operator left right => left.lexemes ++ .operator operator :: right.lexemes
  | .remainder left right =>
    .name "MOD" :: .opening :: (left.lexemes ++ .comma :: (right.lexemes ++ [.closing]))

/-! ## Reading -/

/-- What was read and waits for an operand behind it. -/
inductive Frame
  /-- An opening parenthesis. -/
  | paren
  /-- The call of a remainder before its first argument. -/
  | firstArgument
  /-- The call of a remainder before its second argument. -/
  | secondArgument (left : Operation)
  /-- A minus sign. -/
  | minus
  /-- A negation. -/
  | not
  /-- An operator with its left operand. -/
  | operator (operator : Operator) (left : Operation)

/-- How far a condition is read; the innermost frame comes first. -/
inductive Reading
  /-- An operand must come. -/
  | awaiting (frames : List Frame)
  /-- An operand is there, and may be that of a frame or of an operator to come. -/
  | holding (operand : Operation) (frames : List Frame)

/-- Gives an operand to the frames that bind at least as tightly as a level, up to the first that
does not. -/
def close (level : Nat) : Operation → List Frame → Operation × List Frame
  | operand, .minus :: frames =>
    if level ≤ minusLevel then close level (.minus operand) frames else (operand, .minus :: frames)
  | operand, .not :: frames =>
    if level ≤ notLevel then close level (.not operand) frames else (operand, .not :: frames)
  | operand, .operator operator left :: frames =>
    if level ≤ operator.level then close level (.binary operator left operand) frames
    else (operand, .operator operator left :: frames)
  | operand, frames => (operand, frames)

/-- Reads one more lexeme. A minus sign stands where an operand must come, and the name of the
remainder stands right before a parenthesis. -/
def Reading.next : Reading → Lexeme → Option Reading
  | .awaiting frames, .name text => some (.holding (.name text) frames)
  | .awaiting frames, .number value => some (.holding (.number value) frames)
  | .awaiting frames, .operator .sub => some (.awaiting (.minus :: frames))
  | .awaiting frames, .not => some (.awaiting (.not :: frames))
  | .awaiting frames, .opening => some (.awaiting (.paren :: frames))
  | .holding (.name text) frames, .opening =>
    if lowerName text = "mod" then some (.awaiting (.firstArgument :: frames)) else none
  | .holding operand frames, .operator operator =>
    let (left, outer) := close operator.level operand frames
    some (.awaiting (.operator operator left :: outer))
  | .holding operand frames, .comma =>
    match close 0 operand frames with
    | (left, .firstArgument :: outer) => some (.awaiting (.secondArgument left :: outer))
    | _ => none
  | .holding operand frames, .closing =>
    match close 0 operand frames with
    | (body, .paren :: outer) => some (.holding (.paren body) outer)
    | (right, .secondArgument left :: outer) => some (.holding (.remainder left right) outer)
    | _ => none
  | _, _ => none

/-- The tree that was read, if nothing is open any more. -/
def Reading.finish : Reading → Option Operation
  | .awaiting _ => none
  | .holding operand frames =>
    match close 0 operand frames with
    | (whole, []) => some whole
    | _ => none

/-- The tree that lexemes are read as. -/
def readLexemes (lexemes : List Lexeme) : Option Operation :=
  (lexemes.foldlM Reading.next (.awaiting [])).bind Reading.finish

/-! ## Reading back -/

/-- How tightly the operand of a frame must bind. -/
def Frame.needs : Frame → Nat
  | .paren | .firstArgument | .secondArgument _ => 0
  | .minus => minusLevel
  | .not => notLevel
  | .operator sign _ => sign.level + 1

/-- An operand that binds like an operator is that of the innermost frame: an operator of its level
does not close the frame. -/
theorem close_eq_self {operator : Operator} {frames : List Frame}
    (fits : ∀ frame ∈ frames.head?, frame.needs ≤ operator.level) (operand : Operation) :
    close operator.level operand frames = (operand, frames) := by
  have belowMinus : operator.level < minusLevel := by
    cases operator <;> simp [Operator.level, minusLevel]
  have besideNot : operator.level ≠ notLevel := by
    cases operator <;> simp [Operator.level, notLevel]
  cases frames with
  | nil => rfl
  | cons frame outer =>
    have needed := fits frame rfl
    cases frame with
    | paren | firstArgument | secondArgument => rfl
    | minus =>
      simp only [Frame.needs] at needed
      omega
    | not =>
      simp only [Frame.needs] at needed
      rw [close, if_neg (by omega)]
    | operator outside left =>
      simp only [Frame.needs] at needed
      rw [close, if_neg (by omega)]

/-- Reading the lexemes of a tree leaves an operand which, once everything that binds as tightly as
the tree is closed, is the tree. -/
def ReadBack (operation : Operation) : Prop :=
  ∀ frames : List Frame, (∀ frame ∈ frames.head?, frame.needs ≤ operation.level) →
    ∃ operand inner, operation.lexemes.foldlM Reading.next (.awaiting frames) =
    some (.holding operand inner) ∧
      ∀ level ≤ operation.level, close level operand inner = close level operation frames

variable {operation : Operation}

namespace ReadBack

/-- One lexeme that is an operand. -/
theorem single {lexeme : Lexeme} (only : operation.lexemes = [lexeme])
    (read : ∀ frames, Reading.next (.awaiting frames) lexeme = some (.holding operation frames)) :
    ReadBack operation := by
  intro frames _
  refine ⟨operation, frames, ?_, fun _ _ => rfl⟩
  rw [only, List.foldlM_cons, read]
  rfl

/-- A tree between a frame that any operand can follow and the lexeme that closes it. -/
theorem enclosed (readBack : ReadBack operation) {frame : Frame} {outer : List Frame}
    (free : frame.needs = 0)
    (stays : close 0 operation (frame :: outer) = (operation, frame :: outer)) :
    ∃ operand inner,
      operation.lexemes.foldlM Reading.next (.awaiting (frame :: outer)) =
      some (.holding operand inner) ∧
        close 0 operand inner = (operation, frame :: outer) := by
  obtain ⟨operand, inner, read, closes⟩ := readBack (frame :: outer) (by simp [free])
  exact ⟨operand, inner, read, (closes 0 (Nat.zero_le _)).trans stays⟩

variable {body : Operation}

/-- A tree in parentheses. -/
theorem paren (readBack : ReadBack body) : ReadBack (.paren body) := by
  intro frames _
  have stays : close 0 body (.paren :: frames) = (body, .paren :: frames) := rfl
  obtain ⟨operand, inner, read, closes⟩ := readBack.enclosed rfl stays
  refine ⟨.paren body, frames, ?_, fun _ _ => rfl⟩
  simp only [Operation.lexemes, List.foldlM_cons, List.foldlM_append, List.foldlM_nil, Reading.next,
    Option.bind_eq_bind, Option.bind_some, read, closes, Option.pure_def]

/-- A tree behind a sign: the frame of the sign is closed with the tree. -/
theorem behindSign {whole : Operation} {frame : Frame} {sign : Lexeme}
    (lexemes : whole.lexemes = sign :: body.lexemes)
    (opens : ∀ frames, Reading.next (.awaiting frames) sign = some (.awaiting (frame :: frames)))
    (tight : frame.needs ≤ body.level) (looser : whole.level ≤ body.level)
    (closes : ∀ level ≤ whole.level, ∀ frames, close level body (frame :: frames) =
      close level whole frames) (readBack : ReadBack body) : ReadBack whole := by
  intro frames _
  obtain ⟨operand, inner, read, bodyCloses⟩ := readBack (frame :: frames) (by simpa using tight)
  refine ⟨operand, inner, ?_, fun level le => ?_⟩
  · rw [lexemes, List.foldlM_cons, opens]
    exact read
  · rw [bodyCloses level (Nat.le_trans le looser), closes level le]

/-- A tree behind a minus sign. -/
theorem minus (tight : minusLevel ≤ body.level) (readBack : ReadBack body) :
    ReadBack (.minus body) := by
  refine behindSign rfl (fun _ => rfl) tight tight (fun level le frames => ?_) readBack
  rw [Operation.level] at le
  rw [close, if_pos le]

/-- A negated tree. -/
theorem not (tight : notLevel ≤ body.level) (readBack : ReadBack body) : ReadBack (.not body) := by
  refine behindSign rfl (fun _ => rfl) tight tight (fun level le frames => ?_) readBack
  rw [Operation.level] at le
  rw [close, if_pos le]

/-- An operator between two trees. -/
theorem binary {operator : Operator} {left right : Operation}
    (leftTight : operator.level ≤ left.level) (leftBack : ReadBack left)
    (rightTight : operator.level + 1 ≤ right.level) (rightBack : ReadBack right) :
    ReadBack (.binary operator left right) := by
  intro frames fits
  obtain ⟨leftOperand, leftInner, leftRead, leftCloses⟩ :=
    leftBack frames fun frame first => Nat.le_trans (fits frame first) leftTight
  obtain ⟨operand, inner, read, closes⟩ :=
    rightBack (.operator operator left :: frames) (by simpa [Frame.needs] using rightTight)
  -- The operator closes the left tree and nothing around it, because the frame around it binds more
  -- loosely.
  have leftClosed : close operator.level leftOperand leftInner = (left, frames) :=
    (leftCloses _ leftTight).trans (close_eq_self fits left)
  refine ⟨operand, inner, ?_, fun level le => ?_⟩
  · simpa only [Operation.lexemes, List.foldlM_append, List.foldlM_cons, Option.bind_eq_bind,
      Option.bind_some, leftRead, Reading.next, leftClosed] using read
  · simp only [Operation.level] at le
    rw [closes level (by omega), close, if_pos le]

/-- The call of a remainder. -/
theorem remainder {left right : Operation} (leftBack : ReadBack left) (rightBack : ReadBack right) :
    ReadBack (.remainder left right) := by
  intro frames _
  have firstStays : close 0 left (.firstArgument :: frames) =
      (left, .firstArgument :: frames) := rfl
  have secondStays : close 0 right (.secondArgument left :: frames) =
      (right, .secondArgument left :: frames) := rfl
  obtain ⟨leftOperand, leftInner, leftRead, leftCloses⟩ := leftBack.enclosed rfl firstStays
  obtain ⟨rightOperand, rightInner, rightRead, rightCloses⟩ := rightBack.enclosed rfl secondStays
  have isCall : lowerName "MOD" = "mod" := by decide
  refine ⟨.remainder left right, frames, ?_, fun _ _ => rfl⟩
  simp only [Operation.lexemes, List.foldlM_cons, List.foldlM_append, List.foldlM_nil, Reading.next,
    isCall, if_true, Option.bind_eq_bind, Option.bind_some, leftRead, leftCloses, rightRead,
    rightCloses, Option.pure_def]

end ReadBack

/-- Grouped trees are read back in every place that they fit in. -/
theorem Operation.Grouped.readBack (grouped : operation.Grouped) : ReadBack operation := by
  induction operation with
  | name text => exact .single rfl fun _ => rfl
  | number value => exact .single rfl fun _ => rfl
  | paren body ih => exact .paren (ih grouped)
  | minus body ih => exact .minus grouped.1 (ih grouped.2)
  | not body ih => exact .not grouped.1 (ih grouped.2)
  | binary operator left right leftIh rightIh =>
    obtain ⟨⟨leftTight, leftGrouped⟩, rightTight, rightGrouped⟩ := grouped
    exact .binary leftTight (leftIh leftGrouped) rightTight (rightIh rightGrouped)
  | remainder left right leftIh rightIh =>
    exact .remainder (leftIh grouped.1) (rightIh grouped.2)

/-- **Grouped trees are read back from their lexemes.** -/
theorem readLexemes_lexemes (grouped : operation.Grouped) :
    readLexemes operation.lexemes = some operation := by
  obtain ⟨operand, inner, read, closes⟩ := grouped.readBack [] (by simp)
  have whole : close 0 operand inner = (operation, []) := closes 0 (Nat.zero_le _)
  rw [readLexemes, read, Option.bind_some, Reading.finish, whole]

end Grouping

end CelWhere
