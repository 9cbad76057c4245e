import CelWhere.Proofs.Alignment
import CelWhere.Proofs.Allowance.Construct
import CelWhere.Proofs.Blame.Token
import CelWhere.Proofs.Cutoff

/-! # What else than a conversion error can happen

A conversion of a readable expression can fail with a fault that is no conversion error. Then a
literal of the expression is to blame: an integer that is not read in the base that its place asks
for, or a literal that is too long.

* `Token.Causes` — the faults that a literal is to blame for;
* `Fragment.run_fault` — a run of a fragment fails with faults of its leaves or with conversion
  errors;
* `Tree.Within` — the trees of expressions with certain tokens, which `Dialect.accounting` covers;
* `Settings.convertTree_accounted` — so every fault is a conversion error or one that a literal is
  to blame for;
* `Token.isTame` — literals that are to blame for nothing. -/

namespace CelWhere

variable {settings : Settings} {cause : Fault} {radix : Radix} {value : Int} {tree : Tree}
  (text : String)

/-! ## Faults and their causes -/

/-- The characters that a token stands for: the contents of a string, the text of any other
token. -/
def Token.content (token : Token) : String :=
  if token.isString then token.stringValue else token.text

/-- The faults besides conversion errors that a token is to blame for in a dialect. -/
inductive Token.Causes (dialect : Dialect) (token : Token) : Fault → Prop
  /-- An integer in the place of a position is not read in base ten. -/
  | position {failure : IntegerFailure} : token.kind = .int →
    Integer.read .decimal token.text.toList = .error failure →
    Causes dialect token (.unreadableInteger .decimal token.text failure)
  /-- An integer is not read in the base of its mark. -/
  | int {failure : IntegerFailure} : token.kind = .int →
    Integer.read .marked token.text.toList = .error failure →
    Causes dialect token (.unreadableInteger .marked token.text failure)
  /-- An unsigned integer is not read in the base of its mark. -/
  | uint {failure : IntegerFailure} : token.kind = .uint →
    Integer.read .marked (dropUnsignedMark token.text).toList = .error failure →
    Causes dialect token (.unreadableInteger .marked (dropUnsignedMark token.text) failure)
  /-- A duration has a count of too many digits. -/
  | count {run : List Char} : token.isString → run <:+: token.stringValue.toList →
    Integer.digitLimit < run.length →
    Causes dialect token (.unreadableInteger .decimal (String.ofList run) (.tooLong run.length))
  /-- A number out of a long text has too many digits to be written. -/
  | number : token.isString ∨ token.kind = .int ∨ token.kind = .uint → 3500 < token.content.length →
    Causes dialect token .unwritableInteger
  /-- A duration out of a long text is too large for a double. -/
  | modifier : dialect = .sqlite → token.isString → 290 < token.content.length →
    Causes dialect token .floatOverflow

/-- A fault is a conversion error, or one of some tokens is to blame for it. -/
def Fault.Accounted (dialect : Dialect) (source : List Token) (cause : Fault) : Prop :=
  cause.isConversionError ∨ ∃ token ∈ source, token.Causes dialect cause

/-- A conversion failed with an accounted fault. -/
def Failure.Accounted (dialect : Dialect) (source : List Token) : Failure → Prop
  | .unreadable => False
  | .fault cause => cause.Accounted dialect source

/-- Accounted faults, and literals that fail with accounted faults when they are written out. -/
def Dialect.accounting (dialect : Dialect) (source : List Token) : Fragment.Allowance where
  literal value := ∀ cause, value.inlineText dialect = .error cause → cause.Accounted dialect source
  fault := Fault.Accounted dialect source
  refused refusal := .inl (Fault.isRefusal_iff.mp refusal).1

/-! ## Runs -/

/-- A limit that a session has passed is a refusal. -/
theorem Session.refused_of_limitFault? {session : Session}
    (found : session.limitFault? settings = some cause) :
    cause.isRefusal := by
  have limit := isLimit_of_limitFault? found
  simp only [Fault.isLimit, Bool.or_eq_true, decide_eq_true_eq] at limit
  rcases limit with deep | long
  · exact Fault.isRefusal_of_faultClass deep (by decide)
  · exact Fault.isRefusal_of_faultClass long (by decide)

/-- A field that the schemas do not have is refused. -/
theorem Catalog.refused_of_unknownFault? {catalog : Catalog} {table field : String}
    (found : catalog.unknownFault? table field = some cause) : cause.isRefusal :=
  Fault.isRefusal_of_faultClass (faultClass_of_unknownFault? found) (by decide)

/-- A run fails with faults that are allowed, if the leaves of its fragment and the faults of its
literals are, and if it is allowed that comprehensions are nested too deeply or there is room for
all of them. -/
theorem Fragment.run_fault {allowance : Allowance} {fragment : Fragment} {session : Session}
    (each : fragment.Each allowance)
    (written : ∀ value cause, allowance.literal value →
      value.inlineText settings.dialect = .error cause → allowance.fault cause)
    (room : (∀ depth, allowance.fault (.comprehensionDepthExceeded depth)) ∨
      ∃ limit, allowance.room = some limit ∧ session.nesting + limit ≤ comprehensionLimit)
    (failed : (fragment.run settings session).fault = some cause) : allowance.fault cause := by
  induction fragment generalizing allowance session with
  | text sql => simp [run] at failed
  | literal value =>
    unfold run at failed
    cases mode : settings.mode with
    | parameterized => simp [mode] at failed
    | inline =>
      simp only [mode] at failed
      cases spelled : value.inlineText settings.dialect with
      | ok spelling => simp [spelled] at failed
      | error inner =>
        obtain rfl : inner = cause := by simpa [spelled] using failed
        exact written value inner ((each_literal value).mp each) spelled
  | append first second firstIh secondIh =>
    obtain ⟨firstEach, secondEach⟩ := (each_append first second).mp each
    unfold run Outcome.andThen at failed
    cases ended : (first.run settings session).fault with
    | some inner =>
      obtain rfl : inner = cause := by simpa [ended] using failed
      exact firstIh firstEach written room ended
    | none =>
      rw [← (first.run_continues settings session).nesting] at room
      exact secondIh secondEach written room (by simpa [ended] using failed)
  | nested body ih =>
    simp only [run] at failed
    split at failed
    next inner passed =>
      obtain rfl := Option.some.inj failed
      exact allowance.refused (Session.refused_of_limitFault? passed)
    · have deeper : ({ session with depth := session.depth + 1 } : Session).nesting =
          session.nesting := rfl
      exact ih ((each_nested body).mp each) written (deeper ▸ room) failed
  | comprehension body ih =>
    obtain ⟨opens, bodyEach⟩ := (each_comprehension body).mp each
    unfold run at failed
    split at failed
    next full =>
      obtain rfl := Option.some.inj failed
      rcases room with allowed | ⟨limit, same, fits⟩
      · exact allowed _
      · obtain rfl : limit = 0 := by omega
        exact absurd same opens
    · have inside : (∀ depth, allowance.inner.fault (.comprehensionDepthExceeded depth)) ∨
          ∃ limit, allowance.inner.room = some limit ∧
            ({ session with nesting := session.nesting + 1 } : Session).nesting + limit ≤
            comprehensionLimit := by
        refine room.imp id ?_
        rintro ⟨limit, same, fits⟩
        refine ⟨limit - 1, by simp [Allowance.inner, same], ?_⟩
        have positive : limit ≠ 0 := fun none => opens (none ▸ same)
        simp only
        omega
      have allowed : allowance.inner.fault cause := ih bodyEach written inside failed
      exact allowed
  | binding name body ih =>
    have entered : (session.enter name).nesting = session.nesting := rfl
    exact ih ((each_binding name body).mp each) written (entered ▸ room) failed
  | unlessBound name inner =>
    unfold run at failed
    split at failed
    · simp at failed
    · obtain rfl := Option.some.inj failed
      exact (each_unlessBound name inner).mp each
  | known table field =>
    unfold run at failed
    split at failed
    · exact allowance.refused (Catalog.refused_of_unknownFault? failed)
    · simp at failed
  | fail inner =>
    obtain rfl := Option.some.inj failed
    exact (each_fail inner).mp each

/-! ## Numbers of tokens -/

namespace Token

variable {dialect : Dialect} {token : Token}

theorem content_of_isString (isString : token.isString) : token.content = token.stringValue :=
  if_pos isString

theorem content_of_kind (isOther : token.isString = false) : token.content = token.text :=
  if_neg (by simp [isOther])

/-- A text is not longer without its mark. -/
theorem length_dropUnsignedMark : (dropUnsignedMark text).length ≤ text.length := by
  have dropped : (text.toList.reverse.dropWhile fun c => c = 'u' || c = 'U').length ≤
      text.toList.reverse.length :=
    (List.dropWhile_sublist _).length_le
  rw [List.length_reverse, String.length_toList] at dropped
  simpa [dropUnsignedMark] using dropped

/-- An integer from which one that is too long can be computed is to blame for that. -/
theorem causes_of_large (isInt : token.kind = .int)
    (found : Integer.read radix token.text.toList = .ok value)
    (large : Integer.largeFrom ≤ value.natAbs) : token.Causes dialect .unwritableInteger := by
  have long := Integer.long_of_read found large
  refine .number (.inr (.inl isInt)) ?_
  rw [content_of_kind (by simp [isString, isInt]), ← String.length_toList]
  exact long

/-- An unsigned integer from which one that is too long can be computed is to blame for that. -/
theorem causes_of_largeUnsigned (isUint : token.kind = .uint)
    (found : Integer.read .marked (dropUnsignedMark token.text).toList = .ok value)
    (large : Integer.largeFrom ≤ value.natAbs) : token.Causes dialect .unwritableInteger := by
  have long := Integer.long_of_read found large
  have shorter := length_dropUnsignedMark token.text
  refine .number (.inr (.inr isUint)) ?_
  rw [content_of_kind (by simp [isString, isUint])]
  rw [String.length_toList] at long
  omega

/-- A duration that is too long to be written is out of a long text. -/
theorem causes_of_longDuration {duration : Duration} (isString : token.isString)
    (found : Duration.read token.stringValue = .ok duration)
    (long : Integer.tooLongToWrite duration.value) :
    token.Causes dialect .unwritableInteger := by
  have less := Duration.read_lt found
  have atLeast : tenTo Integer.digitLimit ≤ duration.value := (Integer.tooLongToWrite_iff _).mp long
  refine .number (.inl isString) ?_
  rw [content_of_isString isString]
  by_contra short
  have smaller : tenTo (token.stringValue.length + 13) ≤ tenTo Integer.digitLimit := by
    refine tenTo_le_tenTo ?_
    have limit : Integer.digitLimit = 4300 := rfl
    omega
  omega

/-- A duration that is too large for a double is out of a long text. -/
theorem causes_of_largeDuration {duration : Duration} (isSqlite : dialect = .sqlite)
    (isString : token.isString) (found : Duration.read token.stringValue = .ok duration)
    (large : Binary64.ofInt? duration.value = none) :
    token.Causes dialect .floatOverflow := by
  have less := Duration.read_lt found
  have atLeast : twoTo 1023 ≤ duration.value := Binary64.large_of_ofInt? large
  refine .modifier isSqlite isString ?_
  rw [content_of_isString isString]
  by_contra short
  have smaller : tenTo (token.stringValue.length + 13) ≤ tenTo 303 := tenTo_le_tenTo (by omega)
  have powers : tenTo 303 ≤ twoTo 1010 := tenTo_le_twoTo 101
  have larger : twoTo 1010 ≤ twoTo 1023 := twoTo_le_twoTo (by omega)
  omega

/-- Integers that are decimals without leading zeros and not too long, and strings that are not too
long. -/
def isTame (dialect : Dialect) (token : Token) : Bool :=
  match token.kind with
  | .int => Integer.isDecimal token.text.toList && token.text.length ≤ 3500
  | .uint => Integer.isDecimal (dropUnsignedMark token.text).toList && token.text.length ≤ 3500
  | .string | .multiline => token.stringValue.length ≤ if dialect = .sqlite then 290 else 3500
  | _ => true

/-- Tame integers are decimals. -/
theorem isTame_int (isInt : token.kind = .int) :
    token.isTame dialect ↔ Integer.isDecimal token.text.toList ∧ token.text.length ≤ 3500 := by
  simp [isTame, isInt]

/-- Tame unsigned integers are decimals without their mark. -/
theorem isTame_uint (isUint : token.kind = .uint) :
    token.isTame dialect ↔ Integer.isDecimal (dropUnsignedMark token.text).toList ∧
      token.text.length ≤ 3500 := by
  simp [isTame, isUint]

/-- Tame strings are short. -/
theorem isTame_string (isString : token.isString) :
    token.isTame dialect ↔ token.stringValue.length ≤ if dialect = .sqlite then 290 else 3500 := by
  have kinds : token.kind = .string ∨ token.kind = .multiline :=
    by simpa [Token.isString] using isString
  rcases kinds with kind | kind <;> simp [isTame, kind]

/-- A tame token is to blame for nothing. -/
theorem not_causes_of_isTame (tame : token.isTame dialect) : ¬token.Causes dialect cause := by
  have limit : Integer.digitLimit = 4300 := rfl
  intro causes
  cases causes with
  | position isInt failed =>
    obtain ⟨decimal, short⟩ := (isTame_int isInt).mp tame
    rw [← String.length_toList] at short
    obtain ⟨value, found⟩ := Integer.read_decimal (.inl rfl) decimal (by omega)
    rw [found] at failed
    simp at failed
  | int isInt failed =>
    obtain ⟨decimal, short⟩ := (isTame_int isInt).mp tame
    rw [← String.length_toList] at short
    obtain ⟨value, found⟩ := Integer.read_decimal (.inr rfl) decimal (by omega)
    rw [found] at failed
    simp at failed
  | uint isUint failed =>
    obtain ⟨decimal, short⟩ := (isTame_uint isUint).mp tame
    have shorter := length_dropUnsignedMark token.text
    rw [← String.length_toList] at shorter
    obtain ⟨value, found⟩ := Integer.read_decimal (.inr rfl) decimal (by omega)
    rw [found] at failed
    simp at failed
  | count isString within long =>
    have short := (isTame_string isString).mp tame
    have shorter := within.length_le
    rw [String.length_toList] at shorter
    split at short <;> omega
  | number kinds long =>
    rcases kinds with isString | isInt | isUint
    · have short := (isTame_string isString).mp tame
      rw [content_of_isString isString] at long
      split at short <;> omega
    · have short := ((isTame_int isInt).mp tame).2
      rw [content_of_kind (by simp [isString, isInt])] at long
      omega
    · have short := ((isTame_uint isUint).mp tame).2
      rw [content_of_kind (by simp [isString, isUint])] at long
      omega
  | modifier isSqlite isString long =>
    have short := (isTame_string isString).mp tame
    rw [content_of_isString isString] at long
    rw [if_pos isSqlite] at short
    omega

end Token

/-! ## Trees of expressions -/

/-- A tree follows the grammar, its tokens are among some tokens, and its numbers with a point or an
exponent have values. -/
def Tree.Within (source : List Token) (tree : Tree) : Prop :=
  tree.Grammatical ∧ tree.EachToken fun token =>
    token ∈ source ∧ (token.kind = .float → (Binary64.read? token.text.toList).isSome)

/-- The tree of a text is within its own tokens. -/
theorem parse?_within {text : String} (parsed : parse? text = some tree) :
    tree.Within tree.tokens :=
  ⟨(parse?_isExpression parsed).1, fun token member => ⟨member, parse?_float parsed token member⟩⟩

namespace Dialect

variable {dialect : Dialect} {source : List Token} {token : Token}

/-- A read integer is accounted for if the token is to blame for the fault of reading it. -/
theorem readInteger_accounted {text : String} (member : token ∈ source)
    (causes : ∀ failure, Integer.read radix text.toList = .error failure →
      token.Causes dialect (.unreadableInteger radix text failure))
    (failed : readInteger radix text = .error cause) : cause.Accounted dialect source := by
  unfold readInteger at failed
  split at failed
  · simp at failed
  next failure found =>
    obtain rfl := Except.error.inj failed
    exact .inr ⟨token, member, causes failure found⟩

/-- What is read as an integer has the value of its text. -/
theorem read_of_readInteger {text : String} (found : readInteger radix text = .ok value) :
    Integer.read radix text.toList = .ok value := by
  unfold readInteger at found
  split at found
  next inner read =>
    obtain rfl := Except.ok.inj found
    exact read
  · simp at found

/-- An integer literal is accounted for if its token is to blame for its length. -/
theorem literal_int_accounted (member : token ∈ source)
    (causes : Integer.largeFrom ≤ value.natAbs → token.Causes dialect .unwritableInteger) :
    (Fragment.literal (.int value)).Each (dialect.accounting source) := by
  refine (Fragment.each_literal _).mpr ?_
  intro cause failed
  have checked : (if Integer.tooLongToWrite value then .error .unwritableInteger
      else .ok (Integer.toText value)) =
      (.error cause : Except Fault String) := failed
  split at checked
  next long =>
    obtain rfl := Except.error.inj checked
    have atLeast := (Integer.tooLongToWrite_iff value).mp long
    rw [Integer.tenTo_digitLimit] at atLeast
    exact .inr ⟨token, member, causes (by omega)⟩
  · simp at checked

/-- A string literal is always written out. -/
theorem literal_string_accounted :
    (Fragment.literal (.string text)).Each (dialect.accounting source) := by
  refine (Fragment.each_literal _).mpr ?_
  intro cause failed
  cases failed

/-- A literal with a point or an exponent is always written out. -/
theorem literal_float_accounted (value : Binary64) :
    (Fragment.literal (.float text value)).Each (dialect.accounting source) := by
  refine (Fragment.each_literal _).mpr ?_
  intro cause failed
  cases failed

/-- A bytes literal that is too long to be written out is a conversion error. -/
theorem literal_bytes_accounted (bytes : List UInt8) :
    (Fragment.literal (.bytes bytes)).Each (dialect.accounting source) := by
  refine (Fragment.each_literal _).mpr ?_
  intro cause failed
  have checked : (if bytesLimit < bytes.length then .error (.bytesTooLong bytes.length)
      else .ok (dialect.bytesLiteral bytes)) = (.error cause : Except Fault String) := failed
  split at checked
  · obtain rfl := Except.error.inj checked
    exact .inl rfl
  · simp at checked

/-- The literal of an integer text is accounted for if the token is to blame for what can go wrong
with it. -/
theorem readLiteral_accounted {text : String} (member : token ∈ source)
    (unread : ∀ failure, Integer.read .marked text.toList = .error failure →
      token.Causes dialect (.unreadableInteger .marked text failure))
    (large : ∀ value, Integer.read .marked text.toList = .ok value →
      Integer.largeFrom ≤ value.natAbs → token.Causes dialect .unwritableInteger) :
    (Fragment.attempt (readInteger .marked text) fun value => .literal (.int value)).Each
      (dialect.accounting source) := by
  refine Fragment.each_attempt (readInteger_accounted member unread) fun value found => ?_
  exact literal_int_accounted member (large value (read_of_readInteger found))

/-- Literals of the tokens of an expression are accounted for. -/
theorem literalOf_accounted (member : token ∈ source)
    (float : token.kind = .float → (Binary64.read? token.text.toList).isSome) :
    (literalOf token).Each (dialect.accounting source) := by
  cases kind : token.kind with
  | null | bool =>
    simp only [literalOf, kind]
    exact Fragment.each_text _
  | int =>
    simp only [literalOf, kind]
    exact readLiteral_accounted member (fun _ => .int kind) fun _ => Token.causes_of_large kind
  | uint =>
    simp only [literalOf, kind]
    -- How the mark is dropped does not matter here.
    generalize dropped : dropUnsignedMark token.text = text
    refine readLiteral_accounted member (fun failure found => ?_) fun value found => ?_
    · rw [← dropped] at found ⊢
      exact .uint kind found
    · rw [← dropped] at found
      exact Token.causes_of_largeUnsigned kind found
  | float =>
    obtain ⟨value, read⟩ := Option.isSome_iff_exists.mp (float kind)
    simp only [literalOf, kind, read]
    exact literal_float_accounted _ _
  | string | multiline =>
    simp only [literalOf, kind]
    exact Convert.withoutNull_each _ _ (literal_string_accounted _)
  | bytes =>
    simp only [literalOf, kind]
    exact literal_bytes_accounted _
  | ident | other =>
    simp only [literalOf, kind]
    exact Fragment.each_refused rfl

/-- Durations of the tokens of an expression are accounted for. -/
theorem duration_accounted (member : token ∈ source) (isString : token.isString) :
    (Fragment.attempt (Duration.read token.stringValue) fun found =>
      dialect.duration found.value found.unit.name).Each
      (dialect.accounting source) := by
  refine Fragment.each_attempt (fun failed => ?_) fun found read => ?_
  · rcases Duration.read_error failed with rfl | ⟨run, within, long, rfl⟩
    · exact .inl rfl
    · exact .inr ⟨token, member, .count isString within long⟩
  · refine Dialect.duration_each _ (fun long => ?_) fun isSqlite large => ?_
    · exact .inr ⟨token, member, Token.causes_of_longDuration isString read long⟩
    · exact .inr ⟨token, member, Token.causes_of_largeDuration isSqlite isString read large⟩

/-- Accounted faults are all that trees of expressions lead to. -/
theorem accounting_covers (dialect : Dialect) (source : List Token) :
    (dialect.accounting source).Covers dialect (Tree.Within source) where
  hereditary _ _ within child member :=
    ⟨(Tree.grammatical_node.mp within.1).2 child member,
      Tree.eachToken_node.mp within.2 child member⟩
  shaped within := .inl (Tree.grammatical_node.mp within.1).1
  literal within :=
    have leaf := Tree.eachToken_token.mp within.2
    literalOf_accounted leaf.1 leaf.2
  position within isInt failed :=
    readInteger_accounted (Tree.eachToken_token.mp within.2).1 (fun _ => .position isInt) failed
  large within isInt found large :=
    .inr ⟨_, (Tree.eachToken_token.mp within.2).1,
      Token.causes_of_large isInt (read_of_readInteger found) large⟩
  duration within isString := duration_accounted (Tree.eachToken_token.mp within.2).1 isString

end Dialect

namespace Settings

/-- A conversion of the tree of a text fails with accounted faults only. -/
theorem convertTree_accounted {text : String} (parsed : parse? text = some tree)
    (failed : settings.convertTree tree = .error cause) :
    cause.Accounted settings.dialect tree.tokens := by
  rcases convertTree_eq_error.mp failed with invalid | ⟨-, failed⟩
  · -- Settings that ask for validation without a schema.
    unfold fault? at invalid
    split at invalid
    · obtain rfl := Option.some.inj invalid
      exact .inl rfl
    · simp at invalid
  · have covers := Dialect.accounting_covers settings.dialect tree.tokens
    have each : (settings.context.fragment tree).Each (settings.dialect.accounting tree.tokens) :=
      Context.each_of_covers covers (parse?_within parsed) rfl
    exact Fragment.run_fault each (fun value cause allowed => allowed cause)
      (.inl fun _ => .inl rfl) failed

/-- What fails behind the reading of a text fails for its tree. -/
theorem withTree_error {α : Type} {text : String} {next : Tree → Except Fault α} {failure : Failure}
    (parsed : parse? text = some tree) (failed : withTree text next = .error failure) :
    ∃ cause, failure = .fault cause ∧ next tree = .error cause := by
  unfold withTree at failed
  rw [parsed] at failed
  cases found : next tree with
  | ok value => simp [found] at failed
  | error cause =>
    obtain rfl : .fault cause = failure := by simpa [found] using failed
    exact ⟨cause, rfl, rfl⟩

/-- A text that is an expression is converted, or the conversion fails with an accounted fault. -/
theorem convertIn_accounted {text : String} {failure : Failure} (parsed : parse? text = some tree)
    (failed : settings.convertIn text = .error failure) :
    failure.Accounted settings.dialect tree.tokens := by
  obtain ⟨cause, rfl, inner⟩ := withTree_error parsed failed
  exact convertTree_accounted parsed inner

/-- **A literal is to blame for every fault that is no conversion error.** If the conversion of an
expression fails, with its literals written out or bound as parameters, it fails with a conversion
error or with a fault that a literal of the expression is to blame for. Where all its literals are
tame, it fails with conversion errors only. -/
theorem conversions_accounted (settings : Settings) {text : String} {tree : Tree}
    (parsed : parse? text = some tree) :
    let fails (failure : Failure) : Prop :=
      settings.convert text = .error failure ∨ settings.convertParameterized text = .error failure
    (∀ failure, fails failure → failure.Accounted settings.dialect tree.tokens) ∧
    ((∀ token ∈ tree.tokens, token.isTame settings.dialect) →
      ∀ failure, fails failure → ∃ cause, failure = .fault cause ∧ cause.isConversionError) := by
  intro fails
  have accounted : ∀ failure, fails failure → failure.Accounted settings.dialect tree.tokens := by
    rintro failure (inlineFailed | boundFailed)
    · have inlineAccounted := convertIn_accounted parsed (error_of_map inlineFailed)
      exact inlineAccounted
    · have boundAccounted := convertIn_accounted parsed boundFailed
      exact boundAccounted
  refine ⟨accounted, fun tame failure failed => ?_⟩
  have blamed := accounted failure failed
  cases failure with
  | unreadable => exact blamed.elim
  | fault cause =>
    rcases blamed with refused | ⟨token, member, causes⟩
    · exact ⟨cause, rfl, refused⟩
    · exact absurd causes (Token.not_causes_of_isTame (tame token member))

/-- An expression with tame literals, which fails for the limit of a replacement. -/
theorem conversions_accounted_replacement :
    let text := "names[12].replace('a', 'b', 3u) == names[0].replace(\"c\", \"d\", 7)"
    ∃ tree, parse? text = some tree ∧ (∀ token ∈ tree.tokens, token.isTame .sqlite) ∧
      ∃ failure, ({ dialect := .sqlite } : Settings).convert text = .error failure ∧
        ∃ cause, failure = .fault cause ∧ cause.isConversionError := by
  intro text
  have failed : ({ dialect := .sqlite } : Settings).convert text =
      .error (.fault (.replaceLimit 7)) := by
    decide +kernel
  have tame : (parse? text).all fun tree => tree.tokens.all (Token.isTame .sqlite) :=
    by decide +kernel
  obtain ⟨tree, parsed⟩ : ∃ tree, parse? text = some tree := by
    refine Option.isSome_iff_exists.mp ?_
    decide +kernel
  rw [parsed, Option.all_some, List.all_eq_true] at tame
  refine ⟨tree, parsed, tame, _, failed, ?_⟩
  exact (conversions_accounted { dialect := .sqlite } parsed).2 tame _ (.inl failed)

/-- Expressions that fail with faults that are no conversion errors: a position that is not in base
ten, and a literal with a leading zero. -/
theorem not_conversionError_position :
    ({} : Settings).convert "a[0x1]" =
      .error (.fault (.unreadableInteger .decimal "0x1" .malformed)) ∧
    ({} : Settings).convert "007" = .error (.fault (.unreadableInteger .marked "007" .malformed)) ∧
    ∀ radix text failure, (Fault.unreadableInteger radix text failure).isConversionError =
    false := by
  refine ⟨?_, ?_, fun _ _ _ => rfl⟩
  · decide +kernel
  · decide +kernel

end Settings

end CelWhere
