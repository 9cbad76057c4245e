import CelWhere.Proofs.Spelling

/-! # Bytes literals

Each byte of a bytes literal can be spelled by an escape of two hexadecimal digits. In a string such
an escape stands for the character with that code. In a bytes literal nothing turns it back: the
bytes that are bound or written are the codes of the characters between the quotes, four for each
byte that is meant.

* `HexByte` — a byte as two digits spell it;
* `Token.bytesValue_hexBytes` — the value of a literal of such bytes;
* `Dialect.length_eq_of_bytesLiteral_eq` — bytes that are written alike are equally many. -/

namespace CelWhere

/-! ## Bytes spelled by digits -/

/-- A byte as two hexadecimal digits spell it, of which letters are small or capital. -/
structure HexByte where
  /-- The byte. -/
  byte : UInt8
  /-- Whether the first digit is a capital, if it is a letter. -/
  firstCapital : Bool
  /-- Whether the second digit is a capital, if it is a letter. -/
  secondCapital : Bool
  deriving DecidableEq, Repr

namespace HexByte

/-- A digit of a value below sixteen. -/
def digit (capital : Bool) (value : Nat) : Char :=
  if capital then (Text.hexDigit value).toUpper else Text.hexDigit value

/-- The escape that spells a byte. -/
def chars (spelled : HexByte) : List Char :=
  ['\\', 'x', digit spelled.firstCapital (spelled.byte.toNat / 16),
    digit spelled.secondCapital (spelled.byte.toNat % 16)]

/-- Digits are characters of one byte that no literal ends with. -/
theorem digit_plain (capital : Bool) {value : Nat} (small : value < 16) :
    let c := digit capital value
    isQuote c = false ∧ c ≠ '\\' ∧ c ≠ '\n' ∧ c.val.toNat ≤ 127 := by
  have all : ∀ capital, ∀ value < 16, let c := digit capital value
      isQuote c = false ∧ c ≠ '\\' ∧ c ≠ '\n' ∧ c.val.toNat ≤ 127 := by decide
  exact all capital value small

/-- Both digits of a byte have values below sixteen. -/
theorem halves_lt (byte : UInt8) : byte.toNat / 16 < 16 ∧ byte.toNat % 16 < 16 := by
  have := byte.toNat_lt
  omega

/-- The two digits of a byte are read as its value. -/
theorem charOfHex?_digits (byte : UInt8) (first second : Bool) :
    charOfHex? [digit first (byte.toNat / 16), digit second (byte.toNat % 16)] =
      some (Char.ofNat byte.toNat) := by
  have read : ∀ capital, ∀ value < 16, let c := digit capital value
      Text.plainChar c = c ∧ Text.isBlank c = false ∧ c ∉ ['+', '-', 'x', 'X'] ∧
      Text.radixDigit? 16 c = some value := by
    decide
  obtain ⟨high, low⟩ := halves_lt byte
  obtain ⟨firstPlain, noBlank, firstOther, firstRead⟩ := read first _ high
  obtain ⟨secondPlain, -, secondOther, secondRead⟩ := read second _ low
  generalize digit first (byte.toNat / 16) = one at *
  generalize digit second (byte.toNat % 16) = two at *
  have sign : Integer.splitSign [one, two] = (false, [one, two]) := by
    unfold Integer.splitSign
    split <;> simp_all
  have base : Integer.splitBase .hexadecimal [one, two] = (16, [one, two], false) := by
    unfold Integer.splitBase
    split <;> simp_all
  have number : Integer.read .hexadecimal [one, two] = .ok (byte.toNat : Int) := by
    simp [Integer.read, firstPlain, secondPlain, noBlank, sign, base, Integer.readDigits,
      firstRead, secondRead, Integer.ofDigits]
    omega
  have small := byte.toNat_lt
  unfold charOfHex?
  rw [number]
  simp
  omega

/-- In a string the escapes of bytes stand for the characters with their codes. -/
theorem processEscapes_chars (spelled : List HexByte) :
    processEscapes (spelled.flatMap chars) = spelled.map fun one => Char.ofNat one.byte.toNat := by
  unfold processEscapes
  induction spelled with
  | nil => rfl
  | cons one rest ih =>
    rw [List.flatMap_cons, List.map_cons, ← ih]
    simp [chars, processFrom, escapeCode?, charOfHex?_digits]

/-- The escapes of bytes are read as they stand. -/
theorem passes_chars (quote : Quote) (spelled : List HexByte) :
    quote.Passes (spelled.flatMap chars) := by
  refine Quote.passes_flatMap fun one _ => ?_
  have plain {capital : Bool} {value : Nat} (small : value < 16) :
      quote.Passes [digit capital value] := by
    obtain ⟨noQuote, noBackslash, noEnd, -⟩ := digit_plain capital small
    exact Quote.passes_plain noQuote noBackslash fun isEnd => absurd isEnd noEnd
  obtain ⟨first, second⟩ := halves_lt one.byte
  have escape : quote.Passes ['\\', 'x'] := Quote.passes_letter rfl (by decide) (by decide)
  exact (escape.append (plain first)).append (plain second)

/-- Every character of an escape is encoded by its code. -/
theorem utf8EncodeChar_of_mem (spelled : List HexByte) :
    ∀ c ∈ spelled.flatMap chars, String.utf8EncodeChar c = [UInt8.ofNat c.toNat] := by
  intro c member
  obtain ⟨one, -, inEscape⟩ := List.mem_flatMap.mp member
  obtain ⟨first, second⟩ := halves_lt one.byte
  simp only [chars, List.mem_cons, List.not_mem_nil, or_false] at inEscape
  have small : c.val.toNat ≤ 127 := by
    rcases inEscape with rfl | rfl | rfl | rfl
    · decide
    · decide
    · exact (digit_plain _ first).2.2.2
    · exact (digit_plain _ second).2.2.2
  rw [String.utf8EncodeChar, if_pos small]
  rfl

/-- There are four characters for each byte. -/
theorem length_flatMap_chars (spelled : List HexByte) :
    (spelled.flatMap chars).length = 4 * spelled.length := by
  induction spelled with
  | nil => rfl
  | cons one rest ih =>
    rw [List.flatMap_cons, List.length_append, ih, List.length_cons]
    simp only [chars, List.length_cons, List.length_nil]
    omega

end HexByte

/-! ## The value of a literal -/

/-- The bytes of an array in order. -/
theorem toList_byteArray (bytes : List UInt8) : bytes.toByteArray.toList = bytes := by
  have loop : ∀ (array : ByteArray) (place : Nat) (before : List UInt8),
      ByteArray.toList.loop array place before =
      before.reverse ++ array.data.toList.drop place := by
    intro array place before
    fun_induction ByteArray.toList.loop array place before with
    | case1 place before inside ih =>
      have there : place < array.data.toList.length := inside
      rw [ih, List.drop_eq_getElem_cons there]
      simpa [ByteArray.get!] using getElem!_pos array.data place inside
    | case2 place before outside =>
      have beyond : array.data.toList.length ≤ place := Nat.le_of_not_lt outside
      rw [List.drop_eq_nil_of_le beyond, List.append_nil]
  rw [ByteArray.toList, loop, List.toList_data_toByteArray]
  rfl

/-- The literal that spells each byte by an escape between double quotes. -/
def Token.hexBytes (spelled : List HexByte) : Token :=
  ⟨.bytes, String.ofList ('b' :: '"' :: (spelled.flatMap HexByte.chars ++ ['"']))⟩

section

variable (spelled : List HexByte)

/-- No quote comes first between the quotes. -/
theorem HexByte.head?_chars : ∀ c ∈ (spelled.flatMap chars).head?, isQuote c = false := by
  cases spelled with
  | nil => simp
  | cons one rest => simp [chars, isQuote]

/-- **Escapes are not turned back in bytes.** The value of a literal that spells bytes by escapes is
the codes of its characters. -/
theorem Token.bytesValue_hexBytes :
    (Token.hexBytes spelled).bytesValue = (spelled.flatMap HexByte.chars).map fun c =>
      UInt8.ofNat c.toNat := by
  have unquoted : dropQuotes ('"' :: (spelled.flatMap HexByte.chars ++ ['"'])) =
      spelled.flatMap HexByte.chars :=
    Quote.dropQuotes_marks ⟨true, false⟩ (HexByte.head?_chars spelled)
  have encoded : (spelled.flatMap HexByte.chars).flatMap String.utf8EncodeChar =
      (spelled.flatMap HexByte.chars).map fun c => UInt8.ofNat c.toNat := by
    rw [List.map_eq_flatMap]
    exact List.flatMap_congr (HexByte.utf8EncodeChar_of_mem spelled)
  rw [bytesValue, hexBytes, String.toList_ofList, List.drop_one, List.tail_cons, unquoted]
  show (String.ofList _).toByteArray.toList = _
  rw [String.toByteArray_ofList, List.utf8Encode, toList_byteArray, encoded]

/-- The text of a literal that spells bytes by escapes is an expression of it. -/
theorem parse?_hexBytes :
    parse? (Token.hexBytes spelled).text = some (.loneLiteral (Token.hexBytes spelled)) := by
  let quoted := '"' :: (spelled.flatMap HexByte.chars ++ ['"'])
  have string : Lexer.string? quoted = some (⟨.string, String.ofList quoted⟩, []) := by
    rw [Quote.string?_of_splitRaw ⟨true, false⟩ rfl (HexByte.head?_chars spelled) (by simp)]
    have read : Lexer.stringBody? ['"'] false (spelled.flatMap HexByte.chars ++ ['"']) = _ :=
      (HexByte.passes_chars ⟨true, false⟩ spelled).stringBody?
    show (Lexer.stringBody? ['"'] false (spelled.flatMap HexByte.chars ++ ['"'])).map _ = _
    rw [read]
    rfl
  refine Parser.parse?_of_operand? (by decide) ?_ (by simp [Token.hexBytes])
  show (Lexer.bytes? ('b' :: quoted)).or _ = _
  have bytes : Lexer.bytes? ('b' :: quoted) = some (Token.hexBytes spelled, []) := by
    show (Lexer.string? quoted).map _ = _
    rw [string]
    simp [Token.hexBytes, quoted]
  rw [bytes, Option.some_or]

end

/-! ## What becomes of a literal -/

/-- Bytes that are written alike are equally many. -/
theorem Dialect.length_eq_of_bytesLiteral_eq {dialect : Dialect} {one two : List UInt8}
    (same : dialect.bytesLiteral one = dialect.bytesLiteral two) : one.length = two.length := by
  have pairs (bytes : List UInt8) : (upperHex bytes).length = 2 * bytes.length := by
    simp [upperHex, Text.hexPair, List.length_flatMap, Nat.mul_comm]
  have lengths := congrArg String.length same
  cases dialect <;> simp [bytesLiteral, pairs, octalTriple, List.length_flatMap] at lengths <;>
    omega

/-- Bytes are written out unless they are too many. -/
theorem Fragment.run_bytes {settings : Settings} (inline : settings.mode = .inline)
    (bytes : List UInt8) (session : Session) :
    (literal (.bytes bytes)).run settings session =
      if bytesLimit < bytes.length then { session, fault := some (.bytesTooLong bytes.length) }
      else { session := session.write (settings.dialect.bytesLiteral bytes) } := by
  unfold run Literal.inlineText
  by_cases long : bytesLimit < bytes.length
  · simp only [inline, if_pos long]
  · simp only [inline, if_neg long]

/-- **Escapes in bytes literals.** Take bytes that are spelled by escapes, which stand for them in
strings. Where the literal stands in a tree, and as an expression of its own, not these bytes are
bound but the codes of its characters; and where literals are written out, they are written, unless
they are more than the limit allows. They are four times as many as the bytes that are meant, so
what is bound or written is right only if there are none. -/
theorem Settings.convert_hexBytes (settings : Settings) (spelled : List HexByte) :
    let meant := spelled.map HexByte.byte
    let inside := spelled.flatMap HexByte.chars
    let taken := inside.map fun c => UInt8.ofNat c.toNat
    let token := Token.hexBytes spelled
    let bound : Settings := { settings with mode := .parameterized }
    let inline : Settings := { settings with mode := .inline }
    let tooLong := bytesLimit < 4 * meant.length
    processEscapes inside = meant.map (fun byte => Char.ofNat byte.toNat) ∧
    (taken = meant ↔ meant = []) ∧
    (settings.dialect.bytesLiteral taken = settings.dialect.bytesLiteral meant ↔ meant = []) ∧
    (∀ session,
      bound.visit session (.node .literal [.token token]) =
      { session := session.bind settings.dialect (.bytes taken) } ∧
      inline.visit session (.node .literal [.token token]) =
        if tooLong then { session, fault := some (.bytesTooLong (4 * meant.length)) }
        else { session := session.write (settings.dialect.bytesLiteral taken) }) ∧
    (settings.fault? = none → 9 ≤ settings.maxDepth → 0 ≤ settings.maxLength →
      settings.convertParameterized token.text = .ok ⟨settings.dialect.placeholder 1,
        #[.bytes taken]⟩ ∧
      settings.convert token.text =
        if tooLong then .error (.fault (.bytesTooLong (4 * meant.length)))
        else .ok (settings.dialect.bytesLiteral taken)) := by
  intro meant inside taken token bound inline tooLong
  have four : taken.length = 4 * meant.length := by
    rw [List.length_map, List.length_map, HexByte.length_flatMap_chars]
  have none_of_length (same : taken.length = meant.length) : meant = [] :=
    List.length_eq_zero_iff.mp (by omega)
  have taken_of_none (empty : meant = []) : taken = meant := by
    have nothing : spelled = [] := List.map_eq_nil_iff.mp empty
    subst nothing
    rfl
  have converted : settings.context.fragment (.node .literal [.token token]) =
      .literal (.bytes taken) := by
    rw [Context.fragment_eq]
    show Fragment.literal (.bytes token.bytesValue) = _
    rw [Token.bytesValue_hexBytes]
  have written (session : Session) :=
    Fragment.run_bytes (show inline.mode = .inline from rfl) taken session
  rw [four] at written
  refine ⟨by rw [HexByte.processEscapes_chars, List.map_map]; rfl,
    ⟨fun same => none_of_length (congrArg _ same), taken_of_none⟩,
    ⟨fun same => none_of_length (Dialect.length_eq_of_bytesLiteral_eq same),
      fun empty => by rw [taken_of_none empty]⟩,
    fun session => ⟨?_, ?_⟩, fun valid deep allowed => ⟨?_, ?_⟩⟩
  · show (settings.context.fragment _).run bound session = _
    rw [converted]
    rfl
  · show (settings.context.fragment _).run inline session = _
    rw [converted, written]
  · refine convertIn_eq_ok (parse?_hexBytes spelled) (convertTree_eq_ok.mpr ⟨valid, ?_⟩)
    rw [bound.visit_loneLiteral converted deep allowed]
    exact ⟨rfl, rfl, rfl⟩
  · have visited := inline.visit_loneLiteral converted deep allowed
    rw [written] at visited
    show (inline.convertIn token.text).map (·.sql) = _
    by_cases long : tooLong
    · rw [if_pos long] at visited ⊢
      have refused : inline.convertTree (.loneLiteral token) =
          .error (.bytesTooLong (4 * meant.length)) :=
        convertTree_eq_error.mpr (.inr ⟨valid, by rw [visited]; rfl⟩)
      rw [convertIn_of_parse? _ (parse?_hexBytes spelled), refused]
      rfl
    · rw [if_neg long] at visited ⊢
      have accepted : inline.convertTree (.loneLiteral token) =
          .ok ⟨settings.dialect.bytesLiteral taken, #[]⟩ :=
        convertTree_eq_ok.mpr ⟨valid, by rw [visited]; exact ⟨rfl, rfl, rfl⟩⟩
      rw [convertIn_eq_ok (parse?_hexBytes spelled) accepted]
      rfl

/-- A byte that is no character by itself and a quote, spelled with digits of both sorts and
converted for MySQL. -/
theorem Settings.convert_hexBytes_mixed :
    let settings : Settings := { dialect := .mysql }
    let spelled : List HexByte := [⟨0xfe, true, false⟩, ⟨0x27, false, false⟩]
    let taken : List UInt8 := [92, 120, 70, 101, 92, 120, 50, 55]
    (Token.hexBytes spelled).text = "b\"\\xFe\\x27\"" ∧ spelled.map HexByte.byte = [0xfe, 0x27] ∧
      settings.convertParameterized "b\"\\xFe\\x27\"" = .ok ⟨"?", #[.bytes taken]⟩ ∧
      settings.convert "b\"\\xFe\\x27\"" = .ok "X'5C7846655C783237'" := by
  intro settings spelled taken
  obtain ⟨-, -, -, -, whole⟩ := settings.convert_hexBytes spelled
  obtain ⟨bound, written⟩ := whole rfl (by decide) (by decide)
  exact ⟨by decide +kernel, rfl, bound, written⟩

/-- A literal of one byte: neither what is bound nor what is written is this byte. -/
theorem Settings.convert_byteA :
    let settings : Settings := {}
    (settings.convertParameterized "b\"\\x41\"").toOption.map (·.parameters) =
    some #[.bytes [92, 120, 52, 49]] ∧
      (settings.convert "b\"\\x41\"").toOption = some "'\\x5C783431'" ∧
      Dialect.bytesLiteral .postgresql [0x41] = "'\\x41'" := by
  decide +kernel

end CelWhere
