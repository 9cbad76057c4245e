import CelWhere.Proofs.Alignment
import CelWhere.Proofs.Operand
import CelWhere.Proofs.Position.Reading

/-! # Positions in strings

The calls that search a string or take a part of it by its position count from zero, and the SQL
that is written for them counts from one. Read as a formula, what is written has the value that the
call asks for.

* `Fragment.Supplies` — what a fragment writes is of a certain kind;
* `Lookup`, `Lookup.Answers` — the calls, and the values that answer them;
* `Computes` — texts that are read as a formula with such a value. -/

namespace CelWhere

/-! ## What fragments write -/

/-- Where its run succeeds, a fragment writes a text of a certain kind. -/
def Fragment.Supplies (settings : Settings) (fragment : Fragment) (kind : List Char → Prop) :
    Prop :=
  ∀ session, (fragment.run settings session).fault = none →
    ∃ written, kind written ∧ (fragment.run settings session).session.text.toList =
    session.text.toList ++ written

namespace Fragment.Supplies

variable {settings : Settings} {fragment first second : Fragment} {kind one two : List Char → Prop}

theorem imp (supplies : fragment.Supplies settings kind) (weaker : ∀ text, kind text → one text) :
    fragment.Supplies settings one := by
  intro session succeeds
  obtain ⟨written, isKind, same⟩ := supplies session succeeds
  exact ⟨written, weaker written isKind, same⟩

theorem text (settings : Settings) (sql : String) :
    (Fragment.text sql).Supplies settings (· = sql.toList) :=
  fun _ _ => ⟨sql.toList, rfl, String.toList_append⟩

theorem fail (fault : Fault) : (Fragment.fail fault).Supplies settings kind := by
  intro session succeeds
  cases succeeds

/-- One text is written behind the other. -/
theorem append (firstSupplies : first.Supplies settings one)
    (secondSupplies : second.Supplies settings two) :
    (first ++ second).Supplies settings fun text => ∃ left right, text = left ++ right ∧ one left ∧
      two right := by
  intro session succeeds
  obtain ⟨firstSucceeds, unchained⟩ := Outcome.fault_andThen succeeds
  obtain ⟨left, isOne, leftText⟩ := firstSupplies session firstSucceeds
  have whole : (first ++ second).run settings session =
      second.run settings (first.run settings session).session :=
    unchained
  rw [whole] at succeeds ⊢
  obtain ⟨right, isTwo, rightText⟩ := secondSupplies _ succeeds
  exact ⟨left ++ right, ⟨left, right, rfl, isOne, isTwo⟩,
    by rw [rightText, leftText, List.append_assoc]⟩

/-- Going deeper writes nothing. -/
theorem nested (supplies : fragment.Supplies settings kind) :
    (Fragment.nested fragment).Supplies settings kind := by
  intro session succeeds
  simp only [run] at succeeds ⊢
  split at succeeds
  · simp at succeeds
  next allowed => exact supplies _ succeeds

/-- A natural number is written by its digits. -/
theorem number (settings : Settings) (value : Nat) :
    (Fragment.number "" value "").Supplies settings (· = Nat.toDigits 10 value) := by
  unfold Fragment.number
  split
  · exact fail _
  · refine (text settings _).imp fun written same => ?_
    simpa [Integer.toList_toText_ofNat] using same

/-- The digits of a number can be taken apart from the texts around them. -/
theorem spread {before after : String} {value : Int}
    (supplies : (fragment ++ before ++ Fragment.number "" value "" ++ after).Supplies
      settings kind) :
    (fragment ++ Fragment.number before value after).Supplies settings kind := by
  by_cases tooLong : Integer.tooLongToWrite value
  · intro session succeeds
    have failed : ((fragment.run settings session).andThen
        ((Fragment.fail .unwritableInteger).run settings)).fault =
        none := by simpa [Fragment.number, tooLong, append_eq, run] using succeeds
    have unchained := (Outcome.fault_andThen failed).2
    rw [unchained] at failed
    cases failed
  · have same : (fragment ++ Fragment.number before value after).run settings =
        (fragment ++ before ++ Fragment.number "" value "" ++ after).run settings := by
      funext session
      cases found : (fragment.run settings session).fault <;>
        simp [Fragment.number, tooLong, append_eq, run, Outcome.andThen, found, Session.write,
          String.append_assoc]
    rwa [Supplies, same]

end Fragment.Supplies

namespace Position

/-! ## Calls -/

/-- The calls that look up a place in a string, or what stands at a place. -/
inductive Lookup
  /-- The first place of a string. -/
  | indexOf
  /-- The first place of a string from an offset on. -/
  | indexOfFrom (offset : Nat)
  /-- The last place of a string. -/
  | lastIndexOf
  /-- The characters from a place up to another. -/
  | substring (start finish : Nat)
  /-- The character at a place. -/
  | charAt (index : Nat)

/-- A tree is a literal for a natural number. -/
def IsIndex (tree : Tree) (value : Nat) : Prop :=
  ∃ token, tree.intLiteral? = some token ∧ readInteger .decimal token.text = .ok (value : Int)

namespace Lookup

/-- The method that is called. -/
def method : Lookup → String
  | .indexOf | .indexOfFrom _ => "indexOf"
  | .lastIndexOf => "lastIndexOf"
  | .substring _ _ => "substring"
  | .charAt _ => "charAt"

/-- The arguments of the call: the string that is searched for, and literals for the places. -/
def Takes (part : Tree) (arguments : List Tree) : Lookup → Prop
  | .indexOf | .lastIndexOf => arguments = [part]
  | .indexOfFrom offset => ∃ place, IsIndex place offset ∧ arguments = [part, place]
  | .substring start finish =>
    ∃ one two, IsIndex one start ∧ IsIndex two finish ∧ arguments = [one, two]
  | .charAt index => ∃ place, IsIndex place index ∧ arguments = [place]

/-- The places of the call are in the string. -/
def Fits (whole : List Char) : Lookup → Prop
  | .indexOf | .lastIndexOf => True
  | .indexOfFrom offset => offset ≤ whole.length
  | .substring start finish => start ≤ finish ∧ finish ≤ whole.length
  | .charAt index => index < whole.length

/-- The values that answer a call: a place or -1, or the characters between two places. -/
def Answers (whole part : List Char) : Lookup → Value → Prop
  | .indexOf, .number answer => Found IsLeast { index | Occurs part whole index } answer
  | .indexOfFrom offset, .number answer =>
    Found IsLeast { index | offset ≤ index ∧ Occurs part whole index } answer
  | .lastIndexOf, .number answer => Found IsGreatest { index | Occurs part whole index } answer
  | .substring start finish, .chars answer => answer = (whole.take finish).drop start
  | .charAt index, .chars answer => ∃ c, whole[index]? = some c ∧ answer = [c]
  | _, _ => False

end Lookup

/-- A text is an operand that stands for a certain string. -/
abbrev Denotes (dialect : Dialect) (operand : List Char → List Char) (value text : List Char) :
    Prop :=
  Lexes dialect operand (.string value) text

/-- A text is read as a formula whose value is an answer. -/
def Computes (dialect : Dialect) (operand : List Char → List Char) (answers : Value → Prop)
    (text : List Char) : Prop :=
  ∃ formula, read? dialect operand text = some formula ∧ answers formula.value

/-! ## Rows of lexemes -/

/-- What a fragment writes has certain lexemes, if a separator follows where the last run is still
open. -/
def Lays (settings : Settings) (operand : List Char → List Char) (opened : Bool)
    (found : List Lexeme) (fragment : Fragment) : Prop :=
  fragment.Supplies settings fun text => ∀ rest, (opened → rest.head?.any separators.contains) →
    lexemes settings.dialect operand (text ++ rest) = found ++ lexemes settings.dialect operand rest

/-- The lexemes of a text without operands. -/
def marksOf (sql : String) : List Lexeme :=
  lexemes .postgresql (fun run => run) sql.toList

/-- A text without operands leaves no run open. -/
def Settles (sql : String) : Prop :=
  ∀ dialect operand rest, lexemes dialect operand (sql.toList ++ rest) =
    marksOf sql ++ lexemes dialect operand rest

/-- A text can stand behind a run. -/
abbrev Separates (sql : String) : Prop :=
  sql.toList.head?.any separators.contains

namespace Lays

variable {settings : Settings} {operand : List Char → List Char} {opened : Bool}
  {found behind : List Lexeme} {lexeme : Lexeme} {fragment piece : Fragment} {sql : String}

theorem text (settles : Settles sql) : Lays settings operand false (marksOf sql) sql := by
  refine (Fragment.Supplies.text settings sql).imp ?_
  rintro _ rfl rest -
  exact settles _ _ rest

theorem run (supplies : piece.Supplies settings (Lexes settings.dialect operand lexeme)) :
    Lays settings operand true [lexeme] piece :=
  supplies.imp fun _ lexes _ separated => lexemes_slot lexes (separated rfl)

/-- More lexemes behind a fragment that leaves no run open. -/
theorem append (lays : Lays settings operand false found fragment)
    (more : Lays settings operand opened behind piece) :
    Lays settings operand opened (found ++ behind) (fragment ++ piece) := by
  refine (Fragment.Supplies.append lays more).imp ?_
  rintro _ ⟨left, right, rfl, laid, moreLaid⟩ rest separated
  rw [List.append_assoc, laid _ (by simp), moreLaid rest separated, List.append_assoc]

/-- A run behind a fragment. -/
theorem slot (lays : Lays settings operand false found fragment)
    (supplies : piece.Supplies settings (Lexes settings.dialect operand lexeme)) :
    Lays settings operand true (found ++ [lexeme]) (fragment ++ piece) :=
  lays.append (run supplies)

/-- Another text behind a fragment. -/
theorem fixed (lays : Lays settings operand opened found fragment) (settles : Settles sql)
    (separates : Separates sql) :
    Lays settings operand false (found ++ marksOf sql) (fragment ++ sql) := by
  refine (Fragment.Supplies.append lays (.text settings sql)).imp ?_
  rintro _ ⟨left, _, rfl, laid, rfl⟩ rest -
  have starts : (sql.toList ++ rest).head?.any separators.contains := by
    cases found : sql.toList with
    | nil => simp [Separates, found] at separates
    | cons c more => simpa [Separates, found] using separates
  rw [List.append_assoc, laid _ fun _ => starts, settles, List.append_assoc]

/-- The last text. -/
theorem finish (lays : Lays settings operand opened found fragment)
    (lexed : ∀ dialect operand, lexemes dialect operand sql.toList = marksOf sql)
    (separates : Separates sql) :
    (fragment ++ sql).Supplies settings (lexemes settings.dialect operand · =
      found ++ marksOf sql) := by
  refine (Fragment.Supplies.append lays (.text settings sql)).imp ?_
  rintro _ ⟨left, _, rfl, laid, rfl⟩
  rw [laid _ fun _ => separates, lexed]

end Lays

/-! ## Templates -/

/-- The choice that is made for a search: by whether the first position is there, between a sum and
-1. -/
def searched (part whole : Chars) (answer : Terms) : Formula :=
  .choice (.single (.position part whole)) (.single (.number 0)) answer (.single (.number (-1)))

/-- The digits of a number are a run. -/
theorem number_supplies (settings : Settings) (operand : List Char → List Char) (value : Nat) :
    (Fragment.number "" value "").Supplies settings
      (Lexes settings.dialect operand (.number value)) :=
  (Fragment.Supplies.number settings value).imp fun _ same => same ▸ lexes_number value

section

variable {settings : Settings} {object part : Fragment} {operand : List Char → List Char}
  {whole sought : List Char}
  (objectSupplies : object.Supplies settings (Denotes settings.dialect operand whole))
  (partSupplies : part.Supplies settings (Denotes settings.dialect operand sought))

include objectSupplies

theorem substring_supplies {start finish : Nat} (ordered : start ≤ finish) :
    ("SUBSTRING(" ++ object ++ ", " ++ (Fragment.number "" ((start : Int) + 1) "" ++ ", " ++
      Fragment.number "" ((finish : Int) - start) "") ++ ")" : Fragment).Supplies settings
      (Computes settings.dialect operand
        ((Lookup.substring start finish).Answers whole sought)) := by
  have digits := number_supplies settings operand
  have comma : Settles ", " := fun _ _ _ => rfl
  rw [← Int.natCast_sub ordered]
  refine (((Lays.text fun _ _ _ => rfl).slot objectSupplies |>.fixed comma rfl).append
    ((Lays.run (digits (start + 1))).fixed comma rfl |>.slot (digits (finish - start)))
    |>.finish (fun _ _ => rfl) rfl).imp fun text lexed => ?_
  refine ⟨.chars (.substring (.string whole) (start + 1 : Nat) (some (finish - start : Nat))), ?_,
    ?_⟩
  · rw [read?, lexed]
    rfl
  · simp [Lookup.Answers, Formula.value, Chars.value, List.take_drop, ordered]

theorem charAt_supplies {index : Nat} (within : index < whole.length) :
    ("SUBSTRING(" ++ object ++ ", " ++ Fragment.number "" ((index : Int) + 1) "" ++ ", 1)" :
      Fragment).Supplies settings
      (Computes settings.dialect operand ((Lookup.charAt index).Answers whole sought)) := by
  have digits := number_supplies settings operand
  refine ((Lays.text fun _ _ _ => rfl).slot objectSupplies |>.fixed (fun _ _ _ => rfl) rfl
    |>.slot (digits (index + 1)) |>.finish (fun _ _ => rfl) rfl).imp fun text lexed => ?_
  refine ⟨.chars (.substring (.string whole) (index + 1 : Nat) (some 1)), ?_, whole[index],
    by simp [within], ?_⟩
  · rw [read?, lexed]
    rfl
  · simp [Chars.value, List.take_one, within]

include partSupplies

theorem indexOf_supplies :
    (indexOf object part).Supplies settings
      (Computes settings.dialect operand (Lookup.indexOf.Answers whole sought)) := by
  refine ((Lays.text fun _ _ _ => rfl).slot partSupplies |>.fixed (fun _ _ _ => rfl) rfl
    |>.slot objectSupplies |>.fixed (fun _ _ _ => rfl) rfl |>.slot partSupplies
    |>.fixed (fun _ _ _ => rfl) rfl |>.slot objectSupplies |>.finish (fun _ _ => rfl) rfl).imp
    fun text lexed => ?_
  let first : Terms := .single (.position (.string sought) (.string whole))
  refine ⟨searched (.string sought) (.string whole) (.sub first (.number 1)), ?_, ?_⟩
  · rw [read?, lexed]
    rfl
  · have found := found_indexOf sought whole (Nat.zero_le _)
    simpa [Lookup.Answers, Formula.value, searched, first, Terms.value, Term.value,
      Chars.value] using found

theorem indexOfFrom_supplies {offset : Nat} (within : offset ≤ whole.length) :
    (indexOfFrom object part offset).Supplies settings
      (Computes settings.dialect operand ((Lookup.indexOfFrom offset).Answers whole sought)) := by
  have digits := number_supplies settings operand
  have next : (Fragment.number "" ((offset : Int) + 1) "").Supplies settings
    (Lexes settings.dialect operand (.number (offset + 1 : Nat))) := digits (offset + 1)
  -- A search behind the offset is laid out twice.
  have search {found : List Lexeme} {before : Fragment}
      (lays : Lays settings operand false found before) :
      Lays settings operand false
        (found ++ [.string sought] ++ marksOf " IN SUBSTRING(" ++ [.string whole] ++ marksOf ", " ++
          [.number (offset + 1 : Nat)] ++ marksOf "))")
        (before ++ part ++ " IN SUBSTRING(" ++ object ++ Fragment.number ", " (offset + 1) "))") :=
    .spread (lays.slot partSupplies |>.fixed (fun _ _ _ => rfl) rfl |>.slot objectSupplies
      |>.fixed (fun _ _ _ => rfl) rfl |>.slot next |>.fixed (fun _ _ _ => rfl) rfl)
  refine (Fragment.Supplies.spread ((search ((search (Lays.text fun _ _ _ => rfl)).fixed
    (fun _ _ _ => rfl) rfl)).fixed (fun _ _ _ => rfl) rfl |>.slot (digits offset)
    |>.finish (fun _ _ => rfl) rfl)).imp fun text lexed => ?_
  let behind : Chars := .substring (.string whole) (offset + 1 : Nat) none
  let first : Terms := .single (.position (.string sought) behind)
  refine ⟨searched (.string sought) behind (.sub (.add first (.number offset)) (.number 1)), ?_, ?_⟩
  · rw [read?, lexed]
    cbv
  · have found := found_indexOf sought whole within
    simpa [Lookup.Answers, Formula.value, searched, behind, first, Terms.value, Term.value,
      Chars.value] using found

theorem lastIndexOf_supplies :
    (lastIndexOf object part).Supplies settings
      (Computes settings.dialect operand (Lookup.lastIndexOf.Answers whole sought)) := by
  refine ((Lays.text fun _ _ _ => rfl).slot partSupplies |>.fixed (fun _ _ _ => rfl) rfl
    |>.slot objectSupplies |>.fixed (fun _ _ _ => rfl) rfl |>.slot objectSupplies
    |>.fixed (fun _ _ _ => rfl) rfl |>.slot partSupplies |>.fixed (fun _ _ _ => rfl) rfl
    |>.slot objectSupplies |>.fixed (fun _ _ _ => rfl) rfl |>.slot partSupplies
    |>.finish (fun _ _ => rfl) rfl).imp fun text lexed => ?_
  let first : Term := .position (.reverse (.string sought)) (.reverse (.string whole))
  let lengths : Terms :=
    .sub (.sub (.single (.length (.string whole))) first) (.length (.string sought))
  refine ⟨searched (.reverse (.string sought)) (.reverse (.string whole))
    (.add lengths (.number 1)), ?_, ?_⟩
  · rw [read?, lexed]
    cbv
  · have found := found_lastIndexOf sought whole
    simpa [Lookup.Answers, Formula.value, searched, first, lengths, Terms.value, Term.value,
      Chars.value] using found

end

/-- What is written for a call computes its answer. -/
theorem callMethod_supplies {context : Context} {settings : Settings} {child : Tree → Fragment}
    {object part : Tree} {arguments : List Tree} {operand : List Char → List Char}
    {whole sought : List Char} {lookup : Lookup} (takes : lookup.Takes part arguments)
    (fits : lookup.Fits whole)
    (objectSupplies : (child object).Supplies settings (Denotes settings.dialect operand whole))
    (partSupplies : (child part).Supplies settings (Denotes settings.dialect operand sought)) :
    (Convert.callMethod context child object lookup.method arguments).Supplies settings
      (Computes settings.dialect operand (lookup.Answers whole sought)) := by
  cases lookup with
  | indexOf =>
    obtain rfl := takes
    exact indexOf_supplies objectSupplies partSupplies
  | indexOfFrom offset =>
    obtain ⟨place, ⟨token, found, read⟩, rfl⟩ := takes
    show (Convert.indexOfCall child object [part, place]).Supplies settings _
    simp only [Convert.indexOfCall, found, read, Fragment.attempt_ok]
    exact indexOfFrom_supplies objectSupplies partSupplies fits
  | lastIndexOf =>
    obtain rfl := takes
    exact lastIndexOf_supplies objectSupplies partSupplies
  | substring start finish =>
    obtain ⟨one, two, ⟨first, oneFound, oneRead⟩, ⟨last, twoFound, twoRead⟩, rfl⟩ := takes
    show (Convert.substring child object [one, two]).Supplies settings _
    simp only [Convert.substring, Convert.substringRange, oneFound, oneRead, twoFound, twoRead,
      Fragment.attempt_ok]
    exact substring_supplies objectSupplies fits.1
  | charAt index =>
    obtain ⟨place, ⟨token, found, read⟩, rfl⟩ := takes
    show (Convert.charAt child object [place]).Supplies settings _
    simp only [Convert.charAt, Convert.positionFromOne, found, read, Fragment.attempt_ok]
    exact charAt_supplies objectSupplies fits

end Position

open Position

/-- **Positions are computed.** A call looks up a place in a string, or what stands at a place, and
its object and the string that is searched for are written as operands, which stand for any strings.
Then what is written is read as a formula, and its value is the answer for these strings. -/
theorem Settings.convertTree_lookup (settings : Settings) (lookup : Lookup)
    {tree object part : Tree} {arguments : List Tree} (takes : lookup.Takes part arguments)
    (isCall : tree.core = .node .memberDotArg [object, .token ⟨.ident, lookup.method⟩,
      .node .exprList arguments]) {operand : List Char → List Char} {whole sought : List Char}
    (fits : lookup.Fits whole)
    (objectSupplies : (settings.context.fragment object).Supplies settings
      (Denotes settings.dialect operand whole))
    (partSupplies : (settings.context.fragment part).Supplies settings
      (Denotes settings.dialect operand sought)) {condition : Condition}
    (converted : settings.convertTree tree = .ok condition) :
    ∃ formula, read? settings.dialect operand condition.sql.toList = some formula ∧
      lookup.Answers whole sought formula.value := by
  have called : settings.context.fragment tree.core = Convert.callMethod settings.context
      settings.context.child object lookup.method arguments := by
    rw [isCall, settings.context.fragment_eq]
    rfl
  have supplies : (settings.context.fragment tree).Supplies settings
      (Computes settings.dialect operand (lookup.Answers whole sought)) := by
    refine Context.of_core (·.Supplies settings _) .nested ?_
    rw [called]
    exact callMethod_supplies takes fits objectSupplies.nested partSupplies.nested
  obtain ⟨-, succeeds, written, -⟩ := convertTree_eq_ok.mp converted
  obtain ⟨text, computes, same⟩ := supplies .fresh succeeds
  have isText : condition.sql.toList = text := by
    rw [← written]
    exact same
  rwa [isText]

/-- A literal is searched for in a column from an offset on. -/
theorem Settings.convertTree_lookup_banana :
    let tree :=
      Tree.node .memberDotArg [.node .ident [.token ⟨.ident, "x"⟩], .token ⟨.ident, "indexOf"⟩,
        .node .exprList [.node .literal [.token ⟨.string, "\"an\""⟩],
          .node .literal [.token ⟨.int, "2"⟩]]]
    let sql :=
      "CASE WHEN POSITION('an' IN SUBSTRING(x, 3)) > 0 THEN POSITION('an' IN SUBSTRING(x, 3)) + 2 - 1 ELSE -1 END"
    let operand (text : List Char) : List Char :=
      if text = ['x'] then "banana".toList else "an".toList
    ({} : Settings).convertTree tree = .ok ⟨sql, #[]⟩ ∧
      ∃ formula, read? .postgresql operand sql.toList = some formula ∧
        (Lookup.indexOfFrom 2).Answers "banana".toList "an".toList formula.value := by
  intro tree sql operand
  have converted : ({} : Settings).convertTree tree = .ok ⟨sql, #[]⟩ := by rfl
  have takes : (Lookup.indexOfFrom 2).Takes (.node .literal [.token ⟨.string, "\"an\""⟩])
      [.node .literal [.token ⟨.string, "\"an\""⟩], .node .literal [.token ⟨.int, "2"⟩]] :=
    ⟨.node .literal [.token ⟨.int, "2"⟩], ⟨⟨.int, "2"⟩, rfl, rfl⟩, rfl⟩
  have isCall : tree.core = tree := rfl
  have fits : 2 ≤ "banana".toList.length := by decide
  have object : (({} : Settings).context.fragment (.node .ident [.token ⟨.ident, "x"⟩])).Supplies {}
      (Denotes .postgresql operand "banana".toList) := by
    rw [Context.fragment_eq]
    refine (Fragment.Supplies.text {} "x").imp ?_
    rintro _ rfl
    exact ⟨by decide, by decide, by decide⟩
  have part : (({} : Settings).context.fragment
      (.node .literal [.token ⟨.string, "\"an\""⟩])).Supplies {}
      (Denotes .postgresql operand "an".toList) := by
    rw [Context.fragment_eq]
    refine (Fragment.Supplies.text {} "'an'").imp ?_
    rintro _ rfl
    exact ⟨by decide, by decide, by decide⟩
  -- The arguments that could be found are given, since finding them would evaluate the conversion.
  have answered :=
    @convertTree_lookup {} (.indexOfFrom 2) tree _ _ _ takes isCall operand _ _ fits object part
    ⟨sql, #[]⟩ converted
  exact ⟨converted, answered⟩

end CelWhere
