import CelWhere.Proofs.Path

/-! # Presence in JSON values

The test that a path through a JSON field is present compares the path with null. A path of two
fields asks the JSON field for the other one instead. Which of the two is made is decided by the
field before the last one, by its name alone: a longer path is also written the second way if the
table has a JSON field of that name, wherever the path really goes.

* `Dialect.jsonPresence` — the text of the test that a JSON value has a field;
* `Fragment.Fails` — fragments that fail, if no limit stops them before;
* `Context.prints_presence`, `Context.fails_presence` — what the test of a path writes;
* `Parser.parse?_presence` — how the test of a path is read. -/

namespace CelWhere

variable {fields : List String} {table field : String} {name : Token} {context : Context}
  {tree : Tree}

/-- The text of the test that a JSON value has a field, around a base that writes a text. -/
def Dialect.jsonPresence (dialect : Dialect) (binary : Bool) (field base : String) : String :=
  ((dialect.jsonExists binary field (.text base)).run { dialect } .fresh).session.text

/-- Asking a JSON value for a field and comparing the path through it with null are written
differently. -/
theorem Dialect.jsonPresence_ne (dialect : Dialect) (binary : Bool) (inner parent last : String) :
    dialect.jsonPresence binary last (dialect.jsonAccess inner parent true) ≠
      dialect.jsonAccess (dialect.jsonAccess inner parent false) last true ++ " IS NOT NULL" := by
  intro same
  have sameChars := congrArg String.toList same
  have sameEnd := congrArg (fun text => text.toList.getLast?) same
  cases dialect with
  | mysql | duckdb =>
    simp [jsonPresence, jsonExists, jsonAccess, jsonField, Fragment.append_eq, Fragment.run,
      Outcome.andThen, Session.write, Session.fresh, List.getLast?_cons,
      List.getLast?_append] at sameEnd
  | postgresql | sqlite | bigquery =>
    cases binary <;>
    simp [jsonPresence, jsonExists, jsonAccess, jsonField, Fragment.append_eq, Fragment.run,
      Outcome.andThen, Session.write, Session.fresh] at sameChars

namespace Fragment

variable {settings : Settings} {first second base : Fragment} {text : String} {fault : Fault}

/-- The test that a JSON value has a field is written around what its base writes. -/
theorem Prints.jsonExists (prints : base.Prints settings text) (dialect : Dialect) (binary : Bool)
    (field : String) :
    (dialect.jsonExists binary field base).Prints settings
      (dialect.jsonPresence binary field text) := by
  intro session
  cases dialect <;> cases binary <;>
    simp [Dialect.jsonPresence, Dialect.jsonExists, append_eq, runGuarded, run, Outcome.andThen,
      prints _, Session.write, Session.fresh, String.append_assoc]

/-! ## Fragments that fail -/

/-- A fragment fails with a fault wherever no variable is bound. Limits are left aside. -/
def Fails (settings : Settings) (fragment : Fragment) (fault : Fault) : Prop :=
  ∀ session : Session, session.scope = [] →
    (fragment.runGuarded settings (fun _ => none) session).fault = some fault

/-- Nothing follows a failure. -/
theorem Fails.append (fails : first.Fails settings fault) (second : Fragment) :
    (first ++ second).Fails settings fault := by
  intro session unbound
  show ((first.runGuarded settings _ session).andThen _).fault = _
  rw [Outcome.andThen, fails session unbound]
  exact fails session unbound

/-- A failure can follow a text. -/
theorem Prints.append_fails (prints : first.Prints settings text)
    (fails : second.Fails settings fault) :
    (first ++ second).Fails settings fault := by
  intro session unbound
  show ((first.runGuarded settings _ session).andThen _).fault = _
  rw [prints session]
  exact fails (session.write text) unbound

variable (fails : base.Fails settings fault)

include fails

/-- A failure deeper inside is one. -/
theorem Fails.nested : (Fragment.nested base).Fails settings fault := by
  intro session unbound
  exact fails { session with depth := session.depth + 1 } unbound

/-- A selection fails if its base does. -/
theorem Fails.jsonField (dialect : Dialect) (field : String) (final : Bool) :
    (dialect.jsonField base field final).Fails settings fault := by
  cases dialect with
  | postgresql | duckdb | mysql => exact fails.append _
  | sqlite | bigquery => exact ((prints_text settings _).append_fails fails).append _

/-- The test that a JSON value has a field fails if its base does. -/
theorem Fails.jsonExists (dialect : Dialect) (binary : Bool) (field : String) :
    (dialect.jsonExists binary field base).Fails settings fault := by
  cases dialect with
  | postgresql => cases binary <;> exact fails.append _
  | mysql | sqlite | duckdb | bigquery =>
    exact ((prints_text settings _).append_fails fails).append _

/-- Selections one after the other fail if their base does. -/
theorem Fails.jsonSteps (fields : List String) :
    (Convert.jsonSteps context base fields).Fails settings fault := by
  fun_induction Convert.jsonSteps context base fields with
  | case1 base => exact fails
  | case2 base field => exact fails.jsonField context.dialect field true
  | case3 base field rest _ ih => exact ih (fails.jsonField context.dialect field false)

end Fragment

/-! ## The field before the last one -/

namespace Tree

/-- The call that tests whether a value is present. -/
def presenceCall (value : Tree) : Tree :=
  .node .identArg [.token ⟨.ident, "has"⟩, .node .exprList [value]]

/-- Levels are looked through for a node that is none of them. -/
theorem unwrap?_core {rule : Rule} (noLevel : rule.isLevel = false) (tree : Tree) :
    tree.core.unwrap? rule = tree.unwrap? rule := by
  refine (eq_core (·.unwrap? rule) (fun found child isLevel => if_neg ?_) tree).symm
  rintro rfl
  simp [isLevel] at noLevel

/-- The last selection of a chain is found through its wrappers. -/
theorem unwrap?_of_chain? {root last : String}
    (found : tree.chain? = some (root, fields ++ [last])) :
    ∃ object name, tree.unwrap? .memberDot = some [object, .token name] ∧ name.text = last ∧
      object.chain? = some (root, fields) := by
  generalize isFields : fields ++ [last] = all at found
  induction tree, root, all, found using chain?_induction with
  | name => simp at isFields
  | select field found ih =>
    obtain ⟨rfl, same⟩ := List.append_inj' isFields rfl
    exact ⟨_, field, rfl, by simpa using same.symm, found⟩
  | level isLevel found ih => rcases isLevel with rfl | rfl <;> exact ih isFields

end Tree

/-- A JSON field is one that the schemas have. -/
theorem Catalog.unknownFault?_of_isJson {catalog : Catalog}
    (isJson : catalog.isJson table field = true) :
    catalog.unknownFault? table field = none := by
  unfold Catalog.isJson Catalog.field? at isJson
  unfold unknownFault?
  cases tableFound : catalog.table? table with
  | none => simp [tableFound] at isJson
  | some schema =>
    cases fieldFound : schema.find? field with
    | none => simp [tableFound, fieldFound] at isJson
    | some found => simp [fieldFound]

/-- Settings with a JSON field are valid. -/
theorem Settings.fault?_of_isJson {settings : Settings}
    (isJson : settings.catalog.isJson table field = true) :
    settings.fault? = none := by
  have given : settings.catalog.isEmpty = false := by
    cases known : settings.catalog with
    | nil => simp [known, Catalog.isJson, Catalog.field?, Catalog.table?] at isJson
    | cons entry rest => rfl
  simp [fault?, given]

section

variable {rest : List String} {fault : Fault}

variable {settings : Settings} {value : Tree} {root first parent last : String}
  {middle : List String}

/-- **The field before the last one decides.** A path through a JSON field is tested as a path,
unless the table has a JSON field with the name of the field before the last one. -/
theorem Convert.presenceTest_of_chain? (catalog : Catalog) (given : root ≠ "")
    (found : value.core.chain? = some (root, first :: (middle ++ [parent, last])))
    (isJson : catalog.isJson root first = true) :
    ∃ object name, object.chain? = some (root, first :: (middle ++ [parent])) ∧ name.text = last ∧
      presenceTest catalog value = .ok (
        if catalog.isJson root parent then .jsonField (catalog.isJsonb root parent) last object
        else .jsonPath [object, .token name]) := by
  have whole : first :: (middle ++ [parent, last]) = (first :: (middle ++ [parent])) ++ [last] :=
    by simp
  obtain ⟨object, name, unwrapped, rfl, objectChain⟩ := Tree.unwrap?_of_chain? (whole ▸ found)
  rw [Tree.unwrap?_core rfl] at unwrapped
  have inner : first :: (middle ++ [parent]) = (first :: middle) ++ [parent] := rfl
  obtain ⟨owner, column, objectUnwrapped, rfl, ownerChain⟩ :=
    Tree.unwrap?_of_chain? (inner ▸ objectChain)
  have nested : presenceOfSelection.nested catalog [object, .token name] (some root) =
      .ok (.jsonPath [object, .token name]) := by
    simp [presenceOfSelection.nested, Catalog.isJsonPath, Tree.root?_of_ne_empty objectChain given,
      Tree.firstField_of_chain? objectChain, Except.map, isJson]
  refine ⟨object, name, objectChain, rfl, ?_⟩
  simp only [presenceTest, unwrapped, presenceOfSelection, Tree.root?_of_ne_empty objectChain given,
    objectUnwrapped, Tree.root?_of_ne_empty ownerChain given, Tree.nameText_token, nested]
  split <;> rfl

/-- The test of a value goes on as the field before the last one is. -/
theorem Context.fragment_presenceCall (context : Context) (value : Tree) :
    context.fragment (Tree.presenceCall value) =
      Convert.presence context context.child [value] := by
  rw [Context.fragment_eq]
  rfl

/-- **What the test of a path writes.** -/
theorem Context.prints_presence (valid : columnNameFault? root = none)
    (found : value.core.chain? = some (root, first :: (middle ++ [parent, last])))
    (isJson : settings.catalog.isJson root first = true) :
    let inner := middle.foldl (fun base field => settings.dialect.jsonAccess base field false)
      (root ++ "." ++ first)
    (settings.context.fragment (Tree.presenceCall value)).Prints settings
      (if settings.catalog.isJson root parent then
        settings.dialect.jsonPresence (settings.catalog.isJsonb root parent) last
          (settings.dialect.jsonAccess inner parent true)
      else settings.dialect.jsonAccess (settings.dialect.jsonAccess inner parent false) last true ++
      " IS NOT NULL") := by
  intro inner
  obtain ⟨object, name, objectChain, rfl, tested⟩ :=
    Convert.presenceTest_of_chain? settings.catalog (ne_empty_of_valid valid) found isJson
  have steps (fields : List String) (field : String) (base : Fragment)
      (prints : base.Prints settings (root ++ "." ++ first)) :=
    @Fragment.Prints.jsonSteps settings.context settings base _ prints fields field
  rw [Context.fragment_presenceCall]
  show Fragment.Prints settings (.attempt (Convert.presenceTest settings.catalog value) _) _
  rw [tested]
  split
  · -- The test asks the value of all fields but the last one.
    have objectPrints := Context.prints_jsonChain (.inr (Catalog.unknownFault?_of_isJson isJson))
      objectChain valid isJson
      (steps middle parent)
    exact objectPrints.nested.jsonExists settings.dialect _ name.text
  · have whole : (Tree.node .memberDot [object, .token name]).chain? =
        some (root, first :: ((middle ++ [parent]) ++ [name.text])) := by
      simp [Tree.chain?, objectChain]
    have pathPrints := Context.prints_jsonPath whole valid (steps (middle ++ [parent]) name.text)
    rw [List.foldl_append] at pathPrints
    exact pathPrints.append (Fragment.prints_text settings " IS NOT NULL")

/-- An invalid name fails where it is not bound. -/
theorem Context.fails_name (context : Context) (invalid : columnNameFault? name.text = some fault) :
    (context.fragment (.node .ident [.token name])).Fails settings fault := by
  have converted : context.fragment (.node .ident [.token name]) =
      .unlessBound name.text fault ++ .text name.text := by
    rw [Context.fragment_eq]
    show reference name.text = _
    rw [reference, invalid]
  rw [converted]
  refine Fragment.Fails.append (fun session unbound => ?_) _
  simp [Fragment.runGuarded, Fragment.run, unbound]

/-- A path from an invalid name fails. -/
theorem Context.fails_jsonPath {children : List Tree}
    (found : (Tree.node .memberDot children).chain? = some (root, first :: rest))
    (invalid : columnNameFault? root = some fault) :
    (Convert.jsonPath context context.child children).Fails settings fault := by
  obtain ⟨name, rfl, path⟩ := Tree.fieldPath_of_chain? found
  simp only [Convert.jsonPath, path, Fragment.attempt_ok]
  exact ((context.fails_name invalid).nested.append _).jsonSteps rest

/-- A chain from an invalid name whose first field holds JSON fails. -/
theorem Context.fails_jsonChain (given : root ≠ "")
    (passes : settings.validate = false ∨ settings.catalog.unknownFault? root first = none)
    (found : tree.chain? = some (root, first :: rest))
    (invalid : columnNameFault? root = some fault)
    (isJson : context.catalog.isJson root first = true) :
    (context.fragment tree).Fails settings fault :=
  Context.of_jsonChain (·.Fails settings fault) given found rfl isJson .nested fun whole =>
    (Fragment.prints_known passes).append_fails (Context.fails_jsonPath whole invalid)

/-- The test of a path from an invalid name fails. -/
theorem Context.fails_presence (given : root ≠ "") (invalid : columnNameFault? root = some fault)
    (found : value.core.chain? = some (root, first :: (middle ++ [parent, last])))
    (isJson : settings.catalog.isJson root first = true) :
    (settings.context.fragment (Tree.presenceCall value)).Fails settings fault := by
  obtain ⟨object, name, objectChain, rfl, tested⟩ :=
    Convert.presenceTest_of_chain? settings.catalog given found isJson
  rw [Context.fragment_presenceCall]
  show Fragment.Fails settings (.attempt (Convert.presenceTest settings.catalog value) _) _
  rw [tested]
  split
  · have objectFails : (settings.context.fragment object).Fails settings fault :=
      Context.fails_jsonChain given (.inr (Catalog.unknownFault?_of_isJson isJson)) objectChain
        invalid isJson
    exact objectFails.nested.jsonExists settings.dialect _ name.text
  · have whole : (Tree.node .memberDot [object, .token name]).chain? =
        some (root, first :: (middle ++ [parent] ++ [name.text])) := by
      simp [Tree.chain?, objectChain]
    exact (Context.fails_jsonPath whole invalid).append _

/-- The conversion of a tree that fails fails, if the settings are valid and no limit is passed. -/
theorem Settings.convertTree_of_fails (valid : settings.fault? = none)
    (within : ∀ fault, settings.convertTree tree = .error fault → ¬fault.isLimit)
    (fails : (settings.context.fragment tree).Fails settings fault) :
    settings.convertTree tree = .error fault := by
  refine convertTree_eq_error.mpr (.inr ⟨valid, ?_⟩)
  rw [visit_of_within valid within]
  exact fails .fresh rfl

end

/-! ## Reading the test of a path -/

namespace Parser

open Lexer

/-- A path can stand before a closing parenthesis. -/
theorem endsPath_parenthesis : EndsPath [')'] := by
  refine ⟨fun c isHead => ?_, fun c member => ?_, rfl, fun _ _ => rfl⟩
  · obtain rfl : ')' = c := by simpa using isHead
    rfl
  · obtain rfl := List.mem_singleton.mp member
    rfl

/-- A call with one argument is read. -/
theorem primary_of_call {fuel : Nat} {text inside rest : List Char} {argument : Tree}
    (read : operand? text = some (name, '(' :: inside)) (isName : name.kind = .ident)
    (given : punctuation? ')' inside = none)
    (argumentRead : expression fuel inside = some (argument, ')' :: rest)) :
    primary (fuel + 3) text =
      some (.node .primary [.node .identArg [.token name, .node .exprList [argument]]], rest) := by
  have opens : punctuation? '(' ('(' :: inside) = some inside := by
    rw [punctuation?, skip_of_isOperandStart rfl]
    rfl
  have noComma : punctuation? ',' (')' :: rest) = none := by
    rw [punctuation?, skip_of_isOperandStart rfl]
    rfl
  have closes : punctuation? ')' (')' :: rest) = some rest := by
    rw [punctuation?, skip_of_isOperandStart rfl]
    rfl
  simp only [primary, read, if_pos isName, opens, arguments, given, expressions, argumentRead,
    noComma, closes, Option.map_some]

/-- **The test of a path is read as a call with the path as its argument.** -/
theorem parse?_presence {root : String} (names : ∀ name ∈ root :: fields, IsFieldName name)
    (noNull : root ≠ "null") :
    parse? ("has(" ++ dotted (root :: fields) ++ ")") =
      some (Tree.node .member [.node .primary
        [Tree.presenceCall (Tree.selections root fields).underLevels]]).underLevels := by
  obtain ⟨first, others, spelled, starts⟩ := (names root (by simp)).exists_cons
  have fieldNames : ∀ field ∈ fields, IsFieldName field :=
    fun field isField => names field (by simp [isField])
  let inside := root.toList ++ (dottedChars fields ++ [')'])
  have insideStarts : inside = first :: (others ++ (dottedChars fields ++ [')'])) := by
    simp only [inside, spelled, List.cons_append]
  have given : punctuation? ')' inside = none := by
    rw [insideStarts, punctuation?, skip_of_isOperandStart (isNameStart_other starts).1]
    have other : first ≠ ')' := by
      rintro rfl
      exact absurd starts (by decide)
    exact if_neg other
  -- The name of the test is read up to its parenthesis.
  have callRead : operand? ('h' :: ('a' :: 's' :: '(' :: inside)) =
      some (⟨.ident, "has"⟩, '(' :: inside) := by
    refine @operand?_name ('(' :: inside) "has" (by decide) (by decide) ?_ ?_
    · intro c isHead
      obtain rfl : '(' = c := by simpa using isHead
      rfl
    · intro c member
      rcases List.mem_cons.mp member with rfl | inInside
      · rfl
      · rcases List.mem_append.mp inInside with inRoot | behind
        · exact (names root (by simp)).noQuote c inRoot
        · exact (dottedChars_spec fieldNames endsPath_parenthesis).2.1 c behind
  -- Every field has at least its dot in the text, so there are enough calls.
  have dots : fields.length ≤ inside.length := by
    have each := length_le_dottedChars fields
    simp only [inside, List.length_append]
    omega
  let behind := 'a' :: 's' :: '(' :: inside
  have length : behind.length = inside.length + 3 := rfl
  obtain ⟨fuel, enough⟩ : ∃ fuel, 20 * (behind.length + 1) + 8 =
      fuel + fields.length + 2 + 12 + 3 + 1 :=
    ⟨20 * (behind.length + 1) - 10 - fields.length, by omega⟩
  have pathRead := member_dotted fuel names noNull endsPath_parenthesis
  have argumentRead : expression (fuel + fields.length + 2 + 12) inside =
      some ((Tree.selections root fields).underLevels, [')']) := by
    rw [insideStarts]
    refine expression_of_member (isNameStart_other starts).1 ⟨rfl, rfl⟩ ?_
    rw [← insideStarts]
    exact pathRead
  have read : member (20 * (behind.length + 1) + 8) ('h' :: behind) =
      some (.node .member
        [.node .primary [Tree.presenceCall (Tree.selections root fields).underLevels]], []) := by
    rw [enough, member, primary_of_call callRead rfl given argumentRead]
    rfl
  have text : ("has(" ++ dotted (root :: fields) ++ ")").toList = 'h' :: behind := by
    simp [toList_dotted, behind, inside]
  rw [parse?, text, parseChars?_of_member rfl stops_nil read]
  rfl

end Parser

/-! ## Conversion of the test of a path -/

namespace Settings

/-- What a conversion gives for the test of a path of at least three fields, the first of which
holds JSON. -/
structure WritesPresence (settings : Settings) (root first : String) (middle : List String)
    (parent last : String) (result : Except Failure Condition) : Prop where
  /-- A table whose name is not valid is refused. -/
  refused : ∀ fault, columnNameFault? root = some fault → result = .error (.fault fault)
  /-- The path is compared with null exactly if no JSON field of the table has the name of the field
  before the last. -/
  path : columnNameFault? root = none →
    let inner := middle.foldl (fun base field => settings.dialect.jsonAccess base field false)
      (root ++ "." ++ first)
    let written :=
      settings.dialect.jsonAccess (settings.dialect.jsonAccess inner parent false) last true
    (result = .ok ⟨written ++ " IS NOT NULL", #[]⟩ ↔ settings.catalog.isJson root parent = false)
  /-- Otherwise the value of all fields but the last one, taken as text, is asked for the last
  one. -/
  key : columnNameFault? root = none → settings.catalog.isJson root parent = true →
    let inner := middle.foldl (fun base field => settings.dialect.jsonAccess base field false)
      (root ++ "." ++ first)
    result = .ok ⟨settings.dialect.jsonPresence (settings.catalog.isJsonb root parent) last
      (settings.dialect.jsonAccess inner parent true), #[]⟩

/-- **A field of the table can stand in for a field of the path.** The test that a path of at least
three fields is present, the first of which is a JSON field of the table, compares the path with
null exactly if the table has no JSON field with the name of the field before the last one, whatever
other fields it has. The conversion can also end at a limit. -/
theorem convert_presence (settings : Settings) {root first parent last : String}
    {middle : List String}
    (names : ∀ name ∈ root :: first :: (middle ++ [parent, last]), IsFieldName name)
    (noNull : root ≠ "null") (isJson : settings.catalog.isJson root first = true) :
    let result :=
      settings.convertIn ("has(" ++ dotted (root :: first :: (middle ++ [parent, last])) ++ ")")
    (∃ fault, result = .error (.fault fault) ∧ fault.isLimit) ∨
      settings.WritesPresence root first middle parent last result := by
  intro result
  have read := Parser.parse?_presence names noNull
  let value := (Tree.selections root (first :: (middle ++ [parent, last]))).underLevels
  let tree := (Tree.node .member [.node .primary [Tree.presenceCall value]]).underLevels
  have found : value.core.chain? = some (root, first :: (middle ++ [parent, last])) := by
    show (Tree.selections root _).core.chain? = _
    exact Tree.chain?_core (Tree.chain?_selections root _)
  have converted : result = (settings.convertTree tree).mapError .fault :=
    settings.convertIn_of_parse? read
  have valid := fault?_of_isJson isJson
  by_cases limited : ∃ fault, settings.convertTree tree = .error fault ∧ fault.isLimit
  · obtain ⟨fault, failed, isLimit⟩ := limited
    exact .inl ⟨fault, by rw [converted, failed]; rfl, isLimit⟩
  · right
    have within : ∀ fault, settings.convertTree tree = .error fault → ¬fault.isLimit :=
      fun fault failed isLimit => limited ⟨fault, failed, isLimit⟩
    have writes (isName : columnNameFault? root = none) := congrArg (Except.mapError Failure.fault)
      (convertTree_of_printing valid within
        (Context.of_core (·.Prints settings _) .nested
          (Context.prints_presence isName found isJson)))
    rw [← converted] at writes
    refine ⟨fun fault invalid => ?_, fun isName => ?_, fun isName isField => ?_⟩
    · have given : root ≠ "" := by
        rintro rfl
        exact absurd (names "" (by simp)).starts (by decide)
      rw [converted, convertTree_of_fails valid within
        (Context.of_core (·.Fails settings fault) .nested
        (Context.fails_presence given invalid found isJson))]
      rfl
    · intro inner written
      rw [writes isName]
      cases isField : settings.catalog.isJson root parent with
      | false => exact iff_of_true rfl rfl
      | true =>
        refine iff_of_false (fun same => ?_) (by simp)
        have sameText := congrArg Condition.sql (Except.ok.inj same)
        exact settings.dialect.jsonPresence_ne _ inner parent last sameText
    · rw [writes isName, if_pos isField]
      rfl

/-- A field of the path with the name of a field that does not hold JSON, converted for MySQL with
validation. -/
theorem convert_presence_unrelated :
    let settings : Settings :=
      { dialect := .mysql, validate := true,
        catalog :=
          [("users", ⟨[{ name := "data", isJson := true }, { name := "tags", repeated := true }]⟩)]
          }
    settings.convertIn "has(users.data.tags.name)" =
      .ok ⟨"users.data->'$.tags'->>'$.name' IS NOT NULL", #[]⟩ := by
  intro settings
  have outcome :=
    @convert_presence settings "users" "data" "tags" "name" [] (by decide +kernel) (by decide) rfl
  have text : "has(" ++ dotted ["users", "data", "tags", "name"] ++ ")" =
      "has(users.data.tags.name)" := by decide +kernel
  dsimp only [List.nil_append] at outcome
  rw [text] at outcome
  rcases outcome with ⟨fault, failed, -⟩ | writes
  · have succeeds : (settings.convertIn "has(users.data.tags.name)").toOption.isSome :=
      by decide +kernel
    rw [failed] at succeeds
    simp [Except.toOption] at succeeds
  · exact (writes.path (by decide +kernel)).mpr rfl

/-- **The key of a path is taken for a field of the table**: the same path is tested in two ways, as
the table has another field of the name or not, and in the second way its value is taken as text. -/
theorem presence_taken_for_field :
    let data : Field := { name := "data", isJsonb := true }
    let tags : Field := { name := "tags", isJsonb := true }
    ({ catalog := [("users", ⟨[data]⟩)] } : Settings).convert "has(users.data.tags.name)" =
        .ok "users.data->'tags'->>'name' IS NOT NULL" ∧
      ({ catalog := [("users", ⟨[data, tags]⟩)] } : Settings).convert "has(users.data.tags.name)" =
        .ok "users.data->>'tags' ? 'name'" ∧
      ({ catalog := [("users", ⟨[data]⟩)] } : Settings).convert "has(users.data.data.name)" =
        .ok "users.data->>'data' ? 'name'" := by
  decide +kernel

end Settings

end CelWhere
