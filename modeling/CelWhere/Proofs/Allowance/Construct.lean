import CelWhere.Convert.Locality.Basic
import CelWhere.Proofs.Allowance.Question
import CelWhere.Proofs.Arrangement
import CelWhere.Proofs.Nesting.Call

/-! # What conversions are made of

Every construct of the conversion has the leaves of its parts, the leaves of the literals in it, and
faults of its own. For trees that an allowance covers, all of them are allowed.

* `Convert.Keeps` — a way to convert trees gives allowed fragments for the trees of a property;
* `Convert.step_each` — one step of the conversion keeps that;
* `Convert.CoversNesting` — properties that are covered also inside comprehensions;
* `Context.each_of_covers` — so the fragment of a covered tree is allowed. -/

namespace CelWhere

namespace Convert

open Fragment

/-- A way to convert trees gives allowed fragments for the trees of a property. -/
def Keeps (property : Tree → Prop) (allowance : Allowance) (child : Tree → Fragment) : Prop :=
  ∀ tree, property tree → (child tree).Each allowance

section

variable {rule : Rule} {cause : Fault} (name : String)

variable {context : Context} {child : Tree → Fragment} {allowance : Allowance}
  {property : Tree → Prop} {object : Tree} {children arguments : List Tree}

variable (covers : allowance.Covers context.dialect property) (each : (child object).Each allowance)
  (keeps : Keeps property allowance child) (all : ∀ tree ∈ children, property tree)
  (given : ∀ tree ∈ arguments, property tree)

/-! ## Operators -/

theorem arrangement_each {arrangement : Arrangement} (dialect : Dialect)
    (each : ∀ operand ∈ arrangement.operands, (child operand).Each allowance) :
    (arrangement.fragment dialect child).Each allowance := by
  cases arrangement with
  | pair pairing left right =>
    have leftEach := each left (by simp [Arrangement.operands])
    have rightEach := each right (by simp [Arrangement.operands])
    cases pairing <;> simp [Arrangement.fragment, Pairing.fragment, leftEach, rightEach]
  | _ => simp_all [Arrangement.fragment, Arrangement.operands]

section

variable {operator : Rule} {right : Tree}

include covers

theorem pairing_allowed {left : Tree} (leftHolds : property left) (rightHolds : property right)
    (failed : Arrangement.pairing context.catalog rule operator left right = .error cause) :
    allowance.fault cause := by
  unfold Arrangement.pairing at failed
  split at failed
  case h_2 =>
    rcases error_of_bind failed with failed | ⟨isTemporal, failed⟩
    · exact covers.eitherTemporal leftHolds rightHolds failed
    · split at failed
      · exact covers.durationFirst leftHolds rightHolds (error_of_map failed)
      · cases failed
  case h_3 => exact covers.eitherTemporal leftHolds rightHolds (error_of_map failed)
  case h_7 =>
    split at failed
    · unfold Arrangement.ofSign at failed
      rcases error_of_bind failed with failed | ⟨isJson, failed⟩
      · exact covers.isJsonText leftHolds failed
      · split at failed
        · cases failed
        · exact covers.isJsonText rightHolds (error_of_map failed)
    · cases failed
      exact allowance.refused rfl
  all_goals cases failed

/-- A binary rule whose operator has no operand is outside the grammar. -/
theorem operand_missing (binary : rule.operators ≠ [])
    (whole : property (.node rule [.node operator [], right])) :
    allowance.fault .missingChild := by
  rcases covers.shaped whole with produced | ⟨missing, -⟩
  · refine covers.missing (covers.hereditary _ _ whole _ (.head _)) fun none => ?_
    rcases produced.sides binary with alone | ⟨found, isOperator, same⟩
    · cases alone
    · obtain ⟨rfl, -⟩ : operator = found ∧ _ := by simpa using same
      cases none.left isOperator
  · exact missing

theorem arrangement_allowed (isArranged : rule.isArranged) (whole : property (.node rule children))
    (failed : Arrangement.of context.catalog rule children = .error cause) :
    allowance.fault cause := by
  have all := covers.hereditary _ _ whole
  unfold Arrangement.of at failed
  split at failed
  case h_4 | h_5 | h_6 =>
    unfold Arrangement.ofSides at failed
    split at failed
    · cases failed
    next operator left below right =>
      unfold Arrangement.ofOperator at failed
      split at failed
      · cases failed
      · exact pairing_allowed covers (covers.hereditary.below all left (.head _))
          (all right (by simp))
          (error_of_map failed)
    · cases failed
      exact operand_missing covers (by decide) whole
    · cases failed
      exact allowance.refused rfl
    · cases failed
      exact allowance.refused rfl
  case h_1 | h_2 | h_3 | h_7 =>
    simp only [Arrangement.ofChoice, Arrangement.ofLogical, Arrangement.ofUnary] at failed
    split at failed <;> cases failed
    exact allowance.refused rfl
  case h_8 | h_9 =>
    split at failed
    · cases failed
    · cases failed
      exact allowance.refused rfl
  · split at failed
    · cases failed
    · cases failed
      refine covers.missing whole fun produced => ?_
      cases rule <;> simp_all [Rule.isArranged, Rule.isLevel, Rule.Produces]

end

/-! ## Selections, lists and maps -/

theorem jsonSteps_each {base : Fragment} (fields : List String) (each : base.Each allowance) :
    (jsonSteps context base fields).Each allowance := by
  induction fields generalizing base with
  | nil => exact each
  | cons field rest ih =>
    cases rest with
    | nil => simp [jsonSteps, each]
    | cons next more => exact ih (by simp [each])

theorem fieldName_each : (fieldName name).Each allowance := by
  unfold fieldName
  split
  next cause found => exact each_refused (NameRules.refused_of_fault? found)
  · simp

theorem reference_each : (reference name).Each allowance := by
  unfold reference
  split
  next cause found => simpa using allowance.refused (NameRules.refused_of_fault? found)
  · simp

section

include covers keeps

theorem jsonPath_each (whole : property (.node .memberDot children)) :
    (jsonPath context child children).Each allowance := by
  refine each_attempt (covers.fieldPath whole) fun (root, fields) found => ?_
  -- Of the chain only its root is converted; the fields are written as text.
  have rootEach := keeps root (covers.hereditary.fieldPath whole found)
  cases fields with
  | nil => exact rootEach
  | cons column rest => exact jsonSteps_each rest (by simp [rootEach])

theorem selection_each (whole : property (.node .memberDot children)) :
    (selection context child children).Each allowance := by
  unfold selection
  split
  next object field rest =>
    have objectHolds := covers.hereditary _ _ whole object (.head _)
    have plainEach : (child object ++ "." ++ fieldName field.nameText).Each allowance := by
      simp [keeps object objectHolds, fieldName_each]
    refine each_attempt (covers.root? objectHolds) fun root _ => ?_
    split
    · exact plainEach
    · refine each_attempt (covers.firstField objectHolds) fun first _ => ?_
      split
      · simp [jsonPath_each covers keeps whole]
      · exact (each_append _ _).mpr ⟨each_known _ _, plainEach⟩
  next notTwo =>
    refine (each_fail _).mpr (covers.missing whole fun produced => ?_)
    obtain ⟨object, field, rfl, -, -⟩ := Tree.map_label_two.mp produced
    exact notTwo object field [] rfl

theorem indexing_each (whole : property (.node .memberIndex children)) :
    (indexing context child children).Each allowance := by
  have all := covers.hereditary _ _ whole
  unfold indexing
  split
  next object index rest =>
    have objectEach := keeps object (all object (.head _))
    have indexHolds := all index (by simp)
    split
    · split
      next cause found => exact each_refused (NameRules.refused_of_fault? found)
      · simp [objectEach]
    next token _ found =>
      -- A literal index is written as a number, not as a literal slot.
      obtain ⟨holds, isInt⟩ := covers.hereditary.intLiteral? indexHolds found
      refine each_attempt (covers.position holds isInt) fun value read => ?_
      unfold fixedElement
      split
      · exact each_refused rfl
      · split
        · exact each_refused rfl
        · exact Dialect.elementAt_each _ objectEach (covers.near holds isInt read (by omega))
            (covers.near holds isInt read (by omega))
    · simp [objectEach, keeps index indexHolds]
  next notTwo =>
    refine (each_fail _).mpr (covers.missing whole fun produced => ?_)
    obtain ⟨object, index, rfl, -, -⟩ := Tree.map_label_two.mp produced
    exact notTwo object index [] rfl

end

/-- Labels in pairs are even in number. -/
theorem even_of_alternate {first second : Label} {labels : List Label}
    (alternate : Label.Alternate first second labels) :
    labels.length % 2 = 0 := by
  fun_induction Label.Alternate first second labels with
  | case1 => rfl
  | case2 => exact alternate.elim
  | case3 one two rest ih =>
    have even := ih alternate.2.2
    simp only [List.length_cons]
    omega

section

include covers

/-- The entries of a map or an object come in pairs. -/
theorem entries_paired (entries : rule = .mapInits ∨ rule = .fieldInits)
    (whole : property (.node rule children)) :
    children.length % 2 = 0 ∨ allowance.fault .missingChild := by
  refine (covers.shaped whole).imp (fun produced => ?_) And.left
  rw [← children.length_map Tree.label]
  rcases entries with rfl | rfl
  · exact even_of_alternate produced.2
  · exact even_of_alternate produced.2

end

section

include keeps all

theorem expressions_each : (expressions child children).Each allowance := by
  refine each_join fun fragment member => ?_
  obtain ⟨tree, inside, rfl⟩ := List.mem_map.mp member
  exact keeps tree (all tree inside)

theorem entryValues_each (paired : children.length % 2 = 0 ∨ allowance.fault .missingChild) :
    (entryValues child children).Each allowance := by
  fun_induction entryValues child children with
  | case1 => simp
  | case2 => simpa using paired
  | case3 key value => exact keeps value (all value (by simp))
  | case4 key value rest _ ih =>
    simp only [each_append, each_text, and_true]
    refine ⟨keeps value (all value (by simp)),
      ih (fun tree member => all tree (by simp [member])) ?_⟩
    refine paired.imp_left fun even => ?_
    simp only [List.length_cons] at even
    omega

theorem parenthesised_each (none : children = [] → allowance.fault .missingChild) :
    (parenthesised child children).Each allowance := by
  unfold parenthesised
  split
  · simp [keeps _ (all _ _)]
  · simpa using none rfl

theorem listOf_each (hereditary : Tree.Hereditary property) :
    (listOf context child children).Each allowance := by
  unfold listOf
  split
  · simp [expressions_each keeps (hereditary.below all)]
  · simp

include covers in
theorem mapOf_each : (mapOf context child children).Each allowance := by
  unfold mapOf
  split
  next entries rest =>
    have paired := entries_paired covers (.inl rfl) (all _ (.head _))
    simp [entryValues_each keeps (covers.hereditary.below all) paired]
  · simp

end

/-! ## Methods -/

theorem withoutNull_each (usage text : String) {next : Fragment} (each : next.Each allowance) :
    (withoutNull usage text next).Each allowance := by
  unfold withoutNull
  split
  next cause found => exact each_refused (refused_of_nullByteFault? found)
  · exact each

theorem affixTest_each {method : String} {test : Fragment → String → Fragment}
    (allows : ∀ text, (test (child object) text).Each allowance) :
    (affixTest child method test object arguments).Each allowance := by
  unfold affixTest
  split
  · split
    · exact withoutNull_each _ _ (allows _)
    · exact each_refused rfl
  · exact each_refused rfl

section

variable (iterator : String)

include each

theorem rowsAs_each : (rowsAs context child object iterator).Each allowance := by
  simp [rowsAs, each]

theorem collect_each {value : Fragment} (valueEach : value.Each allowance) :
    (collect context child value object iterator).Each allowance := by
  simp [collect, rowsAs_each, each, valueEach]

theorem matchTest_each (token : Token) : (matchTest context child object token).Each allowance := by
  refine each_attempt (fun failed => allowance.refused (Dialect.refused_of_convertRegex failed))
    fun found _ => ?_
  simp [each]

theorem matchesMethod_each : (matchesMethod context child object arguments).Each allowance := by
  unfold matchesMethod
  split
  · split
    · exact matchTest_each each _
    · exact each_refused rfl
  · exact each_refused rfl

theorem splitUpTo_each {delimiter : Tree} {limit : Int}
    (delimiterEach : (child delimiter).Each allowance)
    (written : Integer.tooLongToWrite limit → allowance.fault .unwritableInteger) :
    (splitUpTo context child object delimiter limit).Each allowance := by
  unfold splitUpTo
  split
  · simp [each, delimiterEach]
  · split
    · simp
    · split
      · simp [each]
      · split
        · exact each_refused rfl
        · exact Dialect.splitLimited_each _ each delimiterEach written

end

section

include covers keeps

theorem sizeOfValue_each (holds : property object) :
    (sizeOfValue context child object).Each allowance := by
  refine each_attempt (covers.isArrayValue holds) fun isArray _ => ?_
  split <;> simp [keeps object holds]

theorem positionFromOne_each {index : Tree} (holds : property index) :
    (positionFromOne child index).Each allowance := by
  unfold positionFromOne
  split
  next token found =>
    obtain ⟨tokenHolds, isInt⟩ := covers.hereditary.intLiteral? holds found
    refine each_attempt (covers.position tokenHolds isInt) fun value read => ?_
    exact (each_number _ _ _).mpr (covers.near tokenHolds isInt read (by omega))
  · simp [keeps index holds]

theorem substringRange_each {start finish : Tree} (startHolds : property start)
    (finishHolds : property finish) :
    (substringRange child start finish).Each allowance := by
  unfold substringRange
  split
  next startToken startFound =>
    obtain ⟨startLeaf, startInt⟩ := covers.hereditary.intLiteral? startHolds startFound
    refine each_attempt (covers.position startLeaf startInt) fun first firstRead => ?_
    have firstNear := fun (number : Int) (next : number.natAbs ≤ first.natAbs + 1) =>
      covers.near startLeaf startInt firstRead next
    simp only [each_append, each_text, each_number, and_true]
    refine ⟨firstNear (first + 1) (by omega), ?_⟩
    split
    next finishToken finishFound =>
      obtain ⟨finishLeaf, finishInt⟩ := covers.hereditary.intLiteral? finishHolds finishFound
      refine each_attempt (covers.position finishLeaf finishInt) fun last lastRead => ?_
      exact (each_number _ _ _).mpr
        (covers.distance startLeaf startInt firstRead finishLeaf finishInt lastRead)
    · exact (each_append _ _).mpr ⟨keeps finish finishHolds,
        (each_number _ _ _).mpr (firstNear first (by omega))⟩
  · simp [keeps start startHolds, keeps finish finishHolds]

end

section

include each keeps given

theorem containsTest_each : (containsTest context child object arguments).Each allowance := by
  unfold containsTest
  split
  next part =>
    have test : (context.dialect.contains (child object) (child part)).Each allowance := by
      simp [each, keeps _ (given _ _)]
    split
    · exact withoutNull_each _ _ test
    · exact test
  · exact each_refused rfl

theorem lastIndexOfCall_each : (lastIndexOfCall child object arguments).Each allowance := by
  unfold lastIndexOfCall
  split
  · simp [each, keeps _ (given _ _)]
  · exact each_refused rfl

theorem joinCall_each : (joinCall context child object arguments).Each allowance := by
  unfold joinCall
  split
  · simp [each]
  · simp [each, keeps _ (given _ _)]
  · exact each_refused rfl

theorem timestampPart_each (part : String) (fromZero : Bool) :
    (timestampPart context child object part fromZero arguments).Each allowance := by
  -- The first argument, if there is one, is the time zone.
  have zoned : ∀ fragment ∈ arguments.head?.map child, fragment.Each allowance := by
    intro fragment found
    obtain ⟨zone, first, rfl⟩ := Option.map_eq_some_iff.mp found
    exact keeps zone (given zone (List.mem_of_mem_head? first))
  have value := Dialect.extract_each context.dialect part each zoned
  unfold timestampPart
  split <;> simp [value]

end

section

include covers each keeps given

theorem quantified_each {method opening middle closing : String} :
    (quantified context child method opening middle closing object arguments).Each allowance := by
  unfold quantified
  split
  · refine each_attempt (covers.identName (given _ (.head _))) fun iterator _ => ?_
    simp [rowsAs_each, each, keeps _ (given _ _)]
  · exact each_refused rfl

theorem mapped_each : (mapped context child object arguments).Each allowance := by
  unfold mapped
  split
  · refine each_attempt (covers.identName (given _ (.head _))) fun iterator _ => ?_
    simp [collect_each, each, keeps _ (given _ _)]
  · refine each_attempt (covers.identName (given _ (.head _))) fun iterator _ => ?_
    simp [collect_each, each, keeps _ (given _ _)]
  · exact each_refused rfl

theorem filtered_each : (filtered context child object arguments).Each allowance := by
  unfold filtered
  split
  · refine each_attempt (covers.identName (given _ (.head _))) fun iterator _ => ?_
    simp [collect_each, each, keeps _ (given _ _)]
  · exact each_refused rfl

theorem charAt_each : (charAt child object arguments).Each allowance := by
  unfold charAt
  split
  · simp [each, positionFromOne_each covers keeps (given _ _)]
  · exact each_refused rfl

theorem indexOfCall_each : (indexOfCall child object arguments).Each allowance := by
  unfold indexOfCall
  split
  · simp [each, keeps _ (given _ _)]
  next part offset =>
    have partEach := keeps part (given part (.head _))
    have offsetHolds := given offset (by simp)
    split
    next token found =>
      obtain ⟨holds, isInt⟩ := covers.hereditary.intLiteral? offsetHolds found
      refine each_attempt (covers.position holds isInt) fun value read => ?_
      exact indexOfFrom_each each partEach (covers.near holds isInt read (by omega))
        (covers.near holds isInt read (by omega))
    · simp [each, partEach, keeps offset offsetHolds]
  · exact each_refused rfl

theorem substring_each : (substring child object arguments).Each allowance := by
  unfold substring
  split
  · simp [each, positionFromOne_each covers keeps (given _ _)]
  · simp [each, substringRange_each covers keeps (given _ _) (given _ _)]
  · exact each_refused rfl

theorem replacement_each : (replacement child object arguments).Each allowance := by
  unfold replacement
  split
  · simp [replaced, each, keeps _ (given _ _)]
  next part substitute limit =>
    split
    next token found =>
      obtain ⟨holds, isInt⟩ := covers.hereditary.intLiteral? (given limit (by simp)) found
      refine each_attempt (covers.position holds isInt) fun value _ => ?_
      split
      · simp [replaced, each, keeps _ (given _ _)]
      · exact each_refused rfl
    · simp [replaced, each, keeps _ (given _ _)]
  · exact each_refused rfl

theorem splitCall_each : (splitCall context child object arguments).Each allowance := by
  unfold splitCall
  split
  · simp [each, keeps _ (given _ _)]
  next delimiter limit =>
    split
    next token found =>
      obtain ⟨holds, isInt⟩ := covers.hereditary.intLiteral? (given limit (by simp)) found
      refine each_attempt (covers.position holds isInt) fun value read => ?_
      exact splitUpTo_each each (keeps delimiter (given delimiter (.head _)))
        (covers.near holds isInt read (by omega))
    · exact each_refused rfl
  · exact each_refused rfl

end

section

include keeps given

theorem formatArguments_each : (formatArguments child arguments).Each allowance := by
  induction arguments with
  | nil => simp [formatArguments]
  | cons argument rest ih =>
    simp only [formatArguments, each_append, each_text, true_and]
    exact ⟨keeps argument (given argument (.head _)),
      ih fun tree member => given tree (.tail _ member)⟩

theorem formatCall_each (hereditary : Tree.Hereditary property) :
    (formatCall context child object arguments).Each allowance := by
  unfold formatCall
  split
  next list =>
    split
    next token _ =>
      dsimp only
      cases unsupportedSpecifier? token.stringValue.toList with
      | some specifier => exact each_refused rfl
      | none =>
        simp only [each_append, each_text, true_and, and_true]
        -- The values are those of the list, which may stand under nodes with a single child.
        split
        next items rest found =>
          have listed := hereditary.unwrap (given list (.head _)) found
          exact formatArguments_each keeps (hereditary.below (hereditary _ _ listed))
        · simp
    · exact each_refused rfl
  · exact each_refused rfl

theorem timestamp_each : (timestamp context child arguments).Each allowance := by
  unfold timestamp
  split
  · simp [keeps _ (given _ _)]
  · simp [keeps _ (given _ _)]
  · exact each_refused rfl

end

/-- What is allowed inside a comprehension covers its receiver and its arguments. -/
def KeepsInside (dialect : Dialect) (allowance : Allowance) (child : Tree → Fragment)
    (operands : List Tree) : Prop :=
  allowance.room ≠ some 0 ∧ ∃ inside : Tree → Prop, allowance.inner.Covers dialect inside ∧
    Keeps inside allowance.inner child ∧ ∀ tree ∈ operands, inside tree

/-- The arguments of a call are missing only if a token stands in their place. -/
theorem argumentsOf_error {behind : List Tree} (failed : argumentsOf behind = .error cause) :
    cause = .missingArguments ∧ ∃ token rest, behind = .token token :: rest := by
  unfold argumentsOf at failed
  split at failed
  · simp at failed
  · simp at failed
  next token rest => exact ⟨(Except.error.inj failed).symm, token, rest, rfl⟩

section

include covers keeps given

theorem callMethod_each (method : String) (holds : property object)
    (keepsInside : method ∈ Index.comprehensionMethods → KeepsInside context.dialect allowance child
      (object :: arguments)) :
    (callMethod context child object method arguments).Each allowance := by
  have each := keeps object holds
  have inside (isComprehension : method ∈ Index.comprehensionMethods) {body : Fragment}
      (bodyEach : ∀ inside : Tree → Prop, allowance.inner.Covers context.dialect inside →
        (child object).Each allowance.inner → Keeps inside allowance.inner child →
        (∀ tree ∈ arguments, inside tree) → body.Each allowance.inner) :
      (Fragment.comprehension body).Each allowance := by
    obtain ⟨room, inside, innerCovers, innerKeeps, innerAll⟩ := keepsInside isComprehension
    refine (each_comprehension _).mpr
      ⟨room, bodyEach inside innerCovers ?_ innerKeeps fun tree member => ?_⟩
    · exact innerKeeps object (innerAll object (.head _))
    · exact innerAll tree (.tail _ member)
  unfold callMethod
  split
  iterate 3 exact inside (by decide) fun _ covers each keeps given =>
    quantified_each covers each keeps given
  · exact inside (by decide) fun _ => mapped_each
  · exact inside (by decide) fun _ => filtered_each
  · exact containsTest_each each keeps given
  · exact affixTest_each fun _ => by simp [each]
  · exact affixTest_each fun _ => by simp [each]
  · exact matchesMethod_each each
  · exact sizeOfValue_each covers keeps holds
  · exact applied_each each _
  · exact applied_each each _
  · exact applied_each each _
  · exact charAt_each covers each keeps given
  · exact indexOfCall_each covers each keeps given
  · exact lastIndexOfCall_each each keeps given
  · exact substring_each covers each keeps given
  · exact replacement_each covers each keeps given
  · exact applied_each each _
  · exact splitCall_each covers each keeps given
  · exact joinCall_each each keeps given
  · exact formatCall_each keeps given covers.hereditary
  · split
    · exact timestampPart_each each keeps given _ _
    · exact each_refused rfl

end

section

include covers keeps

theorem methodCall_each (whole : property (.node .memberDotArg children))
    (keepsInside : (Tree.node .memberDotArg children).comprehended ≠ [] →
      KeepsInside context.dialect allowance child (Tree.node .memberDotArg children).comprehended) :
    (methodCall context child children).Each allowance := by
  have all := covers.hereditary _ _ whole
  unfold methodCall
  split
  next object method rest =>
    refine each_attempt (fun failed => ?_) fun arguments found => ?_
    · obtain ⟨rfl, token, more, rfl⟩ := argumentsOf_error failed
      exact covers.missingArguments whole (by simp [Rule.Produces])
    · refine callMethod_each covers keeps
        (covers.hereditary.argumentsOf (fun tree member => all tree (by simp [member])) found) _
        (all object (.head _))
        fun isComprehension => ?_
      have operands : (Tree.node .memberDotArg (object :: method :: rest)).comprehended =
          object :: arguments := by
        simp [Tree.comprehended, isComprehension, found, Except.toOption]
      exact operands ▸ keepsInside (by simp [operands])
  next notTwo =>
    refine (each_fail _).mpr (covers.missing whole fun produced => ?_)
    rcases produced with alone | behind
    · obtain ⟨object, method, rfl, -, -⟩ := Tree.map_label_two.mp alone
      exact notTwo object method [] rfl
    · obtain ⟨object, method, list, rfl, -, -, -⟩ := Tree.map_label_three.mp behind
      exact notTwo object method [list] rfl

end

/-! ## Functions -/

section

include covers given

theorem durationCall_each : (durationCall context arguments).Each allowance := by
  unfold durationCall
  split
  next value =>
    split
    next token found =>
      obtain ⟨holds, isString⟩ := covers.hereditary.stringLiteral? (given value (.head _)) found
      exact covers.duration holds isString
    · exact each_refused rfl
  · exact each_refused rfl

end

section

include covers keeps given

theorem presence_each : (presence context child arguments).Each allowance := by
  unfold presence
  split
  next value =>
    have valueHolds : property value := given value (.head _)
    refine each_attempt (covers.presenceTest valueHolds) fun test found => ?_
    rcases presenceTest_cases found with rfl | ⟨object, field, rest, unwrapped, tested⟩
    · simp [keeps value valueHolds]
    · -- What is tested is the path of the selection or the object below it.
      have selected := covers.hereditary.unwrap valueHolds unwrapped
      rcases tested with rfl | ⟨binary, rfl⟩
      · simp [jsonPath_each covers keeps selected]
      · simp [keeps object (covers.hereditary _ _ selected object (.head _))]
  · exact each_refused rfl

theorem typeCast_each (type : String) : (typeCast context child type arguments).Each allowance := by
  unfold typeCast
  split
  next value =>
    have valueHolds : property value := given value (.head _)
    have valueEach := keeps value valueHolds
    split
    · refine each_attempt (covers.root? valueHolds) fun root _ => ?_
      split <;> simp [valueEach]
    · simp [valueEach]
  · exact each_refused rfl

theorem intervalCall_each : (intervalCall context child arguments).Each allowance := by
  unfold intervalCall
  split
  next value unit =>
    refine each_attempt (covers.intervalUnit (given unit (by simp))) fun unit _ => ?_
    simp [keeps _ (given _ _)]
  · exact each_refused rfl

theorem callFunction_each (function : String) :
    (callFunction context child function arguments).Each allowance := by
  unfold callFunction
  split
  · exact presence_each covers keeps given
  · exact sizeOfValue_each covers keeps (given _ (.head _))
  · simp
  · split
    · exact matchTest_each (keeps _ (given _ (.head _))) _
    · exact each_refused rfl
  · exact typeCast_each covers keeps given _
  · exact typeCast_each covers keeps given _
  · exact typeCast_each covers keeps given _
  · exact typeCast_each covers keeps given _
  · exact typeCast_each covers keeps given _
  · exact typeCast_each covers keeps given _
  · exact timestamp_each keeps given
  · exact durationCall_each covers given
  · exact intervalCall_each covers keeps given
  · simp [plainCall, expressions_each keeps given]

end

section

include covers keeps

theorem functionCall_each (whole : property (.node .identArg children)) :
    (functionCall context child children).Each allowance := by
  have all := covers.hereditary _ _ whole
  unfold functionCall
  split
  next function rest =>
    refine each_attempt (fun failed => ?_) fun arguments found => ?_
    · obtain ⟨rfl, token, more, rfl⟩ := argumentsOf_error failed
      exact covers.missingArguments whole (by simp [Rule.Produces])
    · exact callFunction_each covers keeps
        (covers.hereditary.argumentsOf (fun tree member => all tree (.tail _ member)) found) _
  · exact (each_fail _).mpr (covers.missing whole (by simp [Rule.Produces]))

theorem dottedCall_each (whole : property (.node .dotIdentArg children)) :
    (dottedCall child children).Each allowance := by
  have all := covers.hereditary _ _ whole
  unfold dottedCall
  split
  next function rest =>
    have given : (attempt (argumentsOf rest) (expressions child)).Each allowance := by
      refine each_attempt (fun failed => ?_) fun arguments found => ?_
      · obtain ⟨rfl, token, more, rfl⟩ := argumentsOf_error failed
        exact covers.missingArguments whole (by simp [Rule.Produces])
      · exact expressions_each keeps
          (covers.hereditary.argumentsOf (fun tree member => all tree (.tail _ member)) found)
    simp [given]
  · exact (each_fail _).mpr (covers.missing whole (by simp [Rule.Produces]))

end

/-! ## Trees -/

section

include keeps all

theorem nodesOnly_each : (nodesOnly child children).Each allowance := by
  induction children with
  | nil => simp [nodesOnly]
  | cons tree rest ih =>
    have restEach := ih fun other member => all other (.tail _ member)
    cases tree with
    | token leaf => exact restEach
    | node rule below => exact (each_append _ _).mpr ⟨keeps _ (all _ (.head _)), restEach⟩

end

/-- One step of the conversion of a covered tree is allowed if the trees below are converted to
allowed fragments. -/
theorem step_each (covers : allowance.Covers context.dialect property) (tree : Tree)
    {visit : Tree → Fragment} (keeps : Keeps property allowance visit) (whole : property tree)
    (keepsInside : tree.comprehended ≠ [] → KeepsInside context.dialect allowance
      (fun below => .nested (visit below)) tree.comprehended) :
    (step context visit tree).Each allowance := by
  cases tree with
  | token leaf => exact each_text leaf.text
  | node rule children =>
    have all : ∀ child ∈ children, property child := covers.hereditary rule children whole
    have nested : Keeps property allowance fun below => .nested (visit below) := fun below holds =>
      (each_nested _).mpr (keeps below holds)
    by_cases isArranged : rule.isArranged
    · rw [step_arranged isArranged]
      refine each_attempt (arrangement_allowed covers isArranged whole) fun arrangement found =>
        arrangement_each context.dialect fun operand member => nested operand ?_
      exact covers.hereditary.of_mem_parts whole (.tail _ (Arrangement.mem_partsOf found member))
    cases rule with
    | unaryNot | unaryNeg => exact each_empty
    | memberDot => exact selection_each covers nested whole
    | memberDotArg => exact methodCall_each covers nested whole keepsInside
    | memberIndex => exact indexing_each covers nested whole
    | memberObject => exact each_refused rfl
    | dotIdentArg => exact dottedCall_each covers nested whole
    | dotIdent =>
      cases children with
      | nil => exact (each_fail _).mpr (covers.missing whole (by simp [Rule.Produces]))
      | cons child rest => exact each_text _
    | identArg => exact functionCall_each covers nested whole
    | ident =>
      cases children with
      | nil => exact (each_fail _).mpr (covers.missing whole (by simp [Rule.Produces]))
      | cons child rest => exact reference_each _
    | parenExpr =>
      refine parenthesised_each nested all ?_
      rintro rfl
      exact covers.missing whole (by simp [Rule.Produces])
    | listLit => exact listOf_each nested all covers.hereditary
    | mapLit => exact mapOf_each covers nested all
    | exprList => exact expressions_each nested all
    | fieldInits => exact entryValues_each nested all (entries_paired covers (.inr rfl) whole)
    | mapInits => exact entryValues_each nested all (entries_paired covers (.inl rfl) whole)
    | literal =>
      cases children with
      | nil => exact (each_fail _).mpr (covers.missing whole (by simp [Rule.Produces]))
      | cons child rest =>
        cases child with
        | token token => exact covers.literal (all _ (.head _))
        | node => exact each_refused rfl
    | other => exact nodesOnly_each keeps all
    | _ => exact absurd rfl isArranged

end

/-- Properties of trees that allowances cover, with room for the comprehensions of the trees: what
is allowed inside a comprehension covers its receiver and its arguments. -/
structure CoversNesting (dialect : Dialect) (covered : Allowance → (Tree → Prop) → Prop) :
    Prop where
  /-- The allowance covers the property. -/
  covers {allowance : Allowance} {property : Tree → Prop} : covered allowance property →
    allowance.Covers dialect property
  /-- There is room for a comprehension, and what is inside it is covered in turn. -/
  inside {allowance : Allowance} {property : Tree → Prop} {tree : Tree} :
    covered allowance property → property tree →
    tree.comprehended ≠ [] → allowance.room ≠ some 0 ∧ ∃ inside, covered allowance.inner inside ∧
      ∀ operand ∈ tree.comprehended, inside operand

/-- However many steps are made, covered trees are converted to allowed fragments. -/
theorem steps_each {context : Context} {covered : Allowance → (Tree → Prop) → Prop}
    (nesting : CoversNesting context.dialect covered) (fuel : Nat) {allowance : Allowance}
    {property : Tree → Prop} (isCovered : covered allowance property) :
    Keeps property allowance (steps context fuel) := by
  induction fuel generalizing allowance property with
  | zero => exact fun _ _ => each_empty
  | succ fuel ih =>
    intro tree whole
    refine step_each (nesting.covers isCovered) tree (ih isCovered) whole fun calls => ?_
    obtain ⟨room, inside, isInside, operands⟩ := nesting.inside isCovered whole calls
    exact ⟨room, inside, nesting.covers isInside,
      fun below holds => (each_nested _).mpr (ih isInside below holds), operands⟩

end Convert

/-- The fragment of a covered tree is allowed, if any number of comprehensions may stand inside each
other. -/
theorem Context.each_of_covers {context : Context} {allowance : Fragment.Allowance}
    {property : Tree → Prop} (covers : allowance.Covers context.dialect property) {tree : Tree}
    (holds : property tree) (unbounded : allowance.room = none) :
    (context.fragment tree).Each allowance := by
  have same : allowance.inner = allowance := by
    cases allowance
    cases unbounded
    rfl
  have nesting : Convert.CoversNesting context.dialect fun found trees => found = allowance ∧
      trees = property := by
    constructor
    · rintro _ _ ⟨rfl, rfl⟩
      exact covers
    · rintro _ _ call ⟨rfl, rfl⟩ whole -
      refine ⟨by simp [unbounded], _, ⟨same, rfl⟩, fun operand inside => ?_⟩
      exact covers.hereditary.of_mem_parts whole (Tree.mem_parts_of_mem_comprehended inside)
  exact Convert.steps_each nesting tree.height ⟨rfl, rfl⟩ tree holds

end CelWhere
