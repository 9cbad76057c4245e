import CelWhere.Proofs.Argument.Use

/-! # Arguments of methods

Each method of PostgreSQL does with its arguments what the table says: one lemma for each construct,
and one for the choice between them.

* `Convert.callMethod_serves` — all methods. -/

namespace CelWhere.Convert

variable {method : String}

open Fragment Use

/-- The values of a format are converted. -/
theorem formatArguments_includes {child : Tree → Fragment} {items : List Tree} {item : Tree}
    (member : item ∈ items) :
    (formatArguments child items).Includes (child item) := by
  induction items with
  | nil => cases member
  | cons argument rest ih =>
    rcases List.mem_cons.mp member with rfl | later
    · exact (Includes.append_left _ _).trans (.append_right _ _)
    · exact (Includes.append_right _ _).trans (ih later)

/-- The end of a range is converted if it is no literal. -/
theorem substringRange_includes {visit : Tree → Fragment} (start : Tree) {finish : Tree}
    (noLiteral : finish.intLiteral? = none) :
    (substringRange (fun tree => .nested (visit tree)) start finish).Includes
      (.nested (visit finish)) := by
  unfold substringRange
  split
  · exact .attempt fun first _ => includes_of_mem_pieces (by simp [noLiteral])
  · exact includes_of_mem_pieces (by simp)

/-- All arguments of a part of a timestamp but the first one are left out. -/
theorem ofMethod_of_part {found : String × Bool} (isPart : timestampPart? method = some found)
    (arguments : List Tree) : ofMethod arguments method = ofFirst arguments := by
  unfold timestampPart? at isPart
  split at isPart <;> cases isPart <;> rfl

section

variable {context : Context} (object : Tree) (arguments : List Tree)

/-! ## Comprehensions -/

/-- A variable and a condition. -/
theorem quantified_serves {opening middle closing : String} (closes : closing ≠ "") :
    (Fragment.comprehension
    (quantified context context.child method opening middle closing object
      arguments)).Serves context arguments (.name :: arguments.tail.map fun _ => .visited) := by
  unfold quantified
  split
  · exact .comprehension closing (by simp) closes fun _ => .cons (met_visited (by simp)) .nil
  · exact .refused _

/-- A variable and a value, perhaps with a condition between them. -/
theorem mapped_serves : (Fragment.comprehension
    (mapped context context.child object arguments)).Serves context arguments
      (.name :: arguments.tail.map fun _ => .visited) := by
  unfold mapped
  split
  · exact .comprehension ")" (by simp) (by decide) fun _ =>
      .cons (met_visited (by simp [collect])) .nil
  · exact .comprehension ")" (by simp) (by decide) fun _ =>
      .cons (met_visited (by simp)) (.cons (met_visited (by simp [collect])) .nil)
  · exact .refused _

theorem filtered_serves : (Fragment.comprehension
    (filtered context context.child object arguments)).Serves context arguments
      (.name :: arguments.tail.map fun _ => .visited) := by
  unfold filtered
  split
  · exact .comprehension ")" (by simp) (by decide) fun _ => .cons (met_visited (by simp)) .nil
  · exact .refused _

/-! ## Positions and replacements -/

theorem applied_serves (function : String) (value : Fragment) :
    (applied function value).Serves context arguments (arguments.map fun _ => .dropped) :=
  .pieces ")" (by simp [applied]) (by decide) (met_map fun _ _ => trivial)

theorem charAt_serves : (charAt context.child object arguments).Serves context arguments
    (arguments.map ofPosition) := by
  unfold charAt
  split
  · exact .pieces ", 1)" (by simp) (by decide)
      (.cons (met_ofPosition fun none => met_visited (by simp [positionFromOne, none])) .nil)
  · exact .fail _

theorem indexOfCall_serves :
    (indexOfCall context.child object arguments).Serves context arguments
      (.visited :: arguments.tail.map ofPosition) := by
  unfold indexOfCall
  split
  · exact .pieces ") - 1 ELSE -1 END" (by simp [indexOf]) (by decide)
      (.cons (met_visited (by simp [indexOf])) .nil)
  · split
    next found =>
      exact .attempt fun value _ => .pieces " > 0 THEN POSITION("
        (by simp [indexOfFrom]) (by decide)
        (.cons (met_visited (by simp [indexOfFrom]))
          (.cons (met_ofPosition fun none => by simp [none] at found) .nil))
    next =>
      exact .pieces " - 1 ELSE -1 END" (by simp [indexOfFromExpr]) (by decide)
        (.cons (met_visited (by simp [indexOfFromExpr]))
          (.cons (met_ofPosition fun _ => met_visited (by simp [indexOfFromExpr])) .nil))
  · exact .fail _

theorem lastIndexOfCall_serves :
    (lastIndexOfCall context.child object arguments).Serves context arguments
      (ofFirst arguments) := by
  unfold lastIndexOfCall
  split
  · exact .pieces ") + 1 ELSE -1 END" (by simp [lastIndexOf]) (by decide)
      (.cons (met_visited (by simp [lastIndexOf])) (met_map fun _ _ => trivial))
  · exact .fail _

theorem substring_serves :
    (substring context.child object arguments).Serves context arguments
      (arguments.map ofPosition) := by
  unfold substring
  split
  · exact .pieces "SUBSTRING(" (by simp) (by decide)
      (.cons (met_ofPosition fun none => met_visited (by simp [positionFromOne, none])) .nil)
  next start finish =>
    refine .pieces "SUBSTRING(" (by simp) (by decide) (.cons (met_ofPosition fun none => ?_)
      (.cons (met_ofPosition fun none => ?_) .nil))
    · exact met_visited (by simp [substringRange, none])
    · exact (Includes.append_left _ _).trans
        ((Includes.append_right _ _).trans (substringRange_includes start none))
  · exact .fail _

theorem replacement_serves :
    (replacement context.child object arguments).Serves context arguments
      (.visited :: .visited :: (arguments.drop 2).map ofLimit) := by
  unfold replacement
  split
  · exact .pieces ")" (by simp [replaced]) (by decide)
      (.cons (met_visited (by simp [replaced])) (.cons (met_visited (by simp [replaced])) .nil))
  next part substitute limit =>
    have whole (met : Met context (replaced context.child object part substitute) limit
        (ofLimit limit)) : (replaced context.child object part substitute).Serves context
          [part, substitute, limit] [.visited, .visited, ofLimit limit] :=
      .pieces ")" (by simp [replaced]) (by decide) (.cons (met_visited (by simp [replaced]))
        (.cons (met_visited (by simp [replaced])) (.cons met .nil)))
    split
    next token found =>
      refine .attempt fun value _ => ?_
      split
      · exact whole (by simp [ofLimit, found, Met])
      · exact .fail _
    next none => exact whole (by simp [ofLimit, none, Met])
  · exact .fail _

/-- The values of a format are converted if they stand in a list. -/
theorem formatCall_serves :
    (formatCall context context.child object arguments).Serves context arguments
      (arguments.map ofList) := by
  unfold formatCall
  split
  next list =>
    split
    next token _ =>
      dsimp only
      cases unsupportedSpecifier? token.stringValue.toList with
      | some specifier => exact .fail _
      | none =>
        refine .pieces "FORMAT(" (by simp) (by decide) (.cons ?_ .nil)
        unfold ofList
        cases found : list.unwrap? .listLit with
        | none => simp [Met]
        | some children =>
          refine ⟨children, found, fun item member => ?_⟩
          unfold listItems at member
          split at member
          · exact (Includes.append_left _ _).trans
              ((Includes.append_right _ _).trans (formatArguments_includes member))
          · cases member
    · exact .fail _
  · exact .fail _

/-! ## Constructs of the dialect -/

section

variable (isPostgresql : context.dialect = .postgresql)

include isPostgresql

theorem containsTest_serves :
    (containsTest context context.child object arguments).Serves context arguments
      (arguments.map fun _ => .visited) := by
  unfold containsTest
  split
  next part =>
    have test : (context.dialect.contains (.nested (context.fragment object))
        (.nested (context.fragment part))).Serves context [part] [.visited] :=
      .pieces ") > 0" (by simp [Dialect.contains, isPostgresql]) (by decide)
        (.cons (met_visited (by simp [Dialect.contains, isPostgresql])) .nil)
    split
    · exact .withoutNull _ _ test
    · exact test
  · exact .fail _

/-- A test at an end of a string writes the clause for the escape character. -/
theorem affixTest_serves {test : Fragment → String → Fragment}
    (clause : ∀ subject text, .text context.dialect.likeEscape ∈ (test subject text).pieces) :
    (affixTest context.child method test object arguments).Serves context arguments
      (arguments.map fun _ => .text) := by
  unfold affixTest
  split
  · split
    next found =>
      exact .withoutNull _ _ (.pieces _ (clause _ _) (by simp [isPostgresql, Dialect.likeEscape])
        (.cons (met_text found) .nil))
    · exact .fail _
  · exact .fail _

/-- A match converts the value, and its pattern is not empty. -/
theorem matchTest_serves {subject : Tree} {arguments : List Tree} {uses : List Use} (token : Token)
    (met : ∀ fragment : Fragment, fragment.Includes (.nested (context.fragment subject)) →
      List.Forall₂ (Met context fragment) arguments uses) :
    (matchTest context context.child subject token).Serves context arguments uses := by
  refine .attempt fun converted _ => ?_
  simp only [Dialect.regexMatch, isPostgresql]
  split
  · exact .pieces " ~* " (by simp) (by decide) (met _ (includes_of_mem_pieces (by simp)))
  · exact .pieces " ~ " (by simp) (by decide) (met _ (includes_of_mem_pieces (by simp)))

theorem matchesMethod_serves :
    (matchesMethod context context.child object arguments).Serves context arguments
      (arguments.map fun _ => .text) := by
  unfold matchesMethod
  split
  · split
    next token found =>
      exact matchTest_serves isPostgresql token fun _ _ => .cons (met_text found) .nil
    · exact .fail _
  · exact .fail _

/-- The size of a value converts it. -/
theorem sizeOfValue_serves {subject : Tree} {arguments : List Tree} {uses : List Use}
    (met : ∀ fragment : Fragment, fragment.Includes (.nested (context.fragment subject)) →
      List.Forall₂ (Met context fragment) arguments uses) :
    (sizeOfValue context context.child subject).Serves context arguments uses := by
  refine .attempt fun isArray _ => ?_
  simp only [Dialect.arrayLength, isPostgresql]
  split
  · exact .pieces "COALESCE(ARRAY_LENGTH(" (by simp) (by decide)
      (met _ (includes_of_mem_pieces (by simp)))
  · exact .pieces ")" (by simp [applied]) (by decide)
      (met _ (includes_of_mem_pieces (by simp [applied])))

theorem splitUpTo_serves {delimiter limit : Tree} {token : Token} {value : Int}
    (found : limit.intLiteral? = some token) (read : readInteger .decimal token.text = .ok value) :
    (splitUpTo context context.child object delimiter value).Serves context
      [delimiter, limit] [ofDelimiter limit, .number] := by
  have known : ofDelimiter limit = if value = 0 ∨ value = 1 then .dropped else .visited := by
    simp [ofDelimiter, found, read, Except.toOption]
  rw [known]
  unfold splitUpTo
  simp only [isPostgresql]
  split
  next all =>
    rw [if_neg (show ¬(value = 0 ∨ value = 1) by omega)]
    exact .pieces ")" (by simp [Dialect.split]) (by decide)
      (.cons (met_visited (by simp [Dialect.split])) (.cons (met_number found) .nil))
  · split
    next none =>
      rw [if_pos (.inl none)]
      exact .pieces "ARRAY[]::text[]" (by simp [Dialect.emptyArray]) (by decide)
        (.cons trivial (.cons (met_number found) .nil))
    · split
      next one =>
        rw [if_pos (.inr one)]
        exact .pieces "]" (by simp [Dialect.arrayClose]) (by decide)
          (.cons trivial (.cons (met_number found) .nil))
      next notOne =>
        rw [if_neg (show ¬(value = 0 ∨ value = 1) by omega)]
        split
        · exact .fail _
        · exact .pieces "(STRING_TO_ARRAY(" (by simp [Dialect.splitLimited]) (by decide)
            (.cons (met_visited (by simp [Dialect.splitLimited])) (.cons (met_number found) .nil))

theorem splitCall_serves :
    (splitCall context context.child object arguments).Serves context arguments
      (ofMethod arguments "split") := by
  unfold splitCall
  split
  · exact .pieces ")" (by simp [isPostgresql, Dialect.split]) (by decide)
      (.cons (met_visited (by simp [isPostgresql, Dialect.split])) .nil)
  · split
    next found => exact .attempt fun value read => splitUpTo_serves object isPostgresql found read
    · exact .fail _
  · exact .fail _

theorem joinCall_serves :
    (joinCall context context.child object arguments).Serves context arguments
      (arguments.map fun _ => .visited) := by
  unfold joinCall
  split
  · exact .pieces ", '')" (by simp [isPostgresql, Dialect.joinStrings]) (by decide) .nil
  · exact .pieces ", '')" (by simp [isPostgresql, Dialect.joinStrings]) (by decide)
      (.cons (met_visited (by simp [isPostgresql, Dialect.joinStrings])) .nil)
  · exact .fail _

/-- A part of a timestamp converts the first of its arguments. -/
theorem timestampPart_serves (part : String) (fromZero : Bool) :
    (timestampPart context context.child object part fromZero arguments).Serves context
      arguments (ofFirst arguments) := by
  unfold timestampPart
  simp only [Dialect.extract, isPostgresql]
  cases arguments with
  | nil => split <;> exact .pieces ")" (by simp [Dialect.extractPart]) (by decide) .nil
  | cons zone rest =>
    split <;> exact .pieces ")" (by simp [Dialect.extractPart]) (by decide)
      (.cons (met_visited (by simp [Dialect.extractPart])) (met_map fun _ _ => trivial))

/-- **Methods do with their arguments what the table says.** -/
theorem callMethod_serves (method : String) :
    (callMethod context context.child object method arguments).Serves context arguments
      (ofMethod arguments method) := by
  unfold callMethod
  split
  · exact quantified_serves object arguments (by decide)
  · exact quantified_serves object arguments (by decide)
  · exact quantified_serves object arguments (by decide)
  · exact mapped_serves object arguments
  · exact filtered_serves object arguments
  · exact containsTest_serves object arguments isPostgresql
  · exact affixTest_serves object arguments isPostgresql fun _ _ => by simp [Dialect.startsWith]
  · exact affixTest_serves object arguments isPostgresql fun _ _ => by simp [Dialect.endsWith]
  · exact matchesMethod_serves object arguments isPostgresql
  · exact sizeOfValue_serves isPostgresql fun _ _ => met_map fun _ _ => trivial
  · exact applied_serves arguments _ _
  · exact applied_serves arguments _ _
  · exact applied_serves arguments _ _
  · exact charAt_serves object arguments
  · exact indexOfCall_serves object arguments
  · exact lastIndexOfCall_serves object arguments
  · exact substring_serves object arguments
  · exact replacement_serves object arguments
  · exact applied_serves arguments _ _
  · exact splitCall_serves object arguments isPostgresql
  · exact joinCall_serves object arguments isPostgresql
  · exact formatCall_serves object arguments
  · split
    next part fromZero found =>
      rw [ofMethod_of_part found]
      exact timestampPart_serves object arguments isPostgresql part fromZero
    · exact .fail _

end

end

end CelWhere.Convert
