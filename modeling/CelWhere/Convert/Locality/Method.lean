import CelWhere.Convert.Locality.Agreement
import CelWhere.Convert.Method

/-! # Locality of methods -/

namespace CelWhere.Convert

variable {context : Context} {first second : Tree → Fragment} {object : Tree}
  {children arguments : List Tree} {method : String}

section

variable (same : first object = second object)
  (agree : AgreeUpTo (Tree.heights arguments) first second)

include same

theorem rowsAs_congr {iterator : String} :
    rowsAs context first object iterator = rowsAs context second object iterator := by
  simp only [rowsAs, same]

theorem affixTest_congr {test : Fragment → String → Fragment} :
    affixTest first method test object arguments =
      affixTest second method test object arguments := by
  simp only [affixTest.eq_def, same]

theorem matchTest_congr {token : Token} :
    matchTest context first object token = matchTest context second object token := by
  simp only [matchTest, same]

theorem matchesMethod_congr :
    matchesMethod context first object arguments =
      matchesMethod context second object arguments := by
  simp only [matchesMethod.eq_def, matchTest_congr same]

theorem sizeOfValue_congr :
    sizeOfValue context first object = sizeOfValue context second object := by
  simp only [sizeOfValue, same]

theorem splitUpTo_congr {delimiter : Tree} (delimiterSame : first delimiter = second delimiter) :
    splitUpTo context first object delimiter = splitUpTo context second object delimiter := by
  funext limit
  simp only [splitUpTo, same, delimiterSame]

omit same in
theorem positionFromOne_congr {index : Tree} (same : first index = second index) :
    positionFromOne first index = positionFromOne second index := by
  simp only [positionFromOne, same]

include agree

omit same in
theorem formatArguments_congr :
    formatArguments first arguments = formatArguments second arguments := by
  induction arguments with
  | nil => rfl
  | cons argument rest ih =>
    rw [formatArguments, formatArguments, agree.head, ih agree.tail]

omit same in
theorem formatCall_congr :
    formatCall context first object arguments = formatCall context second object arguments := by
  unfold formatCall
  split
  next list =>
    have items {children : List Tree} (found : list.unwrap? .listLit = some children) :
        AgreeUpTo (Tree.heights children) first second :=
      agree.mono (by have := Tree.unwrap?_heights found; simp only [Tree.heights]; omega)
    split
    · split
      next found => rw [formatArguments_congr (items found).below]
      · rfl
    · rfl
  · rfl

theorem quantified_congr {opening middle closing : String} :
    quantified context first method opening middle closing object arguments =
      quantified context second method opening middle closing object arguments := by
  unfold quantified
  split
  · simp only [rowsAs_congr same, agree.tail.head]
  · rfl

theorem mapped_congr :
    mapped context first object arguments = mapped context second object arguments := by
  unfold mapped
  split
  · simp only [collect, rowsAs_congr same, agree.tail.head]
  · simp only [collect, rowsAs_congr same, agree.tail.head, agree.tail.tail.head]
  · rfl

theorem filtered_congr :
    filtered context first object arguments = filtered context second object arguments := by
  unfold filtered
  split
  · simp only [collect, rowsAs_congr same, agree.tail.head]
  · rfl

theorem containsTest_congr :
    containsTest context first object arguments = containsTest context second object arguments := by
  unfold containsTest
  split
  · simp only [same, agree.head]
  · rfl

theorem charAt_congr : charAt first object arguments = charAt second object arguments := by
  unfold charAt
  split
  · rw [same, positionFromOne_congr agree.head]
  · rfl

theorem indexOfCall_congr :
    indexOfCall first object arguments = indexOfCall second object arguments := by
  unfold indexOfCall
  split
  · rw [same, agree.head]
  · simp only [same, agree.head, agree.tail.head]
  · rfl

theorem lastIndexOfCall_congr :
    lastIndexOfCall first object arguments = lastIndexOfCall second object arguments := by
  unfold lastIndexOfCall
  split
  · rw [same, agree.head]
  · rfl

theorem substring_congr : substring first object arguments = substring second object arguments := by
  unfold substring
  split
  · rw [same, positionFromOne_congr agree.head]
  · simp only [substringRange, same, agree.head, agree.tail.head]
  · rfl

theorem replacement_congr :
    replacement first object arguments = replacement second object arguments := by
  unfold replacement
  split
  · simp only [replaced, same, agree.head, agree.tail.head]
  · simp only [replaced, same, agree.head, agree.tail.head]
  · rfl

theorem splitCall_congr :
    splitCall context first object arguments = splitCall context second object arguments := by
  unfold splitCall
  split
  · rw [same, agree.head]
  · rw [splitUpTo_congr same agree.head]
  · rfl

theorem joinCall_congr :
    joinCall context first object arguments = joinCall context second object arguments := by
  unfold joinCall
  split
  · rw [same]
  · rw [same, agree.head]
  · rfl

theorem timestampPart_congr {part : String} {fromZero : Bool} :
    timestampPart context first object part fromZero arguments =
      timestampPart context second object part fromZero
      arguments := by
  unfold timestampPart
  rw [same]
  cases arguments with
  | nil => rfl
  | cons zone rest => simp only [List.head?_cons, Option.map_some, agree.head]

theorem callMethod_congr :
    callMethod context first object method arguments =
      callMethod context second object method arguments := by
  unfold callMethod
  simp only [forAll, forSome, forOne, startsTest, endsTest, quantified_congr same agree,
    affixTest_congr same]
  rw [mapped_congr same agree, filtered_congr same agree, containsTest_congr same agree,
    matchesMethod_congr same, sizeOfValue_congr same, charAt_congr same agree,
    indexOfCall_congr same agree, lastIndexOfCall_congr same agree, substring_congr same agree,
    replacement_congr same agree, splitCall_congr same agree, joinCall_congr same agree,
    formatCall_congr agree, same]
  simp only [timestampPart_congr same agree]

end

theorem argumentsOf_agree {rest : List Tree} (found : argumentsOf rest = .ok arguments)
    (agree : AgreeUpTo (Tree.heights rest) first second) :
    AgreeUpTo (Tree.heights arguments) first second := by
  unfold argumentsOf at found
  split at found
  · simp only [Except.ok.injEq] at found
    subst found
    exact agree
  · simp only [Except.ok.injEq] at found
    subst found
    exact agree.below
  · simp at found

theorem methodCall_congr (agree : AgreeUpTo (Tree.heights children) first second) :
    methodCall context first children = methodCall context second children := by
  unfold methodCall
  split
  next object method rest =>
    cases found : argumentsOf rest with
    | error fault => rfl
    | ok arguments => exact callMethod_congr agree.head (argumentsOf_agree found agree.tail.tail)
  · rfl

end CelWhere.Convert
