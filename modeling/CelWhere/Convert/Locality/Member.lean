import CelWhere.Convert.Locality.Agreement
import CelWhere.Convert.Member

/-! # Locality of selections -/

namespace CelWhere.Convert

variable {context : Context} {first second : Tree → Fragment} {children : List Tree}

variable (agree : AgreeUpTo (Tree.heights children) first second)

include agree

theorem jsonPath_congr : jsonPath context first children = jsonPath context second children := by
  unfold jsonPath
  cases path : (Tree.node .memberDot children).fieldPath with
  | error fault => rfl
  | ok pair =>
    obtain ⟨root, fields⟩ := pair
    have same : first root = second root := by
      apply agree
      unfold Tree.fieldPath at path
      split at path
      · rename_i object field rest shape
        cases inner : object.fieldPath with
        | error fault => simp [inner, Except.map] at path
        | ok pair =>
          simp only [Tree.node.injEq, true_and] at shape
          subst shape
          simp only [inner, Except.map, Except.ok.injEq, Prod.mk.injEq] at path
          have := Tree.fieldPath_height inner
          rw [path.1] at this
          simp only [Tree.heights]
          omega
      all_goals simp_all
    simp only [Fragment.attempt_ok, same]

theorem selection_congr : selection context first children = selection context second children := by
  unfold selection
  split
  · simp only [agree.head, jsonPath_congr agree]
  · rfl

theorem indexing_congr : indexing context first children = indexing context second children := by
  unfold indexing
  split
  · simp only [agree.head, agree.tail.head]
    split
    · rfl
    · congr 1
      funext index
      simp only [fixedElement, agree.head]
    · rfl
  · rfl

theorem expressions_congr : expressions first children = expressions second children := by
  unfold expressions
  rw [agree.map_eq]

theorem entryValues_congr : entryValues first children = entryValues second children := by
  fun_induction entryValues first children with
  | case1 => rfl
  | case2 => rfl
  | case3 => simp only [entryValues, agree.tail.head]
  | case4 key value rest more ih =>
    rw [entryValues, agree.tail.head, ih agree.tail.tail]
    all_goals exact more

theorem listOf_congr : listOf context first children = listOf context second children := by
  unfold listOf
  split
  · rw [expressions_congr agree.below]
  · rfl

theorem mapOf_congr : mapOf context first children = mapOf context second children := by
  unfold mapOf
  split
  · rw [entryValues_congr agree.below]
  · rfl

theorem parenthesised_congr : parenthesised first children = parenthesised second children := by
  unfold parenthesised
  split
  · rw [agree.head]
  · rfl

end CelWhere.Convert
