import CelWhere.Convert.Function
import CelWhere.Convert.Locality.Member
import CelWhere.Convert.Locality.Method

/-! # Locality of functions -/

namespace CelWhere.Convert

variable {catalog : Catalog} {test : PresenceTest} {context : Context}
  {first second : Tree → Fragment} {children arguments : List Tree}

theorem presenceOfSelection_nested {below : List Tree} {root : Option String}
    (found : presenceOfSelection.nested catalog below root = .ok test) :
    test = .plain ∨ test = .jsonPath below := by
  unfold presenceOfSelection.nested at found
  split at found
  · simp only [Except.ok.injEq] at found
    exact .inl found.symm
  · cases answer : catalog.isJsonPath below with
    | error fault => simp [answer, Except.map] at found
    | ok json => cases json <;> simp_all [Except.map]

/-- The parts of a field selection that the test for its presence converts. -/
theorem presenceOfSelection_cases {object field : Tree} {below : List Tree}
    (found : presenceOfSelection catalog object field below = .ok test) :
    test = .plain ∨ test = .jsonPath below ∨
      ∃ binary inner, object.unwrap? .memberDot = some inner ∧
      test = .jsonField binary field.nameText object := by
  unfold presenceOfSelection at found
  split at found
  · simp at found
  · exact (presenceOfSelection_nested found).imp_right .inl
  · simp at found
  next unwrapped =>
    split at found
    · simp at found
    · simp at found
    · split at found
      · simp only [Except.ok.injEq] at found
        exact .inr (.inr ⟨_, _, unwrapped, found.symm⟩)
      · exact (presenceOfSelection_nested found).imp_right .inl
    · exact (presenceOfSelection_nested found).imp_right .inl

/-- What the test for the presence of a value converts: the value, or if it is a selection, its path
or its object. -/
theorem presenceTest_cases {value : Tree} (found : presenceTest catalog value = .ok test) :
    test = .plain ∨ ∃ object field rest, value.unwrap? .memberDot = some (object :: field :: rest) ∧
      (test = .jsonPath (object :: field :: rest) ∨
        ∃ binary, test = .jsonField binary field.nameText object) := by
  unfold presenceTest at found
  split at found
  · exact .inl (Except.ok.inj found).symm
  next object field rest unwrapped =>
    rcases presenceOfSelection_cases found with rfl | isPath | ⟨binary, _, -, isField⟩
    · exact .inl rfl
    · exact .inr ⟨object, field, rest, unwrapped, .inl isPath⟩
    · exact .inr ⟨object, field, rest, unwrapped, .inr ⟨binary, isField⟩⟩
  · split at found <;> cases found
  · cases found

section

variable (agree : AgreeUpTo (Tree.heights arguments) first second)

include agree

theorem presence_congr : presence context first arguments = presence context second arguments := by
  unfold presence
  split
  next value =>
    have below {children : List Tree} (found : value.unwrap? .memberDot = some children) :
        AgreeUpTo (Tree.heights children) first second :=
      agree.mono (by have := Tree.unwrap?_heights found; simp only [Tree.heights]; omega)
    cases found : presenceTest context.catalog value with
    | error fault => rfl
    | ok test =>
      rcases presenceTest_cases found with
        rfl | ⟨object, field, rest, unwrapped, rfl | ⟨binary, rfl⟩⟩
      · simp only [Fragment.attempt_ok, agree.head]
      · simp only [Fragment.attempt_ok, jsonPath_congr (below unwrapped)]
      · simp only [Fragment.attempt_ok, (below unwrapped).head]
  · rfl

theorem typeCast_congr {type : String} :
    typeCast context first type arguments = typeCast context second type arguments := by
  unfold typeCast
  split
  · simp only [agree.head]
  · rfl

theorem timestamp_congr :
    timestamp context first arguments = timestamp context second arguments := by
  unfold timestamp
  split
  · rw [agree.head]
  · rw [agree.head, agree.tail.head]
  · rfl

theorem intervalCall_congr :
    intervalCall context first arguments = intervalCall context second arguments := by
  unfold intervalCall
  split
  · rw [agree.head]
  · rfl

theorem callFunction_congr {function : String} :
    callFunction context first function arguments =
      callFunction context second function arguments := by
  unfold callFunction
  split
  · exact presence_congr agree
  · exact sizeOfValue_congr agree.head
  · rfl
  · simp only [matchTest_congr agree.head]
  · exact typeCast_congr agree
  · exact typeCast_congr agree
  · exact typeCast_congr agree
  · exact typeCast_congr agree
  · exact typeCast_congr agree
  · exact typeCast_congr agree
  · exact timestamp_congr agree
  · rfl
  · exact intervalCall_congr agree
  · simp only [plainCall, expressions_congr agree]

end

theorem functionCall_congr (agree : AgreeUpTo (Tree.heights children) first second) :
    functionCall context first children = functionCall context second children := by
  unfold functionCall
  split
  next function rest =>
    cases found : argumentsOf rest with
    | error fault => rfl
    | ok arguments => exact callFunction_congr (argumentsOf_agree found agree.tail)
  · rfl

theorem dottedCall_congr (agree : AgreeUpTo (Tree.heights children) first second) :
    dottedCall first children = dottedCall second children := by
  unfold dottedCall
  split
  next function rest =>
    cases found : argumentsOf rest with
    | error fault => rfl
    | ok arguments =>
      simp only [Fragment.attempt_ok, expressions_congr (argumentsOf_agree found agree.tail)]
  · rfl

end CelWhere.Convert
