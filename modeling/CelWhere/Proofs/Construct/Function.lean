import CelWhere.Proofs.Construct.Method

/-! # Functions are sound

A function writes its arguments between fixed texts. The name of a function without special handling
is written too, and so is the unit of an interval, which is a name if it is no literal; a literal is
excused for having a null byte.

* `Surface.intervalCall_sound` — the function that can bear a null byte;
* `Surface.functionCall_sound` — all functions. -/

namespace CelWhere.Surface

open CelWhere.Convert

variable {source : Source} {arguments children : List Tree}

/-- The tree of a call of a function with arguments. -/
def functionTree (function : String) (arguments : List Tree) : Tree :=
  .node .identArg [.token ⟨.ident, function⟩, .node .exprList arguments]

section

variable (each : ∀ argument ∈ arguments, source.Part argument)

include each

theorem presence_sound :
    IsSound source (presence source.context source.child arguments)
      (presence source.context source.child (arguments.map Tree.blanked)) := by
  match arguments, each with
  | [value], each =>
    obtain ⟨settled, sound⟩ := each value (by simp)
    have plain : IsSound source (source.child value ++ " IS NOT NULL")
        (source.child value.blanked ++ " IS NOT NULL") :=
      .template (.slot sound) [.fixed _] rfl
    simp only [List.map_cons, List.map_nil, presence, presenceTest]
    rw [Tree.unwrap?_blanked (by simp) (by simp) (by simp)]
    cases found : value.unwrap? .memberDot with
    | none => exact plain
    | some children =>
      have selected := Source.hereditary_settled.unwrap settled found
      obtain ⟨object, text, rfl, label⟩ := selected.grammatical.memberDot
      have blanked := presenceOfSelection_blanked source.context.catalog selected.grammatical
      simp only [Option.map_some, List.map_cons, List.map_nil]
      rw [blanked]
      cases tested : presenceOfSelection source.context.catalog object (.token ⟨.ident, text⟩)
          [object, .token ⟨.ident, text⟩] with
      | error fault => exact .fail _
      | ok test =>
        -- A test of the value itself, of the path to it, or of the field in its owner.
        rcases presenceOfSelection_cases tested with rfl | rfl | ⟨binary, inner, unwrapped, rfl⟩
        · exact plain
        · exact .template (.slot (jsonPath_sound selected.ready)) [.fixed _] rfl
        · have ownerSettled : source.Settled object := selected.child (by simp)
          have ownerSound := (ownerSettled object object.self_mem_parts).firm inner unwrapped
          exact jsonExists_sound ownerSound (selected.child (by simp)).isWord binary
  | [], _ | _ :: _ :: _, _ => exact .fail _

theorem typeCast_sound {type : String} (isType : type ∈ castTypes) :
    IsSound source (typeCast source.context source.child type arguments)
      (typeCast source.context source.child type (arguments.map Tree.blanked)) := by
  match arguments, each with
  | [value], each =>
    obtain ⟨settled, sound⟩ := each value (by simp)
    have cast := cast_sound sound isType
    simp only [List.map_cons, List.map_nil, typeCast, Tree.root?_blanked settled.grammatical,
      Tree.isTimestamp_blanked settled.grammatical]
    split
    · -- A timestamp becomes an integer through its seconds.
      refine .attempt fun root _ => ?_
      split
      · exact epochSeconds_sound sound
      · exact cast
    · exact cast
  | [], _ | _ :: _ :: _, _ => exact .fail _

theorem timestamp_sound :
    IsSound source (timestamp source.context source.child arguments)
      (timestamp source.context source.child (arguments.map Tree.blanked)) := by
  match arguments, each with
  | [value], each => exact castToTimestamp_sound (each value (by simp)).sound
  | [value, zone], each =>
    exact .template (.slot (each value (by simp)).sound)
      [.fixed _, .slot (each zone (by simp)).sound] rfl
  | [], _ | _ :: _ :: _ :: _, _ => exact .fail _

omit each in
/-- A duration out of a kept literal. -/
theorem durationCall_sound :
    IsSound source (durationCall source.context arguments)
      (durationCall source.context arguments) := by
  unfold durationCall
  split
  · split
    · exact .attempt fun duration _ => duration_sound duration.value duration.unit
    · exact .fail _
  · exact .fail _

omit each in
/-- A unit that is no name is that of a literal. -/
theorem unchecked?_interval {value unit : Tree} {text : String} (settled : source.Settled unit)
    (found : intervalUnit unit = .ok text) (unnamed : ¬∀ c ∈ text.toList, Lexer.isNameChar c) :
    (functionTree "interval" [value, unit]).unchecked? = some text := by
  simp only [functionTree, Tree.unchecked?, if_true]
  unfold intervalUnit at found
  split at found
  next token given =>
    obtain rfl := Except.ok.inj found
    rw [given]
    rfl
  · split at found
    next name rest unwrapped =>
      have nameSettled := Source.hereditary_settled.unwrap settled unwrapped
      obtain ⟨written, same⟩ := nameSettled.grammatical.ident
      obtain ⟨rfl, rfl⟩ : name = .token ⟨.ident, written⟩ ∧ rest = [] := by simpa using same
      obtain rfl := Except.ok.inj found
      exact absurd (nameSettled.child (by simp)).grammatical.name unnamed
    · simp at found
    · simp at found

/-- A computed duration. If the literal of its unit is no name, the expression is neither regular
nor standard, and it bears a null byte if the literal has one. -/
theorem intervalCall_sound
    (member : arguments ≠ [] → functionTree "interval" arguments ∈ source.tree.parts) :
    IsSound source (intervalCall source.context source.child arguments)
      (intervalCall source.context source.child (arguments.map Tree.blanked)) := by
  match arguments, each, member with
  | [value, unit], each, member =>
    have part := member (by simp)
    have converted : source.context.fragment (functionTree "interval" [value, unit]) =
        intervalCall source.context source.child [value, unit] := Context.fragment_eq ..
    have valueSound := (each value (by simp)).sound
    have unitSettled := (each unit (by simp)).settled
    have blanked (standard : source.Standard) :=
      intervalUnit_blanked unitSettled.grammatical
        (standard.2 _ part unit (by simp [functionTree, Tree.intervalUnit?]))
    -- A regular expression has no such call.
    refine ⟨fun standard => ?_, ?_, fun regular => absurd (regular.2 _ part)
      (by simp [functionTree, Tree.calls])⟩
    · obtain ⟨same, names⟩ := blanked standard
      simp only [List.map_cons, List.map_nil, intervalCall, same]
      have sound : IsSound source _ _ :=
        .attempt fun name found => interval_sound valueSound (names name found)
      exact sound.closed standard
    · simp only [intervalCall] at converted ⊢
      cases found : intervalUnit unit with
      | error fault => exact (Sound.fail fault : IsSound source _ .empty).clean
      | ok text =>
        rw [found] at converted
        by_cases hasNull : '\x00' ∈ text.toList
        · have unnamed : ¬∀ c ∈ text.toList, Lexer.isNameChar c :=
            fun named => absurd (named _ hasNull) (by decide)
          have bears : source.BearsNull
              (source.context.dialect.interval (source.child value) text) :=
            ⟨_, part, converted, text, unchecked?_interval unitSettled found unnamed, hasNull⟩
          exact fun _ _ _ => .inr ⟨_, Fragment.self_mem_parts _, bears⟩
        · exact interval_clean valueSound hasNull
  | [], _, _ | [_], _, _ | _ :: _ :: _ :: _, _, _ => exact .fail _

/-- A function without special handling, whichever of its arguments keep their strings. -/
theorem plainCall_sound {function : String} (isName : ∀ c ∈ function.toList, Lexer.isNameChar c)
    (kept : Nat → Bool) :
    IsSound source (plainCall source.child function arguments)
      (plainCall source.child function (Tree.blankedBut kept arguments)) :=
  .template (.spans (.word _ (isWord_name (Lexical.isNameChar_upper isName))) [])
    [.fixed _, .slot (expressions_sound each kept), .fixed _] rfl

theorem callFunction_sound {function : String} (isName : ∀ c ∈ function.toList, Lexer.isNameChar c)
    (member : arguments ≠ [] → functionTree function arguments ∈ source.tree.parts) :
    IsSound source (callFunction source.context source.child function arguments)
      (callFunction source.context source.child function
        (Tree.blankedBut (Tree.keptByFunction function) arguments)) := by
  have plain := plainCall_sound each isName (Tree.keptByFunction function)
  -- Two functions keep arguments: `duration` all of them, `matches` its pattern.
  by_cases isDuration : function = "duration"
  · subst isDuration
    have allKept : Tree.keptByFunction "duration" = fun _ => true := by
      funext position
      simp [Tree.keptByFunction]
    rw [allKept, Tree.blankedBut_all]
    exact durationCall_sound
  by_cases isMatches : function = "matches"
  · subst isMatches
    match arguments, each, member with
    | [subject, pattern], each, member =>
      show IsSound source (callFunction source.context source.child "matches" [subject, pattern])
        (callFunction source.context source.child "matches" [subject.blanked, pattern])
      simp only [callFunction]
      split
      next token found =>
        refine matchTest_sound (each subject (by simp)) fun regular isMysql => ?_
        have safe := regular.1 .matchesFunction subject pattern token (member (by simp)) found
        rw [isMysql] at safe
        exact safe
      · exact .fail _
    | [], _, _ | [_], _, _ | _ :: _ :: _ :: _, _, _ => exact plain
  have noneKept : Tree.keptByFunction function = fun _ => false := by
    funext position
    simp [Tree.keptByFunction, isDuration, isMatches]
  rw [noneKept, Tree.blankedBut_none] at plain ⊢
  -- One case for each name and number of arguments, in the order in which they are tried.
  fun_cases callFunction source.context source.child function arguments
  · exact presence_sound each
  · exact sizeOfValue_sound (each _ (by simp))
  next notOne =>
    rcases arguments with _ | ⟨value, _ | ⟨second, rest⟩⟩
    · exact empty_sound
    · exact absurd rfl (notOne value)
    · exact empty_sound
  · exact absurd rfl isMatches
  · exact absurd rfl isMatches
  · exact typeCast_sound each (by decide)
  · exact typeCast_sound each (by decide)
  · exact typeCast_sound each (by decide)
  · exact typeCast_sound each (by decide)
  · exact typeCast_sound each (by decide)
  · exact typeCast_sound each (by decide)
  · exact timestamp_sound each
  · exact absurd rfl isDuration
  · exact intervalCall_sound each member
  · -- The blanked arguments are as many, so no other case applies to them.
    have other : callFunction source.context source.child function (arguments.map Tree.blanked) =
        plainCall source.child function (arguments.map Tree.blanked) := by
      unfold callFunction
      split <;> simp_all
    rw [other]
    exact plain

end

theorem functionCall_sound (ready : source.Ready .identArg children) :
    IsSound source (functionCall source.context source.child children)
      (functionCall source.context source.child (Tree.blankedChildren .identArg children)) := by
  obtain ⟨name, rfl | ⟨items, rfl⟩⟩ := ready.grammatical.identArg
  · have named := (ready.each (.token ⟨.ident, name⟩) (by simp)).grammatical.name
    have noArguments : ∀ argument ∈ ([] : List Tree), source.Part argument := by simp
    exact callFunction_sound noArguments named (absurd rfl)
  · have named := (ready.each (.token ⟨.ident, name⟩) (by simp)).grammatical.name
    have itemsSettled : source.Settled (.node .exprList items) := ready.each _ (by simp)
    exact callFunction_sound itemsSettled.items named fun _ => ready.mem

theorem dottedCall_sound (ready : source.Ready .dotIdentArg children) :
    IsSound source (dottedCall source.child children)
      (dottedCall source.child (children.map Tree.blanked)) := by
  have call {name : String} {values values' : Fragment}
      (nameSettled : source.Settled (.token ⟨.ident, name⟩))
      (sound : IsSound source values values') :
      IsSound source ((("." ++ name ++ "(" : String) : Fragment) ++ values ++ ")")
        ((("." ++ name ++ "(" : String) : Fragment) ++ values' ++ ")") :=
    .template (.spans (.fixed _) [.word name nameSettled.isWord, .fixed _])
      [.slot sound, .fixed _] rfl
  rcases ready.produced with alone | behind
  · obtain ⟨leaf, rfl, label⟩ := Tree.map_label_one.mp alone
    obtain ⟨name, rfl⟩ := Tree.label_eq_token.mp label
    exact call (ready.each _ (by simp)) empty_sound
  · obtain ⟨leaf, list, rfl, label, listLabel⟩ := Tree.map_label_two.mp behind
    obtain ⟨name, rfl⟩ := Tree.label_eq_token.mp label
    obtain ⟨items, rfl⟩ := Tree.label_eq_rule.mp listLabel
    have sound := items_sound (ready.each (.node .exprList items) (by simp))
    simp only [List.map_cons, List.map_nil, Tree.blanked_node, Tree.blankedChildren]
    exact call (ready.each _ (by simp)) sound

end CelWhere.Surface
