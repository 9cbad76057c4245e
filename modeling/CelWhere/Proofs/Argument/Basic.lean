import CelWhere.Proofs.Argument.Method
import CelWhere.Proofs.Blame.Basic

/-! # What becomes of arguments

PostgreSQL calls do with their arguments what the table of uses says. What the table leaves out does
not matter: another argument in its place gives the same condition. Nothing is written for a size of
none or of several values.

* `Call.serves` — the fragment of a call writes something and uses the arguments;
* `Call.fragment_put` — what is left out may be exchanged;
* `Call.fragment_of_isEmpty` — the calls for which nothing is written. -/

namespace CelWhere

namespace Convert

variable {function : String}

open Fragment Use

section

variable {context : Context} (isPostgresql : context.dialect = .postgresql) (arguments : List Tree)

include isPostgresql

/-- A test for presence converts its value, or what is selected from. -/
theorem presence_serves :
    (presence context context.child arguments).Serves context arguments [.tested] := by
  unfold presence
  split
  next value =>
    refine .attempt fun test found => ?_
    have plain : (.nested (context.fragment value) ++ " IS NOT NULL" : Fragment).Serves context
        [value] [.tested] :=
      .pieces " IS NOT NULL" (by simp) (by decide)
        (.cons (.inl (includes_of_mem_pieces (by simp))) .nil)
    unfold presenceTest at found
    split at found
    · obtain rfl := Except.ok.inj found
      exact plain
    next object field rest unwrapped =>
      rcases presenceOfSelection_cases found with rfl | rfl | ⟨binary, -, -, rfl⟩
      · exact plain
      · refine .pieces " IS NOT NULL" (by simp) (by decide)
          (.cons (.inr ⟨object, field, rest, unwrapped, .inr ?_⟩) .nil)
        exact .append_left _ _
      · have visits : (context.dialect.jsonExists binary field.nameText
            (.nested (context.fragment object))).Includes
            (.nested (context.fragment object)) :=
          includes_of_mem_pieces (by cases binary <;> simp [Dialect.jsonExists, isPostgresql])
        have met : List.Forall₂
          (Met context (context.dialect.jsonExists binary field.nameText
            (.nested (context.fragment object))))
          [value] [.tested] := .cons (.inr ⟨object, field, rest, unwrapped, .inl visits⟩) .nil
        refine ⟨?_, fun _ _ _ => met⟩
        simp only [Dialect.jsonExists, isPostgresql]
        split <;> exact ⟨_, by simp, .append_right _ _⟩
    · split at found <;> cases found
    · cases found
  · exact .fail _

theorem typeCast_serves (type : String) (arguments : List Tree) :
    (typeCast context context.child type arguments).Serves context arguments
      (arguments.map fun _ => .visited) := by
  unfold typeCast
  split
  next value =>
    have plain : (context.dialect.cast (.nested (context.fragment value)) type).Serves context
        [value] [.visited] :=
      .pieces ")" (by simp [Dialect.cast]) (by decide)
        (.cons (met_visited (by simp [Dialect.cast])) .nil)
    split
    · refine .attempt fun root _ => ?_
      split
      · exact .pieces ")::bigint" (by simp [Dialect.epochSeconds, isPostgresql]) (by decide)
          (.cons (met_visited (by simp [Dialect.epochSeconds, isPostgresql])) .nil)
      · exact plain
    · exact plain
  · exact .fail _

theorem timestamp_serves :
    (timestamp context context.child arguments).Serves context arguments
      (arguments.map fun _ => .visited) := by
  unfold timestamp
  split
  · exact .pieces " AS TIMESTAMP WITH TIME ZONE)" (by simp [Dialect.castToTimestamp, isPostgresql])
      (by decide)
      (.cons (met_visited (by simp [Dialect.castToTimestamp, isPostgresql])) .nil)
  · exact .pieces " AT TIME ZONE " (by simp) (by decide)
      (.cons (met_visited (by simp)) (.cons (met_visited (by simp)) .nil))
  · exact .fail _

theorem durationCall_serves :
    (durationCall context arguments).Serves context arguments [.text] := by
  unfold durationCall
  split
  · split
    next found =>
      refine .attempt fun duration _ => ?_
      simp only [Dialect.duration, isPostgresql, Fragment.number]
      split
      · exact .fail _
      · exact .pieces _ (.head _) (by simp) (.cons (met_text found) .nil)
    · exact .fail _
  · exact .fail _

theorem intervalCall_serves :
    (intervalCall context context.child arguments).Serves context arguments
      [.visited, .unit] := by
  unfold intervalCall
  split
  next value unit =>
    refine .attempt fun name found => ?_
    have isUnit : Met context (context.dialect.interval (.nested (context.fragment value)) name)
        unit .unit := by
      unfold intervalUnit at found
      split at found
      next given => exact .inl (by simp [given])
      · split at found
        next named => exact .inr (by simp [named])
        · cases found
        · cases found
    exact .pieces "INTERVAL " (by simp [Dialect.interval, isPostgresql]) (by decide)
      (.cons (met_visited (by simp [Dialect.interval, isPostgresql])) (.cons isUnit .nil))
  · exact .fail _

omit isPostgresql in
theorem plainCall_serves (function : String) (arguments : List Tree) :
    (plainCall context.child function arguments).Serves context arguments
      (arguments.map fun _ => .visited) := by
  refine .pieces ")" (by simp [plainCall]) (by decide) (met_map fun argument member => ?_)
  exact (Includes.append_left _ _).trans ((Includes.append_right _ _).trans
    (.join (List.mem_map.mpr ⟨argument, member, rfl⟩)))

/-- **Functions do with their arguments what the table says**, except for the sizes of none or of
several values. -/
theorem callFunction_serves {arguments : List Tree}
    (written : function = "size" → arguments.length = 1) :
    (callFunction context context.child function arguments).Serves context arguments
      (ofFunction arguments function) := by
  unfold callFunction
  split
  · exact presence_serves isPostgresql arguments
  · exact sizeOfValue_serves isPostgresql fun _ visits => .cons visits .nil
  next several => exact absurd (List.length_eq_one_iff.mp (written rfl)) (by simpa using several)
  · split
    next found => exact matchTest_serves isPostgresql _ fun _ visits => .cons visits (.cons
      (met_text found) .nil)
    · exact .fail _
  iterate 6 exact typeCast_serves isPostgresql _ arguments
  · exact timestamp_serves isPostgresql arguments
  · exact durationCall_serves isPostgresql arguments
  · exact intervalCall_serves isPostgresql arguments
  next noTest noSize _ _ _ _ _ _ _ noDuration noInterval _ notTwo =>
    unfold ofFunction
    split
    · exact absurd rfl noTest
    · exact absurd rfl noSize
    · -- A match of other than two arguments is a call like any other.
      rw [if_neg fun two => ?_]
      · exact plainCall_serves _ arguments
      · obtain ⟨subject, pattern, rfl⟩ := List.length_eq_two.mp two
        exact notTwo subject pattern rfl rfl
    · exact absurd rfl noDuration
    · exact absurd rfl noInterval
    · exact plainCall_serves function arguments

end

/-! ## Arguments that are left out -/

section

variable {method : String}

variable {context : Context} {child : Tree → Fragment} {object other : Tree} {arguments : List Tree}
  {place : Nat}

/-- A function leaves out the arguments of a size, unless there is one. -/
theorem ofFunction_dropped (dropped : (ofFunction arguments function)[place]? = some .dropped) :
    function = "size" ∧ arguments.length ≠ 1 := by
  have member := List.mem_of_getElem? dropped
  unfold ofFunction at member
  split at member
  next => exact absurd member (by decide)
  next =>
    refine ⟨rfl, fun one => ?_⟩
    simp [one] at member
  next => split at member <;> simp at member
  all_goals simp at member

/-- Nothing is written for the size of none or of several values. -/
theorem callFunction_size (several : arguments.length ≠ 1) :
    callFunction context child "size" arguments = .empty := by
  match arguments, several with
  | [], _ | _ :: _ :: _, _ => rfl
  | [_], several => exact absurd rfl several

/-- What is put behind the first argument does not change it. -/
theorem head?_set_of_dropped (dropped : (ofFirst arguments)[place]? = some .dropped) :
    (arguments.set place other).head? = arguments.head? := by
  cases arguments with
  | nil => rfl
  | cons argument rest =>
    cases place with
    | zero => simp [ofFirst] at dropped
    | succ place => rfl

/-- One limit of a replacement that is no literal is as good as another. -/
theorem replacement_set (dropped : (ofMethod arguments "replace")[place]? = some .dropped)
    (again : (ofMethod (arguments.set place other) "replace")[place]? = some .dropped) :
    replacement child object (arguments.set place other) = replacement child object arguments := by
  by_cases long : 3 < arguments.length
  · have refused {list : List Tree} (long : 3 < list.length) :
        replacement child object list = .fail (.requires "replace" .twoOrThree) := by
      match list, long with
      | _ :: _ :: _ :: _ :: _, _ => rfl
    rw [refused long, refused (by simpa using long)]
  · -- The first two arguments are converted, so there are three, and the last one is left out.
    match arguments, place, dropped, again with
    | [part, substitute, limit], 2, dropped, again =>
      have noLiteral : limit.intLiteral? = none :=
        by simpa [ofMethod_replace, ofLimit] using dropped
      have noOther : other.intLiteral? = none := by simpa [ofMethod_replace, ofLimit] using again
      simp [replacement, noLiteral, noOther]
    | _, 0, dropped, _ | _, 1, dropped, _ => simp [ofMethod_replace] at dropped
    | [], _ + 2, dropped, _ | [_], _ + 2, dropped, _ | [_, _], _ + 2, dropped, _ =>
      simp [ofMethod_replace] at dropped
    | [_, _, _], _ + 3, dropped, _ => simp [ofMethod_replace] at dropped
    | _ :: _ :: _ :: _ :: _, _, _, _ => simp at long

/-- Where at most one part is asked for, one delimiter is as good as another. -/
theorem splitCall_set (dropped : (ofMethod arguments "split")[place]? = some .dropped) :
    splitCall context child object (arguments.set place other) =
      splitCall context child object arguments := by
  match arguments, place, dropped with
  | [delimiter, limit], 0, dropped =>
    have few : ofDelimiter limit = .dropped := Option.some.inj dropped
    unfold ofDelimiter at few
    cases found : limit.intLiteral? with
    | none => simp [found] at few
    | some token =>
      cases read : readInteger .decimal token.text with
      | error fault => simp [found, read, Except.toOption] at few
      | ok value =>
        obtain rfl | rfl : value = 0 ∨ value = 1 := by
          simpa [found, read, Except.toOption, or_iff_not_imp_left] using few
        · simp [splitCall, found, read, splitUpTo]
        · simp [splitCall, found, read, splitUpTo]
  | [_, _], 1, dropped | [], 0, dropped | [_], 0, dropped | _ :: _ :: _ :: _, 0, dropped =>
    cases Option.some.inj dropped
  | [_, _], _ + 2, dropped | [], _ + 1, dropped | [_], _ + 1, dropped | _ :: _ :: _ :: _, _ + 1,
    dropped => cases dropped

/-- One value that is no list is as good as another for a format. -/
theorem formatCall_set (dropped : (ofMethod arguments "format")[place]? = some .dropped)
    (again : (ofMethod (arguments.set place other) "format")[place]? = some .dropped) :
    formatCall context child object (arguments.set place other) =
      formatCall context child object arguments := by
  match arguments, place, dropped, again with
  | [values], 0, dropped, again =>
    have noList : values.unwrap? .listLit = none := by simpa [ofMethod_format, ofList] using dropped
    have noOther : other.unwrap? .listLit = none := by simpa [ofMethod_format, ofList] using again
    simp [formatCall, noList, noOther]
  | [_], _ + 1, dropped, _ => simp [ofMethod_format] at dropped
  | [], _, _, _ | _ :: _ :: _, 0, _, _ | _ :: _ :: _, 1, _, _ | _ :: _ :: _, _ + 2, _, _ => rfl

/-- A method is written in the same way with another argument in a place that it leaves out. -/
theorem callMethod_set (dropped : (ofMethod arguments method)[place]? = some .dropped)
    (again : (ofMethod (arguments.set place other) method)[place]? = some .dropped) :
    callMethod context child object method (arguments.set place other) =
      callMethod context child object method arguments := by
  have member := List.mem_of_getElem? dropped
  have read (argument : Tree) : ofPosition argument ≠ .dropped := by
    unfold ofPosition
    split <;> simp
  unfold ofMethod at member
  split at member
  iterate 10 simp at member
  iterate 2 simp [read] at member
  · simp only [List.mem_cons, reduceCtorEq, List.mem_map, read, and_false, exists_false,
      or_self] at member
  · exact replacement_set dropped again
  · exact splitCall_set dropped
  · exact formatCall_set dropped again
  iterate 5 rfl
  · have early : (ofFirst arguments)[place]? = some .dropped := dropped
    cases arguments with
    | nil => rfl
    | cons part rest =>
      cases place with
      | zero => simp [ofFirst] at early
      | succ place => rfl
  · split at member
    next isPart =>
      obtain ⟨⟨part, fromZero⟩, found⟩ := Option.isSome_iff_exists.mp isPart
      have early : (ofFirst arguments)[place]? = some .dropped :=
        ofMethod_of_part found arguments ▸ dropped
      rw [callMethod_of_part found, callMethod_of_part found, timestampPart,
        head?_set_of_dropped early, timestampPart]
    · cases member

end

end Convert

namespace Call

variable (context : Context) {call : Call}

/-- A call for which nothing is written. -/
theorem fragment_of_isEmpty (isEmpty : call.IsEmpty) : call.fragment context = .empty := by
  obtain ⟨receiver, name, arguments⟩ := call
  obtain ⟨rfl, rfl, several⟩ := isEmpty
  exact Convert.callFunction_size several

/-- All arguments of a call for which nothing is written are left out. -/
theorem uses_of_isEmpty (isEmpty : call.IsEmpty) :
    call.uses = call.arguments.map fun _ => .dropped := by
  obtain ⟨receiver, name, arguments⟩ := call
  obtain ⟨rfl, rfl, several⟩ := isEmpty
  simp [uses, Use.ofFunction, show ¬arguments.length = 1 from several]

/-- **Calls do with their arguments what the table says.** -/
theorem serves (isPostgresql : context.dialect = .postgresql) (written : ¬call.IsEmpty) :
    (call.fragment context).Serves context call.arguments call.uses := by
  obtain ⟨receiver, name, arguments⟩ := call
  cases receiver with
  | none =>
    refine Convert.callFunction_serves isPostgresql fun isSize => ?_
    by_contra several
    exact written ⟨rfl, isSize, several⟩
  | some object => exact Convert.callMethod_serves object arguments isPostgresql name

/-- **What is left out does not matter.** A call is converted in the same way with another argument
in a place that is left out. -/
theorem fragment_put {place : Nat} {other : Tree} (dropped : call.uses[place]? = some .dropped)
    (again : (call.put place other).uses[place]? = some .dropped) :
    (call.put place other).fragment context = call.fragment context := by
  obtain ⟨receiver, name, arguments⟩ := call
  cases receiver with
  | none =>
    obtain ⟨rfl, several⟩ := Convert.ofFunction_dropped dropped
    have stillSeveral : (arguments.set place other).length ≠ 1 := by simpa using several
    exact (Convert.callFunction_size stillSeveral).trans (Convert.callFunction_size several).symm
  | some object => exact Convert.callMethod_set dropped again

end Call

/-- A run that includes a text which is not empty makes the text longer. -/
theorem Fragment.Includes.text_ne {fragment : Fragment} {sql : String}
    (includes : fragment.Includes (.text sql)) (isText : sql ≠ "") {settings : Settings}
    {session : Session} (succeeds : (fragment.run settings session).fault = none) :
    (fragment.run settings session).session.text ≠ session.text := by
  obtain ⟨between, ran⟩ := includes settings session succeeds
  intro same
  have grown := ran.stays.text.length_le
  have behind := ran.behind.text.length_le
  rw [same] at grown
  have written : sql.length = 0 := by
    simp only [run, Session.write, String.toList_append, List.length_append, String.length_toList]
      at grown behind
    omega
  exact isText (String.length_eq_zero_iff.mp written)

/-- **What becomes of the arguments of a call.** A PostgreSQL call that is converted writes
something, unless it is the size of none or of several values, and its arguments are converted, read
or left out as the table says. An argument that is left out may be exchanged for any other that is.
A call that is not converted fails with a conversion error, or one of its tokens is to blame. -/
theorem Settings.visit_call (settings : Settings) (isPostgresql : settings.dialect = .postgresql)
    {tree : Tree} {call : Call} (isCall : tree.Calls call) (session : Session) :
    let outcome := settings.visit session tree
    (outcome.fault = none → (outcome.session.text = session.text ↔ call.IsEmpty) ∧
      List.Forall₂ (Use.Met settings.context (settings.context.fragment tree))
      call.arguments call.uses) ∧
    (∀ place other changed, call.uses[place]? = some .dropped →
      (call.put place other).uses[place]? = some .dropped → changed.Calls (call.put place other) →
      settings.visit session changed = outcome) ∧
    ∀ source cause, tree.Within source → outcome.fault = some cause →
    cause.Accounted .postgresql source := by
  intro outcome
  have converted := isCall.fragment_eq settings.context
  refine ⟨fun succeeds => ?_, fun place other changed dropped again changedCall => ?_,
    fun source cause within failed => ?_⟩
  · have ran : ((call.fragment settings.context).run settings session).fault = none := by
      rw [← converted]
      exact succeeds
    rw [converted]
    by_cases isEmpty : call.IsEmpty
    · have nothing : outcome.session.text = session.text := by
        show ((settings.context.fragment tree).run settings session).session.text = _
        rw [converted, Call.fragment_of_isEmpty _ isEmpty]
        simp [Fragment.empty, Fragment.run, Session.write]
      refine ⟨iff_of_true nothing isEmpty, ?_⟩
      rw [Call.uses_of_isEmpty isEmpty]
      exact Use.met_map fun _ _ => trivial
    · obtain ⟨⟨sql, isText, includes⟩, met⟩ := Call.serves settings.context isPostgresql isEmpty
      have longer : outcome.session.text ≠ session.text := by
        show ((settings.context.fragment tree).run settings session).session.text ≠ _
        rw [converted]
        exact includes.text_ne isText ran
      exact ⟨iff_of_false longer isEmpty, met settings session ran⟩
  · show (settings.context.fragment changed).run settings session =
      (settings.context.fragment tree).run settings session
    rw [changedCall.fragment_eq, Call.fragment_put _ dropped again, converted]
  · have covers := Dialect.accounting_covers settings.dialect source
    have each : (settings.context.fragment tree).Each (settings.dialect.accounting source) :=
      Context.each_of_covers covers within rfl
    rw [← isPostgresql]
    exact Fragment.run_fault each (fun value cause allowed => allowed cause)
      (.inl fun _ => .inl rfl) failed

/-- The delimiter of a split into one part is left out, and the limit is read. -/
theorem Settings.visit_call_split :
    let word (text : String) : Tree := .node .ident [.token ⟨.ident, text⟩]
    let limit : Tree := .node .literal [.token ⟨.int, "1"⟩]
    let split (delimiter : String) : Tree :=
      .node .memberDotArg [word "x", .token ⟨.ident, "split"⟩,
        .node .exprList [word delimiter, limit]]
    let call : Call := ⟨some (word "x"), "split", [word "y", limit]⟩
    let settings : Settings := {}
    let outcome := settings.visit .fresh (split "y")
    settings.dialect = .postgresql ∧ (split "y").Calls call ∧ call.uses = [.dropped, .number] ∧
      outcome.fault = none ∧ outcome.session.text = "ARRAY[x]" ∧
      List.Forall₂ (Use.Met settings.context (settings.context.fragment (split "y")))
      call.arguments call.uses ∧
      settings.visit .fresh (split "z") = outcome := by
  intro word limit split call settings outcome
  have isCall : (split "y").Calls call := .method rfl
  have changed : (split "z").Calls (call.put 0 (word "z")) := .method rfl
  obtain ⟨onSuccess, irrelevant, -⟩ := settings.visit_call rfl isCall .fresh
  have succeeds : outcome.fault = none := by decide +kernel
  exact ⟨rfl, isCall, by decide +kernel, succeeds, by decide +kernel, (onSuccess succeeds).2,
    irrelevant 0 (word "z") (split "z") (by decide +kernel) (by decide +kernel) changed⟩

/-- Arguments are left out without an error, and nothing is written for a size of two values. -/
theorem Settings.convert_without_arguments :
    let settings : Settings := {}
    settings.convert "size(a, b)" = .ok "" ∧ settings.convert "x.trim(y)" = .ok "TRIM(x)" ∧
      settings.convert "x.split(y, 1)" = .ok "ARRAY[x]" ∧
      settings.convert "\"%s\".format(x)" = .ok "FORMAT('%s')" := by
  decide +kernel

end CelWhere
