import CelWhere.Convert.Context
import CelWhere.Limits
import CelWhere.Sql.Array
import CelWhere.Sql.Json

/-! # Selections -/

namespace CelWhere

/-- The root of a chain of field selections and the selected fields in order. -/
def Tree.fieldPath : Tree → Except Fault (Tree × List String)
  | .node .memberDot (object :: field :: _) =>
    object.fieldPath.map fun (root, fields) => (root, fields ++ [field.nameText])
  | .node .memberDot _ => .error .missingChild
  | .node .member [child] => child.fieldPath
  | .node .primary [child] => child.fieldPath
  | tree => .ok (tree, [])

/-- Induction on chains of selections: what holds of the root and passes to selections and to the
levels around them holds of the whole chain. -/
theorem Tree.fieldPath_induction {tree root : Tree} {fields : List String}
    {motive : Tree → List String → Prop} (start : motive root [])
    (select : ∀ object field rest before, motive object before →
      motive (.node .memberDot (object :: field :: rest)) (before ++ [field.nameText]))
    (level : ∀ rule child fields, rule = .member ∨ rule = .primary → motive child fields →
      motive (.node rule [child]) fields) (found : tree.fieldPath = .ok (root, fields)) :
    motive tree fields := by
  fun_induction fieldPath tree generalizing fields with
  | case1 object field rest ih =>
    cases inner : object.fieldPath with
    | error fault => simp [inner, Except.map] at found
    | ok path =>
      simp only [inner, Except.map, Except.ok.injEq, Prod.mk.injEq] at found
      obtain ⟨rfl, rfl⟩ := found
      exact select object field rest path.2 (ih inner)
  | case2 => simp at found
  | case3 child ih => exact level .member child fields (.inl rfl) (ih found)
  | case4 child ih => exact level .primary child fields (.inr rfl) (ih found)
  | case5 =>
    simp only [Except.ok.injEq, Prod.mk.injEq] at found
    obtain ⟨rfl, rfl⟩ := found
    exact start

theorem Tree.fieldPath_height {tree root : Tree} {fields : List String}
    (found : tree.fieldPath = .ok (root, fields)) : root.height ≤ tree.height := by
  refine fieldPath_induction (motive := fun tree _ => root.height ≤ tree.height)
    (Nat.le_refl _) ?_ ?_ found
  · intro object field rest _ below
    simp only [height, heights]
    omega
  · intro rule child _ _ below
    simp only [height, heights]
    omega

namespace Convert

variable (context : Context) (child : Tree → Fragment)

/-- Fields of a JSON value, selected one after the other. -/
def jsonSteps (base : Fragment) : List String → Fragment
  | [] => base
  | [field] => context.dialect.jsonField base field true
  | field :: rest => jsonSteps (context.dialect.jsonField base field false) rest

/-- A path from a table through its JSON field. -/
def jsonPath (children : List Tree) : Fragment :=
  .attempt (Tree.node .memberDot children).fieldPath fun (root, fields) =>
    match fields with
    | [] => child root
    | column :: rest => jsonSteps context (child root ++ ("." ++ column : String)) rest

/-- The selection of a field. -/
def selection (children : List Tree) : Fragment :=
  match children with
  | object :: field :: _ =>
    let plain := child object ++ "." ++ fieldName field.nameText
    .attempt object.root? fun root =>
      match root with
      | none => plain
      | some table =>
        .attempt (object.firstField field.nameText) fun first =>
          .known table first ++
            (if context.catalog.isJson table first then jsonPath context child children else plain)
  | _ => .fail .missingChild

/-- The selection of an element by a fixed number. -/
def fixedElement (object : Tree) (index : Int) : Fragment :=
  if index < 0 then .fail (.negativeIndex index)
  else if indexLimit < index then .fail (.indexOverflow index)
  else context.dialect.elementAt (child object) index

/-- The selection of an element by a key, a number or an expression. -/
def indexing (children : List Tree) : Fragment :=
  match children with
  | object :: index :: _ =>
    match index.stringLiteral?, index.intLiteral? with
    | some token, _ =>
      match columnNameFault? token.unquoted with
      | some fault => .fail fault
      | none => child object ++ ("." ++ token.unquoted : String)
    | none, some token =>
      .attempt (readInteger .decimal token.text) (fixedElement context child object)
    | none, none => context.dialect.element (child object) (child index)
  | _ => .fail .missingChild

/-! ## Lists, maps and literals -/

/-- Expressions divided by commas. -/
def expressions (children : List Tree) : Fragment :=
  .join ", " (children.map child)

/-- The values of a list of keys and values, divided by commas. -/
def entryValues : List Tree → Fragment
  | [] => .empty
  | [_] => .fail .missingChild
  | [_, value] => child value
  | _ :: value :: rest => child value ++ ", " ++ entryValues rest

/-- A list. -/
def listOf (children : List Tree) : Fragment :=
  let elements :=
    match children with
    | .node .exprList items :: _ => expressions child items
    | _ => .empty
  context.dialect.arrayOpen ++ elements ++ context.dialect.arrayClose

/-- A map, of which only the values are written. -/
def mapOf (children : List Tree) : Fragment :=
  let values :=
    match children with
    | .node .mapInits entries :: _ => entryValues child entries
    | _ => .empty
  context.dialect.structOpen ++ values ++ context.dialect.structClose

/-- An expression in parentheses. -/
def parenthesised : List Tree → Fragment
  | inner :: _ => "(" ++ child inner ++ ")"
  | [] => "(" ++ .fail .missingChild

/-- A literal. -/
def literal : List Tree → Fragment
  | .token token :: _ => literalOf token
  | .node _ _ :: _ => .fail .literalShape
  | [] => .fail .missingChild

/-- A name. -/
def name : List Tree → Fragment
  | child :: _ => reference child.nameText
  | [] => .fail .missingChild

/-- A name with a leading dot. -/
def dottedName : List Tree → Fragment
  | child :: _ => .text ("." ++ child.nameText)
  | [] => .fail .missingChild

end Convert

end CelWhere
