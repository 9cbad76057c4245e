import CelWhere.Proofs.Allowance.Construct

/-! # Where literals come from

Literal slots of a fragment are made in one place of the conversion only. Every construct around it
keeps the slots of its parts and adds none, so each slot of a converted tree holds the value of a
literal token of that tree:

* `Fragment.EachLiteral` — all slots of a fragment hold allowed literals;
* `Fragment.eachLiteral_iff` — that is an allowance of literals under which every fault is allowed;
* `Context.literals_of_tokens` — the slots of a converted tree come from the tokens of the tree. -/

namespace CelWhere

namespace Fragment

variable {allowed : Literal → Prop}

/-- The literals of a fragment in the order of their slots. -/
def literals : Fragment → List Literal
  | .literal value => [value]
  | .append first second => first.literals ++ second.literals
  | .nested body => body.literals
  | .comprehension body => body.literals
  | .binding _ body => body.literals
  | _ => []

/-- All slots of a fragment hold allowed literals. -/
def EachLiteral (allowed : Literal → Prop) (fragment : Fragment) : Prop :=
  ∀ value ∈ fragment.literals, allowed value

/-- The slots of two fragments one after the other are the slots of both. -/
theorem eachLiteral_append (first second : Fragment) :
    (first ++ second).EachLiteral allowed ↔
      first.EachLiteral allowed ∧ second.EachLiteral allowed := by
  show (∀ value ∈ first.literals ++ second.literals, allowed value) ↔ _
  simp only [List.mem_append, or_imp, forall_and, EachLiteral]

/-- Certain literals and all faults. -/
def Allowance.ofLiterals (allowed : Literal → Prop) : Allowance where
  literal := allowed
  fault _ := True
  refused _ := trivial

@[simp] theorem Allowance.literal_ofLiterals {value : Literal} :
    (ofLiterals allowed).literal value ↔ allowed value := .rfl

@[simp] theorem Allowance.fault_ofLiterals (cause : Fault) :
    (ofLiterals allowed).fault cause := trivial

/-- Where all faults are allowed, the leaves that matter are the literals. -/
theorem eachLiteral_iff (fragment : Fragment) :
    fragment.EachLiteral allowed ↔ fragment.Each (.ofLiterals allowed) := by
  induction fragment with
  | literal value => simp [EachLiteral, literals]
  | append first second firstIh secondIh =>
    have both := and_congr firstIh secondIh
    exact (eachLiteral_append first second).trans (both.trans (each_append first second).symm)
  | nested body ih => exact ih.trans (each_nested body).symm
  | comprehension body ih =>
    have opens : (Allowance.ofLiterals allowed).room ≠ some 0 := nofun
    exact ih.trans ((each_comprehension body).trans (and_iff_right opens)).symm
  | binding name body ih => exact ih.trans (each_binding name body).symm
  | text | known | unlessBound | fail => simp [EachLiteral, literals]

end Fragment

/-- The value of a literal token fills the slot that is made for it. -/
theorem literalOf_each (token : Token) :
    (literalOf token).Each (.ofLiterals fun value => literalOf token = .literal value) := by
  -- One case for each kind of token; those that are no literals fail or write text.
  unfold literalOf
  split
  · simp
  · simp
  · cases readInteger .marked token.text <;> simp
  · cases readInteger .marked (dropUnsignedMark token.text) <;> simp
  · split <;> simp
  · unfold withoutNull; split <;> simp
  · unfold withoutNull; split <;> simp
  · simp
  · simp
  · simp

/-- The literals of some tokens cover the trees that have no other tokens. -/
theorem Fragment.Allowance.ofLiterals_covers (dialect : Dialect) (source : List Token) :
    (ofLiterals fun value => ∃ token ∈ source, literalOf token = .literal value).Covers dialect
      fun tree => tree.tokens ⊆ source where
  hereditary := Tree.Hereditary.tokens_subset source
  shaped _ := .inr ⟨trivial, trivial⟩
  literal {token} within := by
    have member : token ∈ source := within (by simp [Tree.tokens])
    refine (eachLiteral_iff _).mp fun value found => ?_
    exact ⟨token, member, (eachLiteral_iff _).mpr (literalOf_each token) value found⟩
  position _ _ _ := trivial
  large _ _ _ _ := trivial
  duration _ _ := each_attempt (fun _ => trivial) fun _ _ =>
    Dialect.duration_each _ (fun _ => trivial) fun _ _ => trivial

/-- Every literal slot of a converted tree holds the value of a literal token of the tree. -/
theorem Context.literals_of_tokens (context : Context) (tree : Tree) :
    (context.fragment tree).EachLiteral fun value => ∃ token ∈ tree.tokens, literalOf token =
      .literal value := by
  -- The trees below have no other tokens than the whole tree, and that is all the steps need to
  -- know of them.
  rw [Fragment.eachLiteral_iff]
  exact Context.each_of_covers (Fragment.Allowance.ofLiterals_covers context.dialect tree.tokens)
    (List.Subset.refl _) rfl

end CelWhere
