import CelWhere.Index.Advice
import CelWhere.Proofs.Advice.Best

/-! # How an advisor is consulted

Patterns and recommendations are folded by the same rule. What is left is described without the
fold: a list of one entry for each key, in the order in which the keys occur first. An advisor may
remember what it was asked and may fail, so it is run on a state of its own, and each question finds
the state that the one before it has left.

* `Index.KeepsBest` — a list is what competing entries leave, and `Index.keepsBest_iff` that no
  other list is;
* `Index.Consults` — an advisor is asked about patterns one after the other;
* `Index.run_mapM_eq_ok_iff`, `Index.run_mapM_eq_error_iff` — the ways in which asking about all
  patterns ends. -/

namespace CelWhere.Index

/-! ## What is kept, in order -/

section

variable {α : Type} {key : α → String} {rank : α → Nat} {entries kept : List α}

/-- A list holds one entry for each key, in the order in which the keys occur first, and each of
them is the first entry of its key with the highest rank. -/
structure KeepsBest (key : α → String) (rank : α → Nat) (entries kept : List α) : Prop where
  /-- The keys are those of the entries, each where it occurs first. -/
  keys : kept.map key = (entries.map key).eraseDups
  /-- What is kept wins its key. -/
  best : ∀ entry ∈ kept, Best key rank entries entry

/-- The keys that are kept are those of the entries, each where it occurs first. -/
theorem keys_keepBestOf (entries : List α) :
    (keepBestOf key rank entries []).map key = (entries.map key).eraseDups := by
  induction entries using List.reverseRecOn with
  | nil => rfl
  | append_singleton rest latest ih =>
    rw [keepBestOf_append, keepBestOf_cons, keepBestOf_nil, keys_keepBest, ih, List.map_append,
      List.eraseDups_append]
    by_cases known : key latest ∈ rest.map key
    · have gone : (List.map key [latest]).removeAll (rest.map key) = [] := by
        simpa [List.removeAll] using known
      rw [if_pos (List.mem_eraseDups.mpr known), gone, List.eraseDups_nil, List.append_nil]
    · have stays : (List.map key [latest]).removeAll (rest.map key) = [key latest] := by
        simpa [List.removeAll] using known
      rw [if_neg (mt List.mem_eraseDups.mp known), stays]
      rfl

/-- The fold leaves such a list. -/
theorem keepsBest_keepBestOf (entries : List α) :
    KeepsBest key rank entries (keepBestOf key rank entries []) :=
  ⟨keys_keepBestOf entries, fun _ member => mem_keepBestOf.mp member⟩

/-- Two lists of winners with the same keys are one. -/
theorem KeepsBest.unique {other : List α} (keeps : KeepsBest key rank entries kept)
    (otherKeeps : KeepsBest key rank entries other) : kept = other := by
  have sameKeys : kept.map key = other.map key := keeps.keys.trans otherKeeps.keys.symm
  have winners := keeps.best
  have otherWinners := otherKeeps.best
  clear keeps otherKeeps
  induction kept generalizing other with
  | nil => exact (List.map_eq_nil_iff.mp sameKeys.symm).symm
  | cons entry rest ih =>
    cases other with
    | nil => simp at sameKeys
    | cons rival rivals =>
      obtain ⟨sameKey, sameRest⟩ := List.cons.inj sameKeys
      -- The two entries in front win the same key.
      obtain rfl := (winners entry (.head _)).eq_of_key_eq (otherWinners rival (.head _)) sameKey
      rw [ih sameRest (fun other member => winners other (.tail _ member))
        fun other member => otherWinners other (.tail _ member)]

/-- **The fold, described.** What competing entries leave is the one list that keeps the best of
them. -/
theorem keepsBest_iff :
    KeepsBest key rank entries kept ↔ kept = keepBestOf key rank entries [] := by
  constructor
  · intro keeps
    exact keeps.unique (keepsBest_keepBestOf entries)
  · rintro rfl
    exact keepsBest_keepBestOf entries

end

/-! ## Questions one after the other -/

variable {σ : Type} {advisor : Pattern → StateT σ (Except Fault) (Option Recommendation)}
  {state final : σ} {patterns : List Pattern} {answers : List (Option Recommendation)}

/-- An advisor is asked once about each pattern of a list, from the first to the last, and
answers. -/
inductive Consults (advisor : Pattern → StateT σ (Except Fault) (Option Recommendation)) :
    σ → List Pattern → List (Option Recommendation) → σ → Prop
  /-- There is no pattern to ask about. -/
  | done (state : σ) : Consults advisor state [] [] state
  /-- The first pattern is asked about, and then the others in the state that this leaves. -/
  | ask {state next final : σ} {pattern : Pattern} {rest : List Pattern}
      {answer : Option Recommendation} {answers : List (Option Recommendation)}
      (answered : (advisor pattern).run state = .ok (answer, next))
      (others : Consults advisor next rest answers final) :
      Consults advisor state (pattern :: rest) (answer :: answers) final

/-- Asking about one more pattern. -/
theorem run_mapM_cons (pattern : Pattern) (rest : List Pattern) :
    ((pattern :: rest).mapM advisor).run state =
      (advisor pattern).run state >>= fun answered =>
        (rest.mapM advisor).run answered.2 >>= fun others =>
          pure (answered.1 :: others.1, others.2) := by
  rw [List.mapM_cons]
  simp only [StateT.run_bind, StateT.run_pure]

/-- Asking about all patterns succeeds if each of them is answered. -/
theorem run_mapM_eq_ok_iff :
    (patterns.mapM advisor).run state = .ok (answers, final) ↔
      Consults advisor state patterns answers final := by
  induction patterns generalizing state answers with
  | nil =>
    rw [List.mapM_nil]
    constructor
    · intro asked
      obtain ⟨rfl, rfl⟩ := Prod.mk.inj (Except.ok.inj asked)
      exact .done state
    · rintro ⟨⟩
      rfl
  | cons pattern rest ih =>
    rw [run_mapM_cons]
    constructor
    · intro asked
      cases first : (advisor pattern).run state with
      | error fault => simp [first, Bind.bind, Except.bind] at asked
      | ok answered =>
        cases others : (rest.mapM advisor).run answered.2 with
        | error fault => simp [first, others, Bind.bind, Except.bind] at asked
        | ok found =>
          rw [first] at asked
          obtain ⟨rfl, rfl⟩ : answered.1 :: found.1 = answers ∧ found.2 = final := by
            simpa [others, Bind.bind, Except.bind, Pure.pure, Except.pure] using asked
          exact .ask first (ih.mp others)
    · rintro (_ | ⟨answered, others⟩)
      rw [answered]
      show (rest.mapM advisor).run _ >>= _ = _
      rw [ih.mpr others]
      rfl

/-- Asking about all patterns fails where the advisor fails, behind patterns that it has
answered. -/
theorem run_mapM_eq_error_iff {fault : Fault} :
    (patterns.mapM advisor).run state = .error fault ↔
      ∃ before pattern after answers between, patterns = before ++ pattern :: after ∧
        Consults advisor state before answers between ∧
        (advisor pattern).run between = .error fault := by
  induction patterns generalizing state with
  | nil =>
    rw [List.mapM_nil]
    constructor
    · intro asked
      cases asked
    · rintro ⟨before, pattern, after, -, -, split, -⟩
      simp at split
  | cons first rest ih =>
    rw [run_mapM_cons]
    constructor
    · intro asked
      cases answered : (advisor first).run state with
      | error cause =>
        rw [answered] at asked
        obtain rfl := Except.error.inj asked
        exact ⟨[], first, rest, [], state, rfl, .done state, answered⟩
      | ok answer =>
        cases others : (rest.mapM advisor).run answer.2 with
        | error cause =>
          rw [answered] at asked
          obtain rfl : cause = fault := by simpa [others, Bind.bind, Except.bind] using asked
          obtain ⟨before, pattern, after, answers, between, rfl, consults, fails⟩ := ih.mp others
          exact ⟨first :: before, pattern, after, answer.1 :: answers, between, rfl,
            .ask answered consults, fails⟩
        | ok found =>
          simp [answered, others, Bind.bind, Except.bind, Pure.pure, Except.pure] at asked
    · rintro ⟨before, pattern, after, answers, between, split, consults, fails⟩
      cases consults with
      | done =>
        obtain ⟨rfl, rfl⟩ := List.cons.inj split
        rw [fails]
        rfl
      | ask answered others =>
        obtain ⟨rfl, rfl⟩ := List.cons.inj split
        rw [answered]
        show (List.mapM advisor _).run _ >>= _ = _
        rw [ih.mpr ⟨_, pattern, after, _, between, rfl, others, fails⟩]
        rfl

/-! ## Advice for a tree -/

/-- A result fails with the same fault whatever is made of its value. -/
theorem map_eq_error_iff {α β : Type} {result : Except Fault α} {change : α → β} {fault : Fault} :
    result.map change = .error fault ↔ result = .error fault := by
  cases result <;> simp [Except.map]

variable {catalog : Catalog} {tree : Tree}

/-- A walk that ends early gives its fault. -/
theorem run_adviseTree_of_fault {fault : Fault}
    (failed : (findings catalog tree).fault = some fault) :
    (adviseTree advisor catalog tree).run state = .error fault := by
  rw [adviseTree, collectPatterns, failed]
  rfl

/-- Behind a walk that does not fail, the advisor is asked about the patterns that are kept. -/
theorem run_adviseTree (walked : (findings catalog tree).fault = none) :
    (adviseTree advisor catalog tree).run state =
      (((keepPatterns (findings catalog tree).patterns []).mapM advisor).run state).map
      fun answered =>
        ((keepPatterns (findings catalog tree).patterns [],
          keepBestOf Recommendation.column (·.indexType.priority) answered.1.reduceOption []),
          answered.2) := by
  rw [adviseTree, collectPatterns, walked]
  dsimp only
  rw [advise, StateT.run_bind, StateT.run_bind]
  cases ((keepPatterns (findings catalog tree).patterns []).mapM advisor).run state with
  | error fault => rfl
  | ok answered => rfl

/-- **Patterns and recommendations are folded by one law.** Any patterns leave one entry for each
column, in the order in which the columns occur first, and it is the first pattern of its column
with the highest priority. For a tree, an advisor is asked once about each entry that the patterns
of the tree leave, in that order, and its recommendations leave one entry for each recommended
column by the same law. This fails only where the walk over the tree or the advisor fails. -/
theorem adviseTree_keepsBest :
    (∀ patterns : List Pattern, KeepsBest Pattern.column (·.type.priority) patterns
      (keepPatterns patterns [])) ∧
    ∀ {σ : Type} (advisor : Pattern → StateT σ (Except Fault) (Option Recommendation))
      (catalog : Catalog) (tree : Tree) (state : σ),
      let found := findings catalog tree
      (∀ asked recommendations final,
        (adviseTree advisor catalog tree).run state = .ok ((asked, recommendations), final) ↔
          found.fault = none ∧ KeepsBest Pattern.column (·.type.priority) found.patterns asked ∧
            ∃ answers, Consults advisor state asked answers final ∧
              KeepsBest Recommendation.column (·.indexType.priority) answers.reduceOption
              recommendations) ∧
      ∀ fault, (adviseTree advisor catalog tree).run state = .error fault ↔
        found.fault = some fault ∨
          found.fault = none ∧ ∃ before pattern after answers between,
            KeepsBest Pattern.column (·.type.priority) found.patterns (before ++ pattern :: after) ∧
              Consults advisor state before answers between ∧
              (advisor pattern).run between = .error fault := by
  refine ⟨fun patterns => keepsBest_keepBestOf patterns, ?_⟩
  intro σ advisor catalog tree state found
  cases walked : found.fault with
  | some early =>
    have ended : (adviseTree advisor catalog tree).run state = .error early :=
      run_adviseTree_of_fault walked
    simp [ended]
  | none =>
    simp only [keepsBest_iff, true_and, false_or, reduceCtorEq]
    rw [run_adviseTree walked]
    constructor
    · intro asked recommendations final
      constructor
      · intro advised
        cases answered : ((keepPatterns found.patterns []).mapM advisor).run state with
        | error fault => simp [found, answered, Except.map] at advised
        | ok given =>
          obtain ⟨⟨rfl, rfl⟩, rfl⟩ : (_ = asked ∧ _ = recommendations) ∧ given.2 = final := by
            simpa [found, answered, Except.map] using advised
          exact ⟨rfl, given.1, run_mapM_eq_ok_iff.mp answered, rfl⟩
      · rintro ⟨rfl, answers, consults, rfl⟩
        have answered := run_mapM_eq_ok_iff.mpr consults
        simp only [keepPatterns, found] at answered ⊢
        rw [answered]
        rfl
    · intro fault
      rw [map_eq_error_iff, run_mapM_eq_error_iff]
      simp only [eq_comm, keepPatterns, found]

end CelWhere.Index
