import CelWhere.Proofs.Advice.Best
import CelWhere.Proofs.Advice.Use

/-! # Recommendations for expressions

PostgreSQL has an index for every pattern. Of the patterns of one column the winner is kept, so each
column that an expression uses gets one recommendation, which is the one for its winner.

* `Index.postgresAdvisor` — the advisor of PostgreSQL;
* `Index.Wins` — a pattern wins its column among those that the walk finds;
* `Index.adviseTree_postgres` — the recommendations for an expression are those for the winners. -/

namespace CelWhere.Index

/-- The advisor of PostgreSQL. -/
def postgresAdvisor : Advisor := fun pattern => .ok (some (recommendPostgres pattern))

theorem advisor?_postgresql : advisor? .postgresql = some postgresAdvisor := rfl

/-! ## The index for a pattern -/

/-- An index is recommended for the column of the pattern. -/
@[simp] theorem recommendPostgres_column (pattern : Pattern) :
    (recommendPostgres pattern).column = pattern.column := by
  cases pattern with
  | mk column type tableHint => cases type <;> rfl

/-- Comparisons are served by a balanced tree, all other uses by an inverted index. -/
theorem recommendPostgres_indexType (pattern : Pattern) :
    (recommendPostgres pattern).indexType = if pattern.type = .comparison then .btree
      else .gin := by
  cases pattern with
  | mk column type tableHint => cases type <;> rfl

/-- Comparisons rank lowest. -/
theorem PatternType.priority_le_one {type : PatternType} :
    type.priority ≤ 1 ↔ type = .comparison := by
  cases type <;> simp [priority]

/-! ## The winners -/

variable {catalog : Catalog} {tree : Tree} {pattern : Pattern}

/-- A pattern wins its column among the patterns that the walk over a tree finds. -/
def Wins (catalog : Catalog) (tree : Tree) (pattern : Pattern) : Prop :=
  Best Pattern.column (·.type.priority) (detected catalog tree) pattern

/-- Each column that is used has a winner. -/
theorem exists_wins (found : pattern ∈ detected catalog tree) :
    ∃ winner, Wins catalog tree winner ∧ winner.column = pattern.column :=
  exists_best found

/-- The winner of a column is a comparison only if nothing but comparisons is found for the
column. -/
theorem Wins.comparison_iff (wins : Wins catalog tree pattern) :
    pattern.type = .comparison ↔
      ∀ other ∈ detected catalog tree, other.column = pattern.column →
      other.type = .comparison := by
  constructor
  · intro isComparison other found same
    have notHigher := wins.rank_le found same
    rw [isComparison] at notHigher
    exact PatternType.priority_le_one.mp notHigher
  · intro each
    exact each pattern wins.mem rfl

/-- Asking the advisor of PostgreSQL about patterns of different columns gives one recommendation
for each. -/
theorem advise_postgres {patterns : List Pattern} (distinct : (patterns.map Pattern.column).Nodup) :
    advise postgresAdvisor patterns = .ok (patterns.map recommendPostgres) := by
  have asked : patterns.mapM postgresAdvisor =
      .ok (patterns.map fun pattern => some (recommendPostgres pattern)) := by
    clear distinct
    induction patterns with
    | nil => rfl
    | cons first rest ih =>
      rw [List.mapM_cons, ih]
      rfl
  have answered : (patterns.map fun pattern => some (recommendPostgres pattern)).filterMap id =
      patterns.map recommendPostgres := by
    simp [List.filterMap_map]
  have columns : (patterns.map recommendPostgres).map Recommendation.column =
      patterns.map Pattern.column := by
    simp
  rw [advise, asked]
  show Except.ok (keepBestOf Recommendation.column _ _ []) = _
  rw [answered, keepBestOf_of_nodup (by rwa [List.nil_append, columns])]
  rfl

/-- **Recommendations for expressions.** They are those for the winners, one for each column. -/
theorem adviseTree_postgres (catalog : Catalog) (grammatical : tree.Grammatical) :
    ∃ kept : List Pattern, adviseTree postgresAdvisor catalog tree =
      .ok (kept, kept.map recommendPostgres) ∧
      (kept.map Pattern.column).Nodup ∧ ∀ pattern, pattern ∈ kept ↔ Wins catalog tree pattern := by
  have distinct : ((keepPatterns (detected catalog tree) []).map Pattern.column).Nodup :=
    nodup_keepBestOf _ (by simp)
  refine ⟨keepPatterns (detected catalog tree) [], ?_, distinct, fun pattern => mem_keepBestOf⟩
  have walked : collectPatterns catalog tree [] =
      (keepPatterns (detected catalog tree) [], none) := by
    rw [collectPatterns, fault_findings grammatical]
    rfl
  rw [adviseTree, walked]
  show (advise postgresAdvisor _ >>= fun advice => pure (_, advice)) = _
  rw [advise_postgres distinct]
  rfl

/-- The recommended columns are those of the patterns that the walk finds. -/
theorem mem_columns {kept : List Pattern}
    (winners : ∀ pattern, pattern ∈ kept ↔ Wins catalog tree pattern) {column : String} :
    column ∈ (kept.map recommendPostgres).map Recommendation.column ↔
      ∃ pattern ∈ detected catalog tree, pattern.column = column := by
  simp only [List.map_map, Function.comp_def, recommendPostgres_column, List.mem_map]
  constructor
  · rintro ⟨pattern, isKept, rfl⟩
    exact ⟨pattern, ((winners pattern).mp isKept).mem, rfl⟩
  · rintro ⟨pattern, found, rfl⟩
    obtain ⟨winner, wins, same⟩ := exists_wins found
    exact ⟨winner, (winners winner).mpr wins, same⟩

end CelWhere.Index
