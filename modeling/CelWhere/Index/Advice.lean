import CelWhere.Index.Pattern
import CelWhere.Sql.Dialect

/-! # Index recommendations

An advisor answers a pattern with the index it recommends, or with none. Of the recommendations for
one column the one with the most special index is kept. -/

namespace CelWhere.Index

/-- The kinds of indexes. -/
inductive IndexType
  /-- A balanced tree. -/
  | btree
  /-- A generalised inverted index. -/
  | gin
  /-- A generalised search tree. -/
  | gist
  /-- An adaptive radix tree. -/
  | art
  /-- A clustering of the table. -/
  | clustering
  /-- A search index. -/
  | searchIndex
  /-- A full text index. -/
  | fulltext
  deriving DecidableEq, Repr, Inhabited

namespace IndexType

/-- All kinds of indexes. -/
def all : List IndexType :=
  [.btree, .gin, .gist, .art, .clustering, .searchIndex, .fulltext]

/-- The name of a kind of index. -/
def name : IndexType → String
  | .btree => "btree"
  | .gin => "gin"
  | .gist => "gist"
  | .art => "art"
  | .clustering => "clustering"
  | .searchIndex => "search_index"
  | .fulltext => "fulltext"

/-- The kind of index of a name. -/
def ofName (name : String) : Except Fault IndexType :=
  match all.find? (·.name = name) with
  | some type => .ok type
  | none => .error (.unknownIndexType name)

/-- How special a kind of index is. -/
def priority : IndexType → Nat
  | .btree | .art | .clustering => 1
  | .fulltext => 2
  | .gin | .gist | .searchIndex => 3

end IndexType

/-- A recommended index. -/
structure Recommendation where
  /-- The column. -/
  column : String
  /-- The kind of index. -/
  indexType : IndexType
  /-- The statement that makes the index. -/
  expression : String
  /-- Why the index is recommended. -/
  reason : String
  deriving DecidableEq, Repr, Inhabited

/-- The answer to a pattern: a recommendation or none, unless the advisor itself fails. -/
abbrev Advisor := Pattern → Except Fault (Option Recommendation)

/-- The recommendations of an advisor for patterns, one for each column. It is asked about the
patterns one after the other, and may do more than answer. -/
def advise {m : Type → Type} [Monad m] (advisor : Pattern → m (Option Recommendation))
    (patterns : List Pattern) :
    m (List Recommendation) := do
  let answers ← patterns.mapM advisor
  return keepBestOf Recommendation.column (·.indexType.priority) (answers.filterMap id) []

/-- The patterns of a tree and the recommendations of an advisor for them. -/
def adviseTree {m : Type → Type} [Monad m] [MonadExceptOf Fault m]
    (advisor : Pattern → m (Option Recommendation)) (catalog : Catalog) (tree : Tree) :
    m (List Pattern × List Recommendation) := do
  match collectPatterns catalog tree [] with
  | (_, some fault) => throw fault
  | (patterns, none) => return (patterns, ← advise advisor patterns)

/-! ## PostgreSQL -/

/-- The table in the statement that makes an index for a pattern. -/
def Pattern.table (pattern : Pattern) : String :=
  if pattern.tableHint = "" then "table_name" else pattern.tableHint

/-- The statement that makes a generalised inverted index. -/
def ginStatement (pattern : Pattern) (mark operators : String) : String :=
  "CREATE INDEX idx_" ++ pattern.table ++ "_" ++ pattern.column ++ "_" ++ mark ++ " ON " ++
    pattern.table ++
    " USING GIN (" ++ pattern.column ++ operators ++ ")"

/-- The index that PostgreSQL has for a pattern. -/
def recommendPostgres (pattern : Pattern) : Recommendation :=
  let column := pattern.column
  match pattern.type with
  | .comparison =>
    { column
      indexType := .btree
      expression :=
        "CREATE INDEX idx_" ++ pattern.table ++ "_" ++ column ++ " ON " ++ pattern.table ++
        " (" ++ column ++ ")"
      reason := "BTree index for comparison operations on " ++ column }
  | .jsonAccess =>
    { column
      indexType := .gin
      expression := ginStatement pattern "gin" ""
      reason := "GIN index for JSON access on " ++ column }
  | .regexMatch =>
    { column
      indexType := .gin
      expression := ginStatement pattern "trgm" " gin_trgm_ops"
      reason := "GIN index with pg_trgm for regex matching on " ++ column }
  | .arrayMembership =>
    { column
      indexType := .gin
      expression := ginStatement pattern "gin" ""
      reason := "GIN index for array membership on " ++ column }
  | .arrayComprehension | .jsonArrayComprehension =>
    { column
      indexType := .gin
      expression := ginStatement pattern "gin" ""
      reason := "GIN index for comprehension on " ++ column }

/-- The advisor of a dialect. -/
def advisor? : Dialect → Option Advisor
  | .postgresql => some fun pattern => .ok (some (recommendPostgres pattern))
  | _ => none

/-- The patterns that a dialect's advisor knows. -/
def supportedPatterns : Dialect → List PatternType
  | .postgresql => PatternType.all
  | _ => []

/-! ## Advice by rules -/

/-- What is recommended for a pattern type. -/
structure AdviceRule where
  /-- The name of the kind of index. -/
  indexType : String
  /-- The column to recommend instead of the pattern's own. -/
  column : Option String := none
  deriving Repr, Inhabited

/-- The advisor that follows rules given by the names of pattern types. -/
def ruleAdvisor (rules : List (String × AdviceRule)) : Advisor := fun pattern =>
  match rules.lookup pattern.type.name with
  | none => .ok none
  | some rule =>
    (IndexType.ofName rule.indexType).map fun indexType =>
      some
        { column := rule.column.getD pattern.column
          indexType
          expression := pattern.tableHint ++ "." ++ pattern.column
          reason := pattern.type.name }

end CelWhere.Index
