import CelWhere.Introspect.Tables
import CelWhere.Proofs.Introspection.Catalog
import Mathlib.Data.List.TakeWhile

/-! # Tables of several datasets

BigQuery describes tables by references, which name a dataset. The catalog has the tables under
their short names, so tables of different datasets may share an entry, and the one asked for last is
what it holds.

* `Introspect.reference?` — the reference of a table;
* `Introspect.schema?` — the schema with which a table is described;
* `Introspect.bigqueryFrom_result` — tables that are all described are set in their order, by their
  short names. -/

namespace CelWhere.Introspect

variable {connection : Connection} {dataset : Option String} {tables : List String}

/-- The reference of a table: its name if this names a dataset, and the name in the default dataset
otherwise. -/
def reference? (dataset : Option String) (table : String) : Option String :=
  if '.' ∈ table.toList then some table else dataset.map (· ++ "." ++ table)

/-- The schema of a table as the database describes it. -/
def schema? (connection : Connection) (dataset : Option String) (table : String) : Option Schema :=
  ((reference? dataset table).bind fun reference => connection.tables.lookup reference).map
    fun columns =>
    ⟨columns.map bigqueryField⟩

/-- A name without a dot is short. -/
theorem shortName_of_not_dotted {table : String} (plain : '.' ∉ table.toList) :
    shortName table = table := by
  have whole : table.toList.reverse.takeWhile (· ≠ '.') = table.toList.reverse :=
    List.takeWhile_eq_self_iff.mpr fun c member => by
      have inName : c ∈ table.toList := List.mem_reverse.mp member
      simp only [ne_eq, decide_not, Bool.not_eq_true', decide_eq_false_iff_not]
      rintro rfl
      exact plain inName
  rw [shortName, whole, List.reverse_reverse, String.ofList_toList]

/-- A table that has a reference is looked up by it, and set by its short name. -/
theorem tableReference_of_reference? {table reference : String}
    (named : reference? dataset table = some reference) :
    tableReference dataset table = .ok (reference, shortName table) := by
  unfold reference? at named
  unfold tableReference
  by_cases dotted : '.' ∈ table.toList
  · rw [if_pos dotted] at named
    rw [if_pos (List.contains_iff_mem.mpr dotted), Option.some.inj named]
  · rw [if_neg dotted] at named
    obtain ⟨own, rfl, rfl⟩ := Option.map_eq_some_iff.mp named
    rw [if_neg (mt List.contains_iff_mem.mp dotted), shortName_of_not_dotted dotted]

/-- Tables that are all described are set in their order, by their short names. -/
theorem bigqueryFrom_result {schemas : String → Schema}
    (described : ∀ table ∈ tables, schema? connection dataset table = some (schemas table))
    (requests : List Request) (catalog : Catalog) :
    (bigqueryFrom connection dataset tables requests catalog).result =
      .ok (catalog.insertAll (tables.map fun table => (shortName table, schemas table))) := by
  induction tables generalizing requests catalog with
  | nil => rfl
  | cons table rest ih =>
    rw [List.forall_mem_cons] at described
    obtain ⟨columns, found, made⟩ := Option.map_eq_some_iff.mp described.1
    obtain ⟨reference, named, known⟩ := Option.bind_eq_some_iff.mp found
    rw [bigqueryFrom, tableReference_of_reference? named]
    dsimp only
    rw [known, List.map_cons, Catalog.insertAll_cons, ← made]
    exact ih described.2 _ _

/-- **Tables by their short names.** Where every table is described, the catalog has the short names
of the tables in the order in which they were asked for first, and each table has its own schema
there, unless a table of another dataset with the same short name is asked for behind it. -/
theorem bigquery_entries (connection : Connection) (dataset : Option String) (tables : List String)
    (described : ∀ table ∈ tables, (schema? connection dataset table).isSome) :
    ∃ catalog, (bigquery connection dataset tables).result = .ok catalog ∧
      catalog.map Prod.fst = (tables.map shortName).eraseDups ∧
      ∀ before table after, tables = before ++ table :: after →
        (∀ later ∈ after, shortName later = shortName table →
          reference? dataset later = reference? dataset table) →
        catalog.table? (shortName table) = schema? connection dataset table := by
  let schemas (table : String) : Schema := (schema? connection dataset table).getD ⟨[]⟩
  have known : ∀ table ∈ tables, schema? connection dataset table = some (schemas table) :=
    fun table member =>
    (Option.getD_of_ne_none (Option.isSome_iff_ne_none.mp (described table member)) _).symm
  refine ⟨_, bigqueryFrom_result known [] [], ?_, ?_⟩
  · rw [Catalog.keys_insertAll_nil, List.map_map]
    rfl
  · rintro before table after rfl settled
    rw [known table (by simp), List.map_append, List.map_cons]
    refine Catalog.table?_insertAll fun entry later sameName => ?_
    obtain ⟨other, member, rfl⟩ := List.mem_map.mp later
    have sameReference := settled other member sameName
    simp only [schemas, schema?, sameReference]

/-- Two tables with one short name, and one of the default dataset between them. -/
theorem bigquery_entries_shared :
    let connection : Connection :=
      { tables := [("sales.orders", [⟨"amount", "NUMERIC", "NULLABLE"⟩]),
          ("archive.orders", [⟨"lines", "JSON", "REPEATED"⟩]),
          ("sales.users", [⟨"id", "INTEGER", "REQUIRED"⟩])] }
    let tables := ["sales.orders", "users", "archive.orders"]
    (∀ table ∈ tables, (schema? connection (some "sales") table).isSome) ∧
      ∃ catalog, (bigquery connection (some "sales") tables).result = .ok catalog ∧
        catalog.map Prod.fst = ["orders", "users"] ∧
        catalog.table? "users" = some ⟨[{ name := "id" }]⟩ ∧
        catalog.table? "orders" =
        some ⟨[{ name := "lines", isJson := true, repeated := true }]⟩ := by
  intro connection tables
  have described : ∀ table ∈ tables, (schema? connection (some "sales") table).isSome := by decide
  obtain ⟨catalog, read, keys, entries⟩ :=
    bigquery_entries connection (some "sales") tables described
  refine ⟨described, catalog, read, keys, ?_, ?_⟩
  · exact entries ["sales.orders"] "users" ["archive.orders"] rfl (by decide)
  · exact entries ["sales.orders", "users"] "archive.orders" [] rfl (by decide)

/-- Two tables of different datasets: the catalog does not hold the schema of the first. -/
theorem bigquery_overwritten :
    let connection : Connection :=
      { tables := [("sales.orders", [⟨"amount", "NUMERIC", "NULLABLE"⟩]),
          ("archive.orders", [⟨"closed", "DATE", "NULLABLE"⟩])] }
    let tables := ["sales.orders", "archive.orders"]
    tables.Nodup ∧ (∀ table ∈ tables, (schema? connection none table).isSome) ∧
      ¬∃ catalog, (bigquery connection none tables).result = .ok catalog ∧
        ∀ table ∈ tables, ∃ entry ∈ catalog, schema? connection none table = some entry.2 := by
  intro connection tables
  refine ⟨by decide, by decide, ?_⟩
  rintro ⟨catalog, read, each⟩
  have whole : (bigquery connection none tables).result =
      .ok [("orders", ⟨[{ name := "closed" }]⟩)] := rfl
  obtain rfl := Except.ok.inj (whole.symm.trans read)
  obtain ⟨entry, member, same⟩ := each "sales.orders" (by decide)
  obtain rfl := List.mem_singleton.mp member
  have first : schema? connection none "sales.orders" = some ⟨[{ name := "amount" }]⟩ := rfl
  simp [first] at same

end CelWhere.Introspect
