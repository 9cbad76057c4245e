import CelWhere.Introspect.Columns
import CelWhere.Fault.Message
import CelWhere.Proofs.Introspection.Catalog
import Mathlib.Data.List.Induction

/-! # Columns by their tables

Three databases list the columns of several tables in one answer, whose rows may come in any order
and may belong to tables that nobody asked for. Grouping the rows loses none of them and mixes none
of them up.

* `Introspect.columnsOf` — the columns of a table among rows;
* `Introspect.Collects` — what is to come of asking for the columns of tables;
* `Introspect.readColumns_collects` — it comes of reading the rows of an answer. -/

namespace CelWhere.Introspect

variable {toField : ColumnRow → Field} {source : ColumnSource} {tables : List String}
  {connection : Connection}

/-- Whether some row belongs to a table. -/
def isListed (rows : List ColumnRow) (table : String) : Bool :=
  rows.any (·.table = table)

/-- The columns of a table among rows, in the order of the rows. -/
def columnsOf (toField : ColumnRow → Field) (rows : List ColumnRow) (table : String) : List Field :=
  (rows.filter (·.table = table)).map toField

/-- What is to come of asking for the columns of tables where the answer has the given rows. -/
structure Collects (rows : List ColumnRow) (toField : ColumnRow → Field) (source : ColumnSource)
    (tables : List String) (result : Except Fault Catalog) : Prop where
  /-- It succeeds exactly if every table is listed. -/
  ok_iff : (∃ catalog, result = .ok catalog) ↔ ∀ table ∈ tables, isListed rows table
  /-- Otherwise the first table that is not listed is reported. -/
  missing : ∀ table, tables.find? (!isListed rows ·) = some table →
    ∃ fault, result = .error fault ∧ fault.faultClass = .refused .introspection ∧
      fault.message = "table not found: " ++ Text.quoted table ∧
      fault.internal = "table " ++ Text.quoted table ++ " not found " ++ source.describe
  /-- The tables of the catalog are those asked for, in the order in which they were asked for
  first. -/
  keys : ∀ catalog, result = .ok catalog → catalog.map Prod.fst = tables.eraseDups
  /-- Each table has the columns of its own rows. -/
  fields : ∀ catalog, result = .ok catalog →
    ∀ table ∈ tables, catalog.table? table = some ⟨columnsOf toField rows table⟩

/-! ## Groups -/

/-- The fields of the table of a row grow by the field of the row, and those of other tables
stay. -/
theorem lookup_addField (groups : Groups) (table : String) (field : Field) (other : String) :
    (addField table field groups).lookup other =
      if other = table then some ((groups.lookup table).getD [] ++ [field])
      else groups.lookup other := by
  induction groups with
  | nil => exact lookup_entry other table [field] []
  | cons group rest ih =>
    obtain ⟨name, fields⟩ := group
    rw [addField]
    by_cases same : name = table
    · subst same
      rw [if_pos rfl, lookup_entry, lookup_entry, lookup_entry, if_pos rfl, Option.getD_some]
      by_cases here : other = name
      · rw [if_pos here, if_pos here]
      · rw [if_neg here, if_neg here, if_neg here]
    · rw [if_neg same, lookup_entry, lookup_entry, lookup_entry, if_neg (Ne.symm same), ih]
      by_cases here : other = name
      · rw [if_pos here, if_neg (here ▸ same), if_pos here]
      · rw [if_neg here, if_neg here]

/-- The last row is grouped last. -/
theorem groupRows_concat (rows : List ColumnRow) (row : ColumnRow) :
    groupRows toField (rows ++ [row]) = addField row.table (toField row) (groupRows toField rows) :=
  List.foldl_append

/-- A table has a group exactly if some row belongs to it. -/
theorem isNone_lookup_groupRows (rows : List ColumnRow) (table : String) :
    ((groupRows toField rows).lookup table).isNone = !isListed rows table := by
  unfold isListed
  induction rows using List.reverseRecOn with
  | nil => rfl
  | append_singleton rest row ih =>
    rw [groupRows_concat, lookup_addField, List.any_append]
    by_cases own : table = row.table
    · simp [own]
    · simp [own, Ne.symm own, ih]

/-- The group of a table holds its columns. -/
theorem getD_lookup_groupRows (rows : List ColumnRow) (table : String) :
    ((groupRows toField rows).lookup table).getD [] = columnsOf toField rows table := by
  unfold columnsOf
  induction rows using List.reverseRecOn with
  | nil => rfl
  | append_singleton rest row ih =>
    rw [groupRows_concat, lookup_addField, List.filter_append, List.map_append, ← ih]
    by_cases own : table = row.table
    · simp [own]
    · simp [own, Ne.symm own]

/-! ## Schemas out of groups -/

/-- The first table without a group is the fault; if there is none, the tables are set in their
order. -/
theorem catalogOf_eq (groups : Groups) (source : ColumnSource) (tables : List String)
    (catalog : Catalog) :
    catalogOf groups source tables catalog =
      (tables.find? fun table => (groups.lookup table).isNone).elim
        (.ok (catalog.insertAll (tables.map fun table => (table, ⟨(groups.lookup table).getD []⟩))))
        fun table => .error (.introspection (.notFound table source)) := by
  induction tables generalizing catalog with
  | nil => rfl
  | cons table rest ih =>
    rw [catalogOf]
    cases found : groups.lookup table with
    | none => rw [List.find?_cons_of_pos (by simp [found]), Option.elim_some]
    | some fields =>
      rw [List.find?_cons_of_neg (by simp [found]), List.map_cons, Catalog.insertAll_cons, found,
        Option.getD_some]
      exact ih _

/-- Reading an answer collects the columns of its rows. -/
theorem readColumns_collects (answers : connection.broken = false) :
    Collects connection.rows toField source tables
      (readColumns connection toField source tables) := by
  rw [readColumns, answers, if_neg Bool.false_ne_true, catalogOf_eq]
  simp only [isNone_lookup_groupRows, getD_lookup_groupRows]
  cases found : tables.find? (!isListed connection.rows ·) with
  | some table =>
    have missing : ¬∀ table ∈ tables, isListed connection.rows table := fun listed =>
      absurd (listed table (List.mem_of_find?_eq_some found)) (by simpa using List.find?_some found)
    refine ⟨by simp [missing], ?_, by simp, by simp⟩
    rintro other same
    obtain rfl := Option.some.inj (found.symm.trans same)
    exact ⟨_, rfl, rfl, rfl, rfl⟩
  | none =>
    have listed : ∀ table ∈ tables, isListed connection.rows table := by simpa using found
    refine ⟨⟨fun _ => listed, fun _ => ⟨_, rfl⟩⟩, by simp [found], ?_, ?_⟩
    · rintro catalog same
      obtain rfl := Except.ok.inj same
      rw [Catalog.keys_insertAll_nil, List.map_map]
      exact congrArg List.eraseDups (List.map_id _)
    · rintro catalog same table member
      obtain rfl := Except.ok.inj same
      obtain ⟨before, after, rfl⟩ := List.append_of_mem member
      rw [List.map_append, List.map_cons]
      refine Catalog.table?_insertAll fun entry later isTable => ?_
      obtain ⟨name, -, rfl⟩ := List.mem_map.mp later
      exact congrArg (fun name => Schema.mk (columnsOf toField connection.rows name)) isTable

/-! ## The three databases -/

/-- Asking for no tables makes no query, and gives what reading the columns of none gives. -/
theorem collects_asked (answers : connection.broken = false) (requests : List Request) :
    Collects connection.rows toField source tables
      (if tables.isEmpty then (⟨[], .ok []⟩ : Introspection)
        else ⟨requests, readColumns connection toField source tables⟩).result := by
  have same : (if tables.isEmpty then (⟨[], .ok []⟩ : Introspection)
      else ⟨requests, readColumns connection toField source tables⟩).result =
        readColumns connection toField source tables := by
    cases tables with
    | nil => simp [readColumns, answers, catalogOf]
    | cons table rest => rfl
  rw [same]
  exact readColumns_collects answers

/-- **Columns are grouped without loss.** Whatever rows a database answers with, PostgreSQL, MySQL
and DuckDB give each table that was asked for the columns of its own rows. -/
theorem columns_collected (connection : Connection) (answers : connection.broken = false)
    (schemaName database : Option String) (tables : List String) :
    Collects connection.rows postgresField (.schema schemaName) tables
        (postgresql connection schemaName tables).result ∧
      Collects connection.rows mysqlField .mysql tables (mysql connection database tables).result ∧
      Collects connection.rows duckdbField .duckdb tables (duckdb connection tables).result :=
  ⟨collects_asked answers _, collects_asked answers _, collects_asked answers _⟩

/-- The columns of a table whose rows are not next to each other, in each of the databases. -/
theorem columns_collected_interleaved :
    let connection : Connection :=
      { rows := [⟨"users", "id", "integer", "int4"⟩, ⟨"orders", "data", "jsonb", "jsonb"⟩,
          ⟨"users", "extra", "json", "json"⟩, ⟨"logs", "line", "text", "text"⟩,
          ⟨"users", "tags", "ARRAY", "_text"⟩, ⟨"users", "names", "VARCHAR[]", "text"⟩] }
    let tables := ["users", "orders", "users"]
    connection.broken = false ∧
      (∃ catalog, (postgresql connection (some "public") tables).result = .ok catalog ∧
        catalog.map Prod.fst = ["users", "orders"] ∧
        catalog.table? "users" = some ⟨[{ name := "id" }, { name := "extra", isJson := true },
          { name := "tags", repeated := true }, { name := "names" }]⟩) ∧
      (∃ catalog, (mysql connection none tables).result = .ok catalog ∧
        catalog.map Prod.fst = ["users", "orders"] ∧
        catalog.table? "users" = some ⟨[{ name := "id" }, { name := "extra", isJson := true },
          { name := "tags" }, { name := "names" }]⟩) ∧
      (∃ catalog, (duckdb connection tables).result = .ok catalog ∧
        catalog.map Prod.fst = ["users", "orders"] ∧
        catalog.table? "users" = some ⟨[{ name := "id" }, { name := "extra", isJson := true },
          { name := "tags" }, { name := "names", repeated := true }]⟩) ∧
      ∃ fault, (duckdb connection ["users", "items", "logs"]).result = .error fault ∧
        fault.message = "table not found: 'items'" := by
  intro connection tables
  obtain ⟨inPostgresql, inMysql, inDuckdb⟩ :=
    columns_collected connection rfl (some "public") none tables
  have listed : ∀ table ∈ tables, isListed connection.rows table := by decide
  have isAsked : "users" ∈ tables := by decide
  obtain ⟨ofPostgresql, readPostgresql⟩ := inPostgresql.ok_iff.mpr listed
  obtain ⟨ofMysql, readMysql⟩ := inMysql.ok_iff.mpr listed
  obtain ⟨ofDuckdb, readDuckdb⟩ := inDuckdb.ok_iff.mpr listed
  obtain ⟨-, -, failing⟩ := columns_collected connection rfl none none ["users", "items", "logs"]
  obtain ⟨fault, failed, -, message, -⟩ := failing.missing "items" (by decide)
  refine ⟨rfl, ⟨ofPostgresql, readPostgresql, inPostgresql.keys _ readPostgresql, ?_⟩,
    ⟨ofMysql, readMysql, inMysql.keys _ readMysql, ?_⟩,
    ⟨ofDuckdb, readDuckdb, inDuckdb.keys _ readDuckdb, ?_⟩, fault, failed, message⟩
  · exact inPostgresql.fields _ readPostgresql "users" isAsked
  · exact inMysql.fields _ readMysql "users" isAsked
  · exact inDuckdb.fields _ readDuckdb "users" isAsked

end CelWhere.Introspect
