import CelWhere.Introspect.Connection

/-! # Catalogs that are filled entry by entry

Introspection sets the schema of one table after the other. A table that is set again keeps its
place and takes the new schema.

* `Catalog.insertAll` — the schemas of a list set in its order;
* `Catalog.keys_insertAll` — the tables come in the order in which they were set first;
* `Catalog.table?_insertAll` — a schema stays unless another one is set for its table later. -/

namespace CelWhere

/-- Looking into a list of entries, one entry at a time. -/
theorem lookup_entry {α : Type} (name key : String) (value : α) (rest : List (String × α)) :
    ((key, value) :: rest).lookup name = if name = key then some value else rest.lookup name := by
  by_cases same : name = key
  · rw [if_pos same, same, List.lookup_cons_self]
  · rw [if_neg same, List.lookup_cons, beq_false_of_ne same]

namespace Catalog

variable {catalog : Catalog} {table : String} {schema : Schema}

/-! ## One entry -/

/-- Setting a schema looks at one entry at a time. -/
theorem insert_cons (name table : String) (known schema : Schema) (rest : Catalog) :
    Catalog.insert ((name, known) :: rest) table schema =
      if name = table then (name, schema) :: rest
      else (name, known) :: Catalog.insert rest table schema := rfl

/-- A table that is known keeps its place, and a new one comes last. -/
theorem keys_insert (catalog : Catalog) (table : String) (schema : Schema) :
    (catalog.insert table schema).map Prod.fst =
      if table ∈ catalog.map Prod.fst then catalog.map Prod.fst
      else catalog.map Prod.fst ++ [table] := by
  induction catalog with
  | nil => rfl
  | cons entry rest ih =>
    obtain ⟨name, known⟩ := entry
    rw [insert_cons]
    by_cases same : name = table
    · rw [if_pos same, if_pos (by simp [same])]
      rfl
    · rw [if_neg same, List.map_cons, ih, List.map_cons]
      by_cases member : table ∈ rest.map Prod.fst
      · rw [if_pos member, if_pos (.tail _ member)]
      · rw [if_neg member, if_neg (by simp [Ne.symm same, member]), List.cons_append]

/-- The table that is set has the new schema, and the others have what they had. -/
theorem table?_insert (catalog : Catalog) (table : String) (schema : Schema) (other : String) :
    (catalog.insert table schema).table? other = if other = table then some schema
      else catalog.table? other := by
  unfold table?
  induction catalog with
  | nil => exact lookup_entry other table schema []
  | cons entry rest ih =>
    obtain ⟨name, known⟩ := entry
    rw [insert_cons]
    by_cases same : name = table
    · rw [if_pos same, lookup_entry, lookup_entry, same]
      by_cases here : other = table
      · rw [if_pos here, if_pos here]
      · rw [if_neg here, if_neg here, if_neg here]
    · rw [if_neg same, lookup_entry, lookup_entry, ih]
      by_cases here : other = name
      · rw [if_pos here, if_pos here, if_neg (here ▸ same)]
      · rw [if_neg here, if_neg here]

/-! ## Entries one after the other -/

/-- The schemas of tables set in their order. -/
def insertAll (catalog : Catalog) (entries : List (String × Schema)) : Catalog :=
  entries.foldl (fun known entry => known.insert entry.1 entry.2) catalog

@[simp] theorem insertAll_nil (catalog : Catalog) : catalog.insertAll [] = catalog := rfl

@[simp] theorem insertAll_cons (catalog : Catalog) (table : String) (schema : Schema)
    (rest : List (String × Schema)) :
    catalog.insertAll ((table, schema) :: rest) =
      (catalog.insert table schema).insertAll rest := rfl

theorem insertAll_append (catalog : Catalog) (first second : List (String × Schema)) :
    catalog.insertAll (first ++ second) = (catalog.insertAll first).insertAll second :=
  List.foldl_append

/-- Behind the tables that were there come the new ones, in the order in which they were set
first. -/
theorem keys_insertAll (catalog : Catalog) (entries : List (String × Schema)) :
    (catalog.insertAll entries).map Prod.fst =
      catalog.map Prod.fst ++ ((entries.map Prod.fst).filter
        (· ∉ catalog.map Prod.fst)).eraseDups := by
  induction entries generalizing catalog with
  | nil => simp
  | cons entry rest ih =>
    obtain ⟨table, schema⟩ := entry
    rw [insertAll_cons, ih, keys_insert, List.map_cons]
    by_cases known : table ∈ catalog.map Prod.fst
    · rw [if_pos known, List.filter_cons_of_neg (by simpa using known)]
    · -- What is behind the new table and new is what is new and another table.
      have others : (rest.map Prod.fst).filter (· ∉ catalog.map Prod.fst ++ [table]) =
          ((rest.map Prod.fst).filter (· ∉ catalog.map Prod.fst)).filter
          (fun name => !name == table) := by
        rw [List.filter_filter]
        refine List.filter_congr fun name _ => ?_
        rw [Bool.eq_iff_iff]
        simp only [decide_eq_true_eq, Bool.and_eq_true, Bool.not_eq_true', beq_eq_false_iff_ne,
          List.mem_append, List.mem_singleton, not_or, and_comm]
      rw [if_neg known, List.filter_cons_of_pos (by simpa using known), List.eraseDups_cons, others,
        List.append_assoc]
      rfl

/-- The tables come in the order in which they were set first. -/
theorem keys_insertAll_nil (entries : List (String × Schema)) :
    (Catalog.insertAll [] entries).map Prod.fst = (entries.map Prod.fst).eraseDups := by
  rw [keys_insertAll, List.map_nil, List.nil_append, List.filter_eq_self.mpr (by simp)]

/-- A schema stays while the tables that are set are others, or are set to the same schema. -/
theorem table?_insertAll_of_kept {entries : List (String × Schema)}
    (there : catalog.table? table = some schema)
    (kept : ∀ entry ∈ entries, entry.1 = table → entry.2 = schema) :
    (catalog.insertAll entries).table? table = some schema := by
  induction entries generalizing catalog with
  | nil => exact there
  | cons entry rest ih =>
    rw [List.forall_mem_cons] at kept
    refine ih ?_ kept.2
    rw [table?_insert]
    by_cases here : table = entry.1
    · rw [if_pos here, kept.1 here.symm]
    · rw [if_neg here, there]

/-- A schema that is set stays unless another one is set for its table later. -/
theorem table?_insertAll {before after : List (String × Schema)}
    (kept : ∀ entry ∈ after, entry.1 = table → entry.2 = schema) :
    (catalog.insertAll (before ++ (table, schema) :: after)).table? table = some schema := by
  rw [insertAll_append, insertAll_cons]
  refine table?_insertAll_of_kept ?_ kept
  rw [table?_insert, if_pos rfl]

end Catalog

end CelWhere
