/-! # Best entries

A list of entries with keys of their own. An entry whose key is there already takes the place of the
other one if it ranks higher, and is dropped if not. -/

namespace CelWhere.Index

variable {α : Type} (key : α → String) (rank : α → Nat)

/-- Adds an entry to a list, or lets it compete with the entry of its key. -/
def keepBest (entry : α) : List α → List α
  | [] => [entry]
  | kept :: rest =>
    if key kept = key entry then (if rank kept < rank entry then entry else kept) :: rest
    else kept :: keepBest entry rest

/-- Adds entries one after the other. -/
def keepBestOf (entries kept : List α) : List α :=
  entries.foldl (fun kept entry => keepBest key rank entry kept) kept

@[simp] theorem keepBest_nil (entry : α) : keepBest key rank entry [] = [entry] := rfl

@[simp] theorem keepBestOf_nil (kept : List α) : keepBestOf key rank [] kept = kept := rfl

@[simp] theorem keepBestOf_cons (entry : α) (entries kept : List α) :
    keepBestOf key rank (entry :: entries) kept =
      keepBestOf key rank entries (keepBest key rank entry kept) :=
  rfl

theorem keepBestOf_append (first second kept : List α) :
    keepBestOf key rank (first ++ second) kept =
      keepBestOf key rank second (keepBestOf key rank first kept) :=
  List.foldl_append

end CelWhere.Index
