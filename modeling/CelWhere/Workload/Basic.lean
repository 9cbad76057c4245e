import CelWhere.Workload.Constructs
import CelWhere.Workload.Schemas

/-! # Workloads by name -/

namespace CelWhere

/-- A workload: its name, the name of its size, and what it reports for a size. -/
structure Workload where
  /-- The name of the workload. -/
  name : String
  /-- The name of its size. -/
  size : String
  /-- The reports for a size. -/
  run : Int → Except Fault (List Workload.Report)

namespace Workload

/-- All workloads, sorted by their names. -/
def all : List Workload :=
  [⟨"analyze", "n_exprs", adviseAll⟩,
    ⟨"convert_all_dialects", "n_exprs", fun count => .ok (convertFor dialects count)⟩,
    ⟨"convert_parameterized", "n_exprs", fun count => .ok (convertParameterized count)⟩,
    ⟨"convert_postgres", "n_exprs", fun count => .ok (convertFor [.postgresql] count)⟩,
    ⟨"dialect_direct", "n_rounds", fun rounds => .ok (writeAll rounds)⟩,
    ⟨"error_paths", "n_exprs", fun count => .ok (convertFailing count)⟩,
    ⟨"introspect", "n_tables", fun count => .ok (readSchemas count)⟩,
    ⟨"public_api", "n_exprs", convertAndAnalyze⟩,
    ⟨"regex_utils", "pat_len", fun length => .ok (convertPatterns length)⟩]

/-- The workload of a name. -/
def ofName? (name : String) : Option Workload :=
  all.find? (·.name = name)

end Workload

end CelWhere
