import MetricsBridge.Text.Basic

/-!
# Tables

Values by name, in ascending order of the names, each name once.
-/
namespace MetricsBridge

/-- Values by name. -/
abbrev Table (α : Type) := List (Text × α)

namespace Table

variable {α : Type}

/-- Sets the value of a name, in the place that the order of names gives it. -/
def set (name : Text) (value : α) : Table α → Table α
  | [] => [(name, value)]
  | (other, v) :: rest =>
    if name = other then (name, value) :: rest
    else if name < other then (name, value) :: (other, v) :: rest
    else (other, v) :: set name value rest

/-- The table of names and values; of two of one name the later counts. -/
def ofEntries (entries : List (Text × α)) : Table α :=
  entries.foldl (fun table (name, value) => set name value table) []

/-- The value of a name. -/
def get? (table : Table α) (name : Text) : Option α :=
  table.lookup name

end Table

end MetricsBridge
