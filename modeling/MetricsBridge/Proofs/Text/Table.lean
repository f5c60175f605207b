import Mathlib.Data.List.Sort
import Mathlib.Tactic.SplitIfs
import MetricsBridge.Text.Table

/-!
# Tables

Setting the value of a name leaves all others alone (`get?_set_of_ne`) and keeps the names in order
(`IsAscending.set`); a name behind all others is set at the end (`set_of_last`).  In a table in
order the values of its names say everything (`IsAscending.ext`).
-/
namespace MetricsBridge.Table

variable {α : Type} {name other : Text} {value : α} {table : Table α}

/-! ### Looking up -/

theorem get?_cons_self (name : Text) (value : α) (table : Table α) :
    get? ((name, value) :: table) name = some value := by
  rw [get?, List.lookup_cons, beq_self_eq_true]

theorem get?_cons_of_ne (h : other ≠ name) (value : α) (table : Table α) :
    get? ((name, value) :: table) other = get? table other := by
  rw [get?, get?, List.lookup_cons, beq_false_of_ne h]

theorem get?_set_self (name : Text) (value : α) (table : Table α) :
    get? (set name value table) name = some value := by
  induction table with
  | nil => exact get?_cons_self name value []
  | cons entry table ih =>
    obtain ⟨first, v⟩ := entry
    unfold set
    split_ifs with heq
    · exact get?_cons_self name value table
    · exact get?_cons_self name value _
    · rw [get?_cons_of_ne heq, ih]

/-- **Setting a value** leaves all others alone. -/
theorem get?_set_of_ne (h : other ≠ name) : get? (set name value table) other =
    get? table other := by
  induction table with
  | nil => exact get?_cons_of_ne h value []
  | cons entry table ih =>
    obtain ⟨first, v⟩ := entry
    unfold set
    split_ifs with heq
    · rw [get?_cons_of_ne h, get?_cons_of_ne (heq ▸ h)]
    · exact get?_cons_of_ne h value _
    · by_cases hfirst : other = first
      · rw [hfirst, get?_cons_self, get?_cons_self]
      · rw [get?_cons_of_ne hfirst, get?_cons_of_ne hfirst, ih]

/-! ### The order of names -/

theorem mem_set {e : Text × α} (h : e ∈ set name value table) : e = (name, value) ∨ e ∈ table := by
  induction table with
  | nil => exact .inl (List.mem_singleton.mp h)
  | cons f rest ih =>
    obtain ⟨other, v⟩ := f
    rw [set] at h
    split at h
    · exact (List.mem_cons.mp h).imp_right (List.mem_cons_of_mem _)
    · split at h
      · exact List.mem_cons.mp h
      · rcases List.mem_cons.mp h with rfl | h
        · exact .inr List.mem_cons_self
        · exact (ih h).imp_right (List.mem_cons_of_mem _)

/-- The names stand in ascending order, each name once. -/
def IsAscending (table : Table α) : Prop :=
  table.Pairwise (·.1 < ·.1)

/-- **Setting a value keeps the names in order.** -/
theorem IsAscending.set (h : IsAscending table) (name : Text) (value : α) :
    IsAscending (table.set name value) := by
  unfold IsAscending at *
  induction table with
  | nil => exact List.pairwise_singleton _ _
  | cons f rest ih =>
    obtain ⟨other, v⟩ := f
    obtain ⟨hfirst, hrest⟩ := List.pairwise_cons.mp h
    rw [Table.set]
    split
    · next heq =>
      subst heq
      exact List.pairwise_cons.mpr ⟨hfirst, hrest⟩
    · next hne =>
      split
      · next hlt =>
        refine List.pairwise_cons.mpr ⟨fun e he => ?_, h⟩
        rcases List.mem_cons.mp he with rfl | he
        · exact hlt
        · exact List.lt_trans hlt (hfirst e he)
      · next hnlt =>
        refine List.pairwise_cons.mpr ⟨fun e he => ?_, ih hrest⟩
        rcases mem_set he with rfl | he
        · rcases List.le_iff_lt_or_eq.mp (List.not_lt.mp hnlt) with hlt | heq
          · exact hlt
          · exact absurd heq.symm hne
        · exact hfirst e he

/-- A name behind all others is set at the end. -/
theorem set_of_last (h : ∀ e ∈ table, e.1 < name) (value : α) :
    set name value table = table ++ [(name, value)] := by
  induction table with
  | nil => rfl
  | cons f rest ih =>
    obtain ⟨other, v⟩ := f
    have hlt : other < name := h (other, v) List.mem_cons_self
    have hne : name ≠ other := by
      rintro rfl
      exact List.lt_irrefl _ hlt
    rw [set, if_neg hne, if_neg (List.lt_asymm hlt), ih fun e he => h e (List.mem_cons_of_mem _ he)]
    rfl

/-- In a table in order an entry is what is found under its name. -/
theorem IsAscending.mem_iff (h : IsAscending table) :
    (name, value) ∈ table ↔ get? table name = some value := by
  induction table with
  | nil => exact iff_of_false List.not_mem_nil (Option.some_ne_none value ∘ Eq.symm)
  | cons entry table ih =>
    obtain ⟨first, v⟩ := entry
    obtain ⟨hfirst, hrest⟩ := List.pairwise_cons.mp h
    rw [List.mem_cons]
    by_cases heq : name = first
    · subst heq
      have hlater : (name, value) ∉ table := fun hmem =>
        List.lt_irrefl name (hfirst (name, value) hmem)
      rw [get?_cons_self]
      simp [hlater, eq_comm]
    · rw [get?_cons_of_ne heq, ← ih hrest]
      simp [heq]

/-- **Tables in order with the same values are the same.** -/
theorem IsAscending.ext {other : Table α} (h : IsAscending table) (h' : IsAscending other)
    (hget : ∀ name, get? table name = get? other name) : table = other := by
  have hirrefl : Std.Irrefl fun e f : Text × α => e.1 < f.1 := ⟨fun e => List.lt_irrefl e.1⟩
  have hantisymm : Std.Antisymm fun e f : Text × α => e.1 < f.1 :=
    ⟨fun e f hlt hgt => absurd hgt (List.lt_asymm hlt)⟩
  apply List.Pairwise.eq_of_mem_iff h h'
  rintro ⟨name, value⟩
  rw [h.mem_iff, h'.mem_iff, hget]

end MetricsBridge.Table
