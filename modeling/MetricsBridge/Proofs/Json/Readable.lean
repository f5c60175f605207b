import Mathlib.Tactic.SplitIfs
import MetricsBridge.Proofs.Json.Numeral
import MetricsBridge.Proofs.Success
import MetricsBridge.Proofs.Text.Table

/-!
# What can be read

A value that has been read has numbers in range, containers that are not nested too deep, and
objects whose names stand in ascending order (`isReadable_of_value`).
-/
namespace MetricsBridge

/-- Only numbers of 64 bits count as integers. -/
def Numeral.IsReadable : Numeral → Prop
  | .natural n => n < Nat.pow 2 64
  | .negative n => 0 < n ∧ n ≤ Nat.pow 2 63
  | .double _ => True

namespace Json

/-- A value that can be read with so many levels of nesting left. -/
inductive IsReadable : Nat → Json → Prop
  | null (depth : Nat) : IsReadable depth .null
  | bool (depth : Nat) (b : Bool) : IsReadable depth (.bool b)
  | text (depth : Nat) (t : Text) : IsReadable depth (.text t)
  | number (depth : Nat) {n : Numeral} (h : n.IsReadable) : IsReadable depth (.number n)
  | array {depth : Nat} {items : List Json} (h : ∀ item ∈ items, IsReadable depth item)
      (hdepth : 0 < depth) : IsReadable (depth + 1) (.array items)
  | object {depth : Nat} {fields : List Field} (h : ∀ f ∈ fields, IsReadable depth f.2)
      (hnames : Table.IsAscending fields) (hdepth : 0 < depth) :
      IsReadable (depth + 1) (.object fields)

/-- What can be read can be read with more levels left. -/
theorem IsReadable.mono {depth : Nat} {j : Json} (h : IsReadable depth j) :
    ∀ {more : Nat}, depth ≤ more → IsReadable more j := by
  induction h with
  | null => exact fun _ => .null _
  | bool => exact fun _ => .bool _ _
  | text => exact fun _ => .text _ _
  | number _ hn => exact fun _ => .number _ hn
  | array _ hdepth ih =>
    intro more hle
    obtain ⟨more, rfl⟩ := Nat.exists_eq_add_of_lt (Nat.lt_of_succ_le hle)
    exact .array (fun item hitem => ih item hitem (by omega)) (by omega)
  | object _ hnames hdepth ih =>
    intro more hle
    obtain ⟨more, rfl⟩ := Nat.exists_eq_add_of_lt (Nat.lt_of_succ_le hle)
    exact .object (fun f hf => ih f hf (by omega)) hnames (by omega)

/-! ### Numbers -/

/-- Digits are taken while their value stays below the bound. -/
theorem value_lt_of_boundedDigits {bound : Nat} {t : Text} :
    ∀ {value taken value' taken' : Nat} {rest : Text}, value < bound →
    boundedDigits bound value taken t = (value', taken', rest) → value' < bound := by
  induction t with
  | nil =>
    intro value taken value' taken' rest hlt h
    cases h
    exact hlt
  | cons c t ih =>
    intro value taken value' taken' rest hlt h
    rw [boundedDigits] at h
    split at h
    · next hc => exact ih hc.2 h
    · cases h
      exact hlt

namespace Cursor

variable {cur next : Cursor} {isNegative : Bool} {n : Numeral}

/-! A number with a point or an exponent is binary64. -/

theorem exists_double_of_double {digits : Nat} {power : Int}
    (h : cur.double isNegative digits power = .ok (n, next)) : ∃ x, n = .double x := by
  unfold double at h
  split at h
  · cases h
    exact ⟨_, rfl⟩
  · cases h

theorem exists_double_of_exponent {digits : Nat} {power : Int}
    (h : cur.exponent isNegative digits power = .ok (n, next)) : ∃ x, n = .double x := by
  rw [exponent_eq, exponentDigits] at h
  split at h
  · cases h
  · split at h
    · dsimp only at h
      split at h
      · split at h
        · cases h
        · cases h
          exact ⟨_, rfl⟩
      · exact exists_double_of_double h
    · cases h

theorem exists_double_of_maybeExponent {digits : Nat} {power : Int}
    (h : cur.maybeExponent isNegative digits power = .ok (n, next)) : ∃ x, n = .double x := by
  unfold maybeExponent at h
  split at h
  · exact exists_double_of_exponent h
  · exact exists_double_of_exponent h
  · exact exists_double_of_double h

theorem exists_double_of_fraction {digits : Nat} {power : Int}
    (h : cur.fraction isNegative digits power = .ok (n, next)) : ∃ x, n = .double x := by
  unfold fraction at h
  dsimp only at h
  split at h
  · exact exists_double_of_maybeExponent h
  · split at h
    · split at h <;> cases h
    · exact exists_double_of_maybeExponent h

theorem isReadable_of_exists (h : ∃ x, n = .double x) : n.IsReadable := by
  obtain ⟨x, rfl⟩ := h
  trivial

theorem isReadable_of_afterInteger {digits skipped : Nat} (hdigits : digits < Nat.pow 2 64)
    (h : cur.afterInteger isNegative digits skipped = .ok (n, next)) : n.IsReadable := by
  unfold afterInteger at h
  split at h
  · exact isReadable_of_exists (exists_double_of_fraction h)
  · exact isReadable_of_exists (exists_double_of_maybeExponent h)
  · exact isReadable_of_exists (exists_double_of_maybeExponent h)
  · split at h
    · exact isReadable_of_exists (exists_double_of_double h)
    · split at h
      · cases h
        exact hdigits
      · split at h
        · exact isReadable_of_exists (exists_double_of_double h)
        · next hne =>
          cases h
          rw [not_or] at hne
          exact ⟨Nat.pos_of_ne_zero hne.1, Nat.le_of_not_lt hne.2⟩

theorem isReadable_of_numeral (h : cur.numeral isNegative = .ok (n, next)) : n.IsReadable := by
  have hbound : 0 < Nat.pow 2 64 := Nat.pow_pos (by decide)
  unfold numeral at h
  split at h
  · cases h
  · dsimp only at h
    split at h
    · cases h
    · exact isReadable_of_afterInteger hbound h
  · split at h
    · generalize hb : boundedDigits (Nat.pow 2 64) 0 0 cur.rest = taken at h
      obtain ⟨value, taken, rest⟩ := taken
      have hvalue := value_lt_of_boundedDigits hbound hb
      dsimp only at h
      split at h
      · exact isReadable_of_afterInteger hvalue h
      · exact isReadable_of_afterInteger hvalue h
    · cases h

/-! ### Values -/

/-- The three readings that call each other, with so many steps. -/
theorem isReadable_of_reading (steps : Nat) :
    (∀ depth cur j next, value steps depth cur = .ok (j, next) → IsReadable depth j) ∧
    (∀ depth isFirst read cur j next, items steps depth isFirst read cur = .ok (j, next) →
      (∀ item ∈ read, IsReadable depth item) →
      ∃ all, j = .array all ∧ ∀ item ∈ all, IsReadable depth item) ∧
    ∀ depth isFirst read cur j next, fields steps depth isFirst read cur = .ok (j, next) →
      (∀ f ∈ read, IsReadable depth f.2) → Table.IsAscending read →
      ∃ all, j = .object all ∧ (∀ f ∈ all, IsReadable depth f.2) ∧ Table.IsAscending all := by
  induction steps with
  | zero =>
    refine ⟨?_, ?_, ?_⟩
    · intro depth cur j next h
      cases h
    · intro depth isFirst read cur j next h
      cases h
    · intro depth isFirst read cur j next h
      cases h
  | succ steps ih =>
    obtain ⟨ihvalue, ihitems, ihfields⟩ := ih
    refine ⟨?_, ?_, ?_⟩
    · intro depth cur j next h
      rw [value] at h
      dsimp only at h
      split at h
      · cases h
      · iterate 3
          split at h
          · simp only [bind_eq_ok, pure_eq_ok] at h
            obtain ⟨_, -, heq⟩ := h
            cases heq
            first | exact .null _ | exact .bool _ _
        iterate 2
          split at h
          · simp only [bind_eq_ok, pure_eq_ok] at h
            obtain ⟨⟨n, _⟩, hnumeral, heq⟩ := h
            cases heq
            exact .number _ (isReadable_of_numeral hnumeral)
        split at h
        · simp only [bind_eq_ok, pure_eq_ok] at h
          obtain ⟨_, -, heq⟩ := h
          cases heq
          exact .text _ _
        split at h
        · split at h
          · cases h
          · next hdepth =>
            obtain ⟨depth, rfl⟩ := Nat.exists_eq_add_of_lt (Nat.lt_of_not_le hdepth)
            obtain ⟨all, rfl, hall⟩ := ihitems _ _ _ _ _ _ h (by simp)
            exact .array hall (by omega)
        split at h
        · split at h
          · cases h
          · next hdepth =>
            obtain ⟨depth, rfl⟩ := Nat.exists_eq_add_of_lt (Nat.lt_of_not_le hdepth)
            obtain ⟨all, rfl, hall, hascending⟩ := ihfields _ _ _ _ _ _ h (by simp) .nil
            exact .object hall hascending (by omega)
        · cases h
    · intro depth isFirst read cur j next h hread
      rw [items] at h
      split at h
      · cases h
      · cases h
        exact ⟨read.reverse, rfl, fun item hitem => hread item (List.mem_reverse.mp hitem)⟩
      · split at h
        · cases h
        · next item after hitem =>
          exact ihitems _ _ _ _ _ _ h (List.forall_mem_cons.mpr ⟨ihvalue _ _ _ _ hitem, hread⟩)
    · intro depth isFirst read cur j next h hread hascending
      rw [fields] at h
      split at h
      · cases h
      · cases h
        exact ⟨read, rfl, hread, hascending⟩
      · split at h
        · cases h
        · next all after hfield =>
          simp only [bind_eq_ok, pure_eq_ok] at hfield
          obtain ⟨⟨name, _⟩, -, _, -, ⟨v, _⟩, hvalue, heq⟩ := hfield
          cases heq
          refine ihfields _ _ _ _ _ _ h (fun f hf => ?_) (hascending.set name v)
          rcases Table.mem_set hf with rfl | hf
          · exact ihvalue _ _ _ _ hvalue
          · exact hread f hf

/-- **What has been read can be read.** -/
theorem isReadable_of_value {steps depth : Nat} {cur next : Cursor} {j : Json}
    (h : value steps depth cur = .ok (j, next)) : IsReadable depth j :=
  (isReadable_of_reading steps).1 depth cur j next h

end Cursor

end Json

end MetricsBridge
