import Mathlib.Tactic.SplitIfs
import MetricsBridge.Json.Printer

/-!
# Numbers as they are written

A number is written in digits, signs, a point and the letter of an exponent
(`isMark_of_mem_render`), and never as nothing (`render_ne_nil`).  So no word is the text of a
number.
-/
namespace MetricsBridge

/-- The characters of which numbers are written. -/
def Numeral.isMark (c : Char) : Bool :=
  isDigit c || c == '-' || c == '+' || c == '.' || c == 'e'

open Numeral

theorem isMark_of_isDigit {c : Char} (h : isDigit c = true) : isMark c = true := by
  simp [isMark, h]

theorem isMark_of_all {t : Text} (h : t.all isMark = true) : ∀ c ∈ t, isMark c = true :=
  List.all_eq_true.mp h

theorem isDigit_ofNat (n : Nat) : ∀ c ∈ Text.ofNat n, isDigit c = true := by
  intro c h
  have hc : c.isDigit = true := Nat.isDigit_of_mem_toDigits (by decide) (by decide) h
  rw [Char.isDigit, Bool.and_eq_true, decide_eq_true_iff, decide_eq_true_iff] at hc
  rw [isDigit, Bool.and_eq_true, decide_eq_true_iff, decide_eq_true_iff]
  exact hc

theorem isMark_ofNat (n : Nat) : ∀ c ∈ Text.ofNat n, isMark c = true :=
  fun c h => isMark_of_isDigit (isDigit_ofNat n c h)

theorem isMark_ofInt (i : Int) : ∀ c ∈ Text.ofInt i, isMark c = true := by
  cases i with
  | ofNat n => exact isMark_ofNat n
  | negSucc n => exact List.forall_mem_cons.mpr ⟨by decide, isMark_ofNat (n + 1)⟩

theorem isMark_zeros (n : Nat) : ∀ c ∈ List.replicate n '0', isMark c = true := by
  intro c h
  rw [List.eq_of_mem_replicate h]
  decide

/-! ### Decimals -/

theorem isDigit_shortest (x : Double) : ∀ c ∈ x.shortest.digits, isDigit c = true := by
  intro c h
  unfold Double.shortest at h
  split_ifs at h
  · rw [List.mem_singleton.mp h]
    decide
  · -- The digits are those of a number, but for the zeros at its end.
    dsimp only at h
    have hc := (List.dropWhile_suffix _).mem (List.mem_reverse.mp h)
    exact isDigit_ofNat _ c (List.mem_reverse.mp hc)

theorem isMark_decimal {d : Decimal} (hd : ∀ c ∈ d.digits, isDigit c = true) :
    ∀ c ∈ d.render, isMark c = true := by
  have hdigits : ∀ c ∈ d.digits, isMark c = true := fun c hc => isMark_of_isDigit (hd c hc)
  unfold Decimal.render
  dsimp only
  split_ifs
  · simp only [List.forall_mem_append]
    exact ⟨⟨hdigits, isMark_zeros _⟩, isMark_of_all rfl⟩
  · simp only [List.forall_mem_append, List.forall_mem_cons]
    exact ⟨fun c hc => hdigits c (List.mem_of_mem_take hc), by decide,
      fun c hc => hdigits c (List.mem_of_mem_drop hc)⟩
  · simp only [List.forall_mem_append]
    exact ⟨⟨isMark_of_all rfl, isMark_zeros _⟩, hdigits⟩
  all_goals
    rw [List.forall_mem_append, List.forall_mem_append]
    refine ⟨⟨?_, isMark_of_all rfl⟩, isMark_ofInt _⟩
    split
    · exact isMark_of_all rfl
    · next c heq => exact heq ▸ hdigits
    · next c rest heq =>
      rw [heq, List.forall_mem_cons] at hdigits
      exact List.forall_mem_cons.mpr ⟨hdigits.1, List.forall_mem_cons.mpr ⟨by decide, hdigits.2⟩⟩

theorem decimal_render_ne_nil (d : Decimal) : d.render ≠ [] := by
  unfold Decimal.render
  dsimp only
  split_ifs <;> simp

/-! ### Numbers -/

/-- **A number is written in marks of numbers.** -/
theorem isMark_of_mem_render (n : Numeral) : ∀ c ∈ n.render, isMark c = true := by
  cases n with
  | natural n => exact isMark_ofNat n
  | negative n => exact List.forall_mem_cons.mpr ⟨by decide, isMark_ofNat n⟩
  | double x =>
    rw [Numeral.render, Double.render, List.forall_mem_append]
    refine ⟨?_, isMark_decimal (isDigit_shortest x)⟩
    split_ifs <;> exact isMark_of_all rfl

/-- **A number is not written as nothing.** -/
theorem render_ne_nil (n : Numeral) : n.render ≠ [] := by
  cases n with
  | natural n => exact Nat.toDigits_ne_nil
  | negative n => exact List.cons_ne_nil _ _
  | double x => exact List.append_ne_nil_of_right_ne_nil _ (decimal_render_ne_nil _)

end MetricsBridge
