import MetricsBridge.Proofs.Success
import MetricsBridge.Proofs.Time.Span

/-!
# How long a query is waited for

The timeout of a query is read twice: when the pairs of the query are made, and again when the time
to wait for the answer is worked out, to which a grace of five seconds is added.  A timeout that can
be read leaves room for the grace (`add?_grace`), so the second reading fails exactly where the
first one does (`timeouts_leave_room`).
-/
namespace MetricsBridge

namespace Span

/-- The span has fewer than `2 ^ 64` whole seconds. -/
def InRange (s : Span) : Prop :=
  s.nanos < 2 ^ 64 * 10 ^ 9

theorem inRange_of_add? {a b s : Span} (h : a.add? b = some s) : s.InRange := by
  unfold add? at h
  dsimp only at h
  split_ifs at h with hlt
  cases h
  rw [Nat.pow_eq, Nat.div_lt_iff_lt_mul (by norm_num)] at hlt
  exact hlt

theorem longer_eq (a b : Span) : a.longer b = ⟨max a.nanos b.nanos⟩ := by
  unfold longer
  split_ifs with h
  · rw [max_eq_right h.le]
  · rw [max_eq_left (Nat.le_of_not_lt h)]

end Span

section Timeouts

variable {o : QueryOptions} {t : Text} {d : Span}

theorem checkSpan_eq_ok : checkSpan t = .ok d ↔ Span.parse? t = some d := by
  unfold checkSpan
  split
  · next s hs => simp [hs]
  · next hs => simp [hs]

theorem checkSpan_eq_error (h : ∀ d, checkSpan t ≠ .ok d) :
    checkSpan t = .error (.invalidDuration t) := by
  unfold checkSpan at h ⊢
  split
  · next s hs =>
    rw [hs] at h
    exact absurd rfl (h s)
  · rfl

/-- **A timeout that can be read** is waited for, with the grace. -/
theorem patience_of_checkSpan (ht : o.timeout = some t) (hd : checkSpan t = .ok d) (usual : Span) :
    o.patience usual = .ok ⟨max usual.nanos (d.nanos + 5 * 10 ^ 9)⟩ := by
  rw [patience_eq_ok ht (checkSpan_eq_ok.mp hd), Span.longer_eq]
  rfl

/-- **A timeout that cannot be read** is refused once more. -/
theorem patience_of_not_checkSpan (ht : o.timeout = some t) (h : ∀ d, checkSpan t ≠ .ok d)
    (usual : Span) : o.patience usual = .error (.invalidDuration t) := by
  rw [patience_of_timeout ht, checkSpan_eq_error h]
  rfl

/-- The pairs of a query are made only if its timeout can be read. -/
theorem exists_checkSpan_of_pairs {pairs : List Form.Pair} (h : o.pairs = .ok pairs)
    (ht : o.timeout = some t) : ∃ d, checkSpan t = .ok d := by
  simp only [QueryOptions.pairs, bind_eq_ok] at h
  obtain ⟨timeout, htimeout, -⟩ := h
  simp only [optionPair, ht, spanText, except_map_eq_ok] at htimeout
  obtain ⟨_, ⟨d, hd, -⟩, -⟩ := htimeout
  exact ⟨d, hd⟩

end Timeouts

/-- **Timeouts leave room for the grace.**  Whatever is usually waited for: a query without a
timeout is waited for as usual.  If a timeout can be read, it can be lengthened by five seconds, and
the query is waited for as long as that, or as usual if this is longer.  The time to wait is refused
exactly if the timeout is no span, and the error names the timeout as it was given.  So options
whose pairs have been made always have a time to wait. -/
theorem timeouts_leave_room (o : QueryOptions) (usual : Span) :
    (o.timeout = none → o.patience usual = .ok usual) ∧
    (∀ t, o.timeout = some t →
      (∀ d, checkSpan t = .ok d →
        Span.InRange ⟨d.nanos + 5 * 10 ^ 9⟩ ∧
        d.add? QueryOptions.grace = some ⟨d.nanos + 5 * 10 ^ 9⟩ ∧
        o.patience usual = .ok ⟨max usual.nanos (d.nanos + 5 * 10 ^ 9)⟩) ∧
      (o.patience usual = .error (.invalidDuration t) ↔ ∀ d, checkSpan t ≠ .ok d) ∧
      ∀ e, o.patience usual = .error e → e = .invalidDuration t ∧ checkSpan t = .error e) ∧
    ∀ pairs, o.pairs = .ok pairs → ∃ s, o.patience usual = .ok s := by
  refine ⟨?_, ?_, ?_⟩
  · intro ht
    rw [QueryOptions.patience, ht]
  · intro t ht
    refine ⟨?_, ?_, ?_⟩
    · intro d hd
      have hadd := Span.add?_grace (checkSpan_eq_ok.mp hd)
      exact ⟨Span.inRange_of_add? hadd, hadd, patience_of_checkSpan ht hd usual⟩
    · constructor
      · intro herror d hd
        rw [patience_of_checkSpan ht hd] at herror
        cases herror
      · intro h
        exact patience_of_not_checkSpan ht h usual
    · intro e herror
      by_cases h : ∃ d, checkSpan t = .ok d
      · obtain ⟨d, hd⟩ := h
        rw [patience_of_checkSpan ht hd] at herror
        cases herror
      · rw [not_exists] at h
        rw [patience_of_not_checkSpan ht h] at herror
        cases herror
        exact ⟨rfl, checkSpan_eq_error h⟩
  · intro pairs hpairs
    cases ht : o.timeout with
    | none => exact ⟨usual, by rw [QueryOptions.patience, ht]⟩
    | some t =>
      obtain ⟨d, hd⟩ := exists_checkSpan_of_pairs hpairs ht
      exact ⟨_, patience_of_checkSpan ht hd usual⟩

/-- The longest timeouts of both kinds: the greatest binary64 number below `2 ^ 64`, written a
little above itself, and the most milliseconds. -/
theorem timeouts_leave_room_at_the_top :
    QueryOptions.patience { timeout := some " 18446744073709550591 ".toList } (.ofSeconds 30) =
      .ok ⟨18446744073709549573 * 10 ^ 9⟩ ∧
    QueryOptions.patience { timeout := some "18446744073709551615ms".toList } (.ofSeconds 30) =
      .ok ⟨18446744073709556615 * 10 ^ 6⟩ := by
  have hseconds : checkSpan " 18446744073709550591 ".toList =
      .ok ⟨18446744073709549568 * 10 ^ 9⟩ := by decide +kernel
  have hmillis : checkSpan "18446744073709551615ms".toList =
      .ok ⟨18446744073709551615 * 10 ^ 6⟩ := by decide +kernel
  constructor
  · exact (((timeouts_leave_room _ (.ofSeconds 30)).2.1 _ rfl).1 _ hseconds).2.2
  · exact (((timeouts_leave_room _ (.ofSeconds 30)).2.1 _ rfl).1 _ hmillis).2.2

end MetricsBridge
