import MetricsBridge.Proofs.Number.Double
import MetricsBridge.Time.Span
import MetricsBridge.Backend.Options

/-!
# How long spans are

A span that a text means stays more than 2,000 seconds below `2 ^ 64` of them: a sum of parts
because it is below `2 ^ 64` milliseconds, and a number of seconds because the greatest binary64
number below `2 ^ 64` is `2 ^ 64 - 2 ^ 11` (`nanos_le_of_parse?`).  So what is added to the timeout
of a query never leaves the range, and a query whose timeout makes sense always has a time to wait
(`patience_eq_ok`).
-/
namespace MetricsBridge

namespace Span

/-- The most nanoseconds of a span that a text means: `2 ^ 64 - 2 ^ 11` seconds. -/
def maxNanos : Nat := 18446744073709549568000000000

/-- A natural number with a significand of 53 binary digits that lies below `2 ^ 64` leaves a gap of
`2 ^ 11` to it. -/
theorem le_of_significand_lt {significand k : Nat} (hs : significand < 2 ^ 53)
    (h : significand * 2 ^ k < 2 ^ 64) : significand * 2 ^ k ≤ 2 ^ 64 - 2 ^ 11 := by
  by_cases hk : 11 ≤ k
  · -- The number is a multiple of the gap.
    obtain ⟨m, rfl⟩ := Nat.exists_eq_add_of_le hk
    rw [pow_add, mul_left_comm] at h ⊢
    generalize significand * 2 ^ m = q at h ⊢
    omega
  · have hpow : 2 ^ k ≤ 2 ^ 10 := Nat.pow_le_pow_right (by norm_num) (by omega)
    have hmul : significand * 2 ^ k ≤ 2 ^ 53 * 2 ^ 10 := Nat.mul_le_mul hs.le hpow
    generalize significand * 2 ^ k = q at hmul ⊢
    omega

theorem nanos_le_of_ofDouble? {x : Double} (hx : x.significand < 2 ^ 53) {s : Span}
    (h : ofDouble? x = some s) : s.nanos ≤ maxNanos := by
  unfold ofDouble? at h
  split_ifs at h
  dsimp only at h
  split_ifs at h with hbound
  cases h
  dsimp only [maxNanos]
  rw [Nat.pow_eq] at hbound
  unfold Double.ratio at hbound ⊢
  split_ifs at hbound ⊢ with he
  · -- A whole number of seconds needs no rounding.
    dsimp only at hbound ⊢
    rw [Nat.div_one, Nat.pow_eq] at hbound
    have hle := le_of_significand_lt hx hbound
    rw [roundHalfEven_one, Nat.pow_eq]
    omega
  · dsimp only
    have hround := roundHalfEven_le (x.significand * 1000000000) (Nat.pow 2 (-x.exponent).toNat)
    have hdiv := Nat.div_le_self (x.significand * 1000000000) (Nat.pow 2 (-x.exponent).toNat)
    omega

theorem lt_of_partsMillis? {units : List TimeUnit} {t : Text} {n : Nat}
    (h : partsMillis? units t = some n) : n < 2 ^ 64 := by
  induction units generalizing t with
  | nil =>
    unfold partsMillis? at h
    split_ifs at h
    cases h
    norm_num
  | cons unit units ih =>
    unfold partsMillis? at h
    split_ifs at h
    · cases h
      norm_num
    · simp only [Option.bind_eq_bind, Option.bind_eq_some_iff] at h
      obtain ⟨⟨number, name, rest⟩, -, h⟩ := h
      dsimp only at h
      split_ifs at h with hname
      · simp only [Option.bind_eq_some_iff] at h
        obtain ⟨more, -, h⟩ := h
        split_ifs at h with hsum
        cases h
        exact hsum
      · exact ih h

/-- **The greatest span that a text means.** -/
theorem nanos_le_of_parse? {t : Text} {s : Span} (h : parse? t = some s) : s.nanos ≤ maxNanos := by
  unfold parse? at h
  dsimp only at h
  split_ifs at h
  split at h
  · obtain ⟨x, hx, hs⟩ := Option.bind_eq_some_iff.mp h
    exact nanos_le_of_ofDouble? (significand_lt_of_toDouble? hx) hs
  · obtain ⟨n, hn, rfl⟩ := Option.map_eq_some_iff.mp h
    have hlt := lt_of_partsMillis? hn
    dsimp only [ofMillis, maxNanos]
    omega

theorem add?_eq_some {a b : Span} (h : (a.nanos + b.nanos) / 1000000000 < 2 ^ 64) :
    a.add? b = some ⟨a.nanos + b.nanos⟩ := by
  rw [← Nat.pow_eq] at h
  exact if_pos h

/-- The grace of a query can always be added. -/
theorem add?_grace {t : Text} {s : Span} (h : parse? t = some s) :
    s.add? QueryOptions.grace = some ⟨s.nanos + QueryOptions.grace.nanos⟩ := by
  apply add?_eq_some
  have hgrace : QueryOptions.grace.nanos = 5000000000 := rfl
  have hle : s.nanos ≤ 18446744073709549568000000000 := nanos_le_of_parse? h
  generalize QueryOptions.grace.nanos = grace at hgrace ⊢
  omega

end Span

theorem patience_of_timeout {o : QueryOptions} {t : Text} (ht : o.timeout = some t) (usual : Span) :
    o.patience usual = (checkSpan t).bind fun span =>
      match span.add? QueryOptions.grace with
      | some longer => .ok (usual.longer longer)
      | none => .error (.invalidDuration t) := by
  unfold QueryOptions.patience
  rw [ht]
  rfl

/-- **A query whose timeout makes sense has a time to wait**: the greater of the usual one and that
of the timeout with its grace. -/
theorem patience_eq_ok {o : QueryOptions} {t : Text} {s : Span} (ht : o.timeout = some t)
    (hs : Span.parse? t = some s) (usual : Span) :
    o.patience usual = .ok (usual.longer ⟨s.nanos + QueryOptions.grace.nanos⟩) := by
  have hadd := Span.add?_grace hs
  have hcheck : checkSpan t = .ok s := by rw [checkSpan, hs]
  rw [patience_of_timeout ht, hcheck, Except.bind, hadd]

end MetricsBridge
