import Mathlib.Algebra.Order.BigOperators.Group.Finset
import Mathlib.Tactic.Linarith

/-!
# Counters that roll over

A free-running count of which only the value modulo `m` can be read.

* `corrected_eq`: the difference of two readings, corrected once if it is
  negative, is the true difference modulo `m`;
* `sum_mod_gaps`: along a sequence of counts these differences add up to the
  true distance, less `m` for every whole period inside a gap;
* `mod_le_iff_period`: counts less than `m` apart compare as their readings do
  exactly if they lie in the same period.
-/

namespace MidiGw.Rollover

/-! ## Differences of readings -/

section
variable {m : ℤ} (pos : 0 < m)
include pos

theorem corrected_eq (a b : ℤ) :
    (if b % m - a % m < 0 then b % m - a % m + m else b % m - a % m) = (b - a) % m := by
  have alo := Int.emod_nonneg a (Int.ne_of_gt pos)
  have ahi := Int.emod_lt_of_pos a pos
  have blo := Int.emod_nonneg b (Int.ne_of_gt pos)
  have bhi := Int.emod_lt_of_pos b pos
  have readings : (b - a) % m = (b % m - a % m) % m := Int.sub_emod b a m
  split
  · have once : (b % m - a % m) % m = (b % m - a % m + m) % m := (Int.add_emod_right _ _).symm
    have low : (b % m - a % m + m) % m = b % m - a % m + m :=
      Int.emod_eq_of_lt (by omega) (by omega)
    rw [readings, once, low]
  · have low : (b % m - a % m) % m = b % m - a % m := Int.emod_eq_of_lt (by omega) (by omega)
    rw [readings, low]

/-- A difference shows in full only if it is shorter than a period. -/
theorem mod_eq_iff {d : ℤ} (fwd : 0 ≤ d) : d % m = d ↔ d < m := by
  constructor
  · intro same
    rw [← same]
    exact Int.emod_lt_of_pos d pos
  · exact Int.emod_eq_of_lt fwd

theorem div_nonneg_of_forward {d : ℤ} (fwd : 0 ≤ d) : 0 ≤ d / m :=
  Int.ediv_nonneg fwd (Int.le_of_lt pos)

theorem div_eq_zero_iff {d : ℤ} (fwd : 0 ≤ d) : d / m = 0 ↔ d < m := by
  constructor
  · intro zero
    have whole := Int.emod_add_mul_ediv d m
    rw [zero, Int.mul_zero, Int.add_zero] at whole
    exact (mod_eq_iff pos fwd).mp whole
  · exact Int.ediv_eq_zero_of_lt fwd

end

/-! ## Whole sequences -/

/-- What the readings of a sequence of counts add up to. -/
theorem sum_mod_gaps (m : ℤ) (T : ℕ → ℤ) (n : ℕ) :
    ∑ k ∈ Finset.range n, (T (k + 1) - T k) % m =
      T n - T 0 - m * ∑ k ∈ Finset.range n, (T (k + 1) - T k) / m := by
  induction n with
  | zero => simp
  | succ n ih =>
    have whole := Int.emod_add_mul_ediv (T (n + 1) - T n) m
    rw [Finset.sum_range_succ, Finset.sum_range_succ, ih, mul_add]
    linarith

/-- They add up to the true distance exactly if no gap holds a whole period. -/
theorem sum_mod_gaps_eq_iff {m : ℤ} (pos : 0 < m) {T : ℕ → ℤ} {n : ℕ}
    (forward : ∀ k < n, T k ≤ T (k + 1)) :
    ∑ k ∈ Finset.range n, (T (k + 1) - T k) % m = T n - T 0 ↔
      ∀ k < n, T (k + 1) - T k < m := by
  have gap (k : ℕ) (lt : k < n) : 0 ≤ T (k + 1) - T k := by
    have := forward k lt
    omega
  have periods : ∑ k ∈ Finset.range n, (T (k + 1) - T k) / m = 0 ↔
      ∀ k < n, T (k + 1) - T k < m := by
    rw [Finset.sum_eq_zero_iff_of_nonneg fun k mem =>
      div_nonneg_of_forward pos (gap k (Finset.mem_range.mp mem))]
    constructor
    · intro zero k lt
      exact (div_eq_zero_iff pos (gap k lt)).mp (zero k (Finset.mem_range.mpr lt))
    · intro short k mem
      have lt := Finset.mem_range.mp mem
      exact (div_eq_zero_iff pos (gap k lt)).mpr (short k lt)
  rw [sum_mod_gaps, ← periods]
  constructor
  · intro same
    have product : m * ∑ k ∈ Finset.range n, (T (k + 1) - T k) / m = 0 := by linarith
    exact (Int.mul_eq_zero.mp product).resolve_left (Int.ne_of_gt pos)
  · intro zero
    rw [zero, Int.mul_zero, Int.sub_zero]

/-! ## Comparing readings -/

/-- Counts less than a period apart compare as their readings do exactly if no
rollover lies between them. -/
theorem mod_le_iff_period {m a b : ℕ} (above : a < b + m) (below : b < a + m) :
    (a % m ≤ b % m ↔ a ≤ b) ↔ a / m = b / m := by
  have pos : 0 < m := by omega
  have wholeA := Nat.mod_add_div a m
  have wholeB := Nat.mod_add_div b m
  have bitA := Nat.mod_lt a pos
  have bitB := Nat.mod_lt b pos
  constructor
  · intro agree
    by_contra apart
    cases Nat.lt_or_gt_of_ne apart with
    | inl earlier =>
      -- `b` has rolled over and reads low
      have up := Nat.mul_le_mul_left m (Nat.succ_le_of_lt earlier)
      rw [Nat.mul_succ] at up
      have less : a ≤ b := by omega
      have := agree.mpr less
      omega
    | inr later =>
      -- `a` has rolled over and reads low
      have up := Nat.mul_le_mul_left m (Nat.succ_le_of_lt later)
      rw [Nat.mul_succ] at up
      have less : a % m ≤ b % m := by omega
      have := agree.mp less
      omega
  · intro same
    rw [same] at wholeA
    omega

end MidiGw.Rollover
