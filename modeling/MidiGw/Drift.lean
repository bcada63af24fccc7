import MidiGw.Rollover
import Mathlib.Data.Int.ModEq

/-!
# Measuring the timer's drift

`drift.c`: how long its timer handler and its sleeping loops believe they have
waited. The clock is read as `tv_nsec` alone, so a second that has gone by
shows as a negative difference, and only one second is ever put back.
-/

namespace MidiGw.Drift

open Rollover (corrected_eq mod_eq_iff sum_mod_gaps sum_mod_gaps_eq_iff)

/-- `get_now_ns` at a time of the monotonic clock, in nanoseconds. -/
def getNowNs (t : ℕ) : ℤ := (t : ℤ) % 1000000000

/-- `now - last`, and 1000000000 more if that is negative. -/
def waited (last now : ℤ) : ℤ :=
  if now - last < 0 then now - last + 1000000000 else now - last

/-- The globals of the timer. -/
structure State where
  trigger : Bool
  timerLast : ℤ
  timerWaited : ℤ
  timerDrift : ℤ
  timerIntervalNs : ℤ
  deriving DecidableEq, Repr

/-- The end of `init_timer`, which marks the start of the timer. -/
def initTimer (s : State) (t : ℕ) : State := { s with timerLast := getNowNs t }

def handlerTimer (s : State) (t : ℕ) : State :=
  { s with
    timerWaited := waited s.timerLast (getNowNs t)
    timerLast := getNowNs t
    timerDrift := s.timerIntervalNs - waited s.timerLast (getNowNs t)
    trigger := true }

/-- What an iteration of `loop_usleep` prints, its clock read in front of and
behind the sleep; `loop_nanosleep` differs in the sleep only. -/
def loopReport (ns : ℤ) (t0 t1 : ℕ) : ℤ × ℤ :=
  (waited (getNowNs t0) (getNowNs t1), ns - waited (getNowNs t0) (getNowNs t1))

/-- The state after `k` firings; the timer is started at `T 0`. -/
def fired (s : State) (T : ℕ → ℕ) : ℕ → State
  | 0 => initTimer s (T 0)
  | k + 1 => handlerTimer (fired s T k) (T (k + 1))

/-! ## One measurement -/

/-- The measured wait is the true one modulo a second. -/
theorem waited_eq (t0 t1 : ℕ) :
    waited (getNowNs t0) (getNowNs t1) = ((t1 : ℤ) - t0) % 1000000000 :=
  corrected_eq (by decide) (t0 : ℤ) t1

/-- A wait and a drift as they are reported for a true distance in time. -/
structure Measured (interval gap wait drift : ℤ) : Prop where
  range : 0 ≤ wait ∧ wait < 1000000000
  congruent : wait ≡ gap [ZMOD 1000000000]
  exact_iff : wait = gap ↔ gap < 1000000000
  drift : drift = interval - wait

theorem measured_mod (interval : ℤ) {gap : ℤ} (fwd : 0 ≤ gap) :
    Measured interval gap (gap % 1000000000) (interval - gap % 1000000000) where
  range := ⟨Int.emod_nonneg gap (by decide), Int.emod_lt_of_pos gap (by decide)⟩
  congruent := Int.mod_modEq gap 1000000000
  exact_iff := mod_eq_iff (by decide) fwd
  drift := rfl

/-- The sleeping loops report their sleeps as the handler does its intervals. -/
theorem loop_measured (ns : ℤ) {t0 t1 : ℕ} (fwd : t0 ≤ t1) :
    Measured ns ((t1 : ℤ) - t0) (loopReport ns t0 t1).1 (loopReport ns t0 t1).2 := by
  have gap : 0 ≤ (t1 : ℤ) - t0 := by omega
  simp only [loopReport, waited_eq]
  exact measured_mod ns gap

/-- No step of the handler leaves a `long` of 32 bits, for an interval of one. -/
theorem handler_fits (s : State) (last t : ℕ) (start : s.timerLast = getNowNs last)
    (interval : 0 ≤ s.timerIntervalNs ∧ s.timerIntervalNs < 2 ^ 31) :
    (-2 ^ 31 < getNowNs t - s.timerLast ∧ getNowNs t - s.timerLast < 2 ^ 31) ∧
    (-2 ^ 31 < (handlerTimer s t).timerDrift ∧ (handlerTimer s t).timerDrift < 2 ^ 31) := by
  simp only [handlerTimer, start, waited_eq]
  unfold getNowNs
  omega

/-! ## Whole runs -/

theorem fired_interval (s : State) (T : ℕ → ℕ) (k : ℕ) :
    (fired s T k).timerIntervalNs = s.timerIntervalNs := by
  induction k with
  | zero => rfl
  | succ k ih => exact ih

/-- The handler leaves the reading of its own firing behind. -/
theorem fired_last (s : State) (T : ℕ → ℕ) (k : ℕ) :
    (fired s T k).timerLast = getNowNs (T k) := by
  cases k with
  | zero => rfl
  | succ k => rfl

theorem fired_waited (s : State) (T : ℕ → ℕ) (k : ℕ) :
    (fired s T (k + 1)).timerWaited = ((T (k + 1) : ℤ) - T k) % 1000000000 := by
  rw [← waited_eq, ← fired_last s T k]
  rfl

theorem fired_drift (s : State) (T : ℕ → ℕ) (k : ℕ) :
    (fired s T (k + 1)).timerDrift =
      s.timerIntervalNs - ((T (k + 1) : ℤ) - T k) % 1000000000 := by
  rw [← fired_waited s T k, ← fired_interval s T k]
  rfl

/-- **Drift over whole runs.** Each firing reports its distance from the one
before modulo a second, in full exactly if that is shorter. The reports of a
run add up to its length exactly if no gap reached a second, and otherwise
fall short by the seconds that went by whole inside a gap. -/
theorem drift_measured (s : State) (T : ℕ → ℕ) (n : ℕ) (forward : ∀ k < n, T k ≤ T (k + 1)) :
    (∀ k < n, Measured s.timerIntervalNs ((T (k + 1) : ℤ) - T k)
      (fired s T (k + 1)).timerWaited (fired s T (k + 1)).timerDrift) ∧
    (∑ k ∈ Finset.range n, (fired s T (k + 1)).timerWaited = (T n : ℤ) - T 0 ↔
      ∀ k < n, (T (k + 1) : ℤ) - T k < 1000000000) ∧
    ∑ k ∈ Finset.range n, (fired s T (k + 1)).timerWaited =
      (T n : ℤ) - T 0 -
        1000000000 * ∑ k ∈ Finset.range n, ((T (k + 1) : ℤ) - T k) / 1000000000 := by
  have reports : ∑ k ∈ Finset.range n, (fired s T (k + 1)).timerWaited =
      ∑ k ∈ Finset.range n, ((T (k + 1) : ℤ) - T k) % 1000000000 :=
    Finset.sum_congr rfl fun k _ => fired_waited s T k
  refine ⟨?_, ?_, ?_⟩
  · intro k lt
    have gap : 0 ≤ (T (k + 1) : ℤ) - T k := by
      have := forward k lt
      omega
    rw [fired_waited, fired_drift]
    exact measured_mod s.timerIntervalNs gap
  · rw [reports]
    apply sum_mod_gaps_eq_iff (T := fun k => (T k : ℤ)) (by decide)
    intro k lt
    exact Int.ofNat_le.mpr (forward k lt)
  · rw [reports]
    exact sum_mod_gaps 1000000000 (fun k => (T k : ℤ)) n

/-- Three firings, the last after two seconds and a half: two are lost. -/
theorem drift_measured_stall :
    ∑ k ∈ Finset.range 3, (fired ⟨false, 0, 0, 0, 526315789⟩
        (fun k => [900000000, 1400000000, 1900000000, 4400000000].getD k 0) (k + 1)).timerWaited =
      4400000000 - 900000000 - 1000000000 * 2 := by
  have run := drift_measured ⟨false, 0, 0, 0, 526315789⟩
    (fun k => [900000000, 1400000000, 1900000000, 4400000000].getD k 0) 3
    (by decide)
  rw [run.2.2]
  decide

end MidiGw.Drift
