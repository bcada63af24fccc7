import MidiGw.Setup
import MidiGw.Wire

/-!
# From the tempo to the timer

The interval that `bpm_to_ns` makes of a tempo, the `itimerspec` that
`init_timer` makes of the interval, and what `timer_settime` makes of that:
for which tempos the tap loop runs at the tempo that was asked for.
-/

namespace MidiGw.Tapper

open Cmdline (ArgsInfo)
open Runs (run run_invariant)

structure Timespec where
  tvSec : Int
  tvNsec : Int
  deriving DecidableEq, Repr

structure Itimerspec where
  itValue : Timespec
  itInterval : Timespec
  deriving DecidableEq, Repr

/-- The `its` of `init_timer`. -/
def initTimerSpec (intervalNs : Int) : Itimerspec where
  itValue := ⟨0, intervalNs⟩
  itInterval := ⟨0, intervalNs⟩

def Timespec.InRange (ts : Timespec) : Prop := 0 ≤ ts.tvNsec ∧ ts.tvNsec ≤ 999999999

instance (ts : Timespec) : Decidable ts.InRange := inferInstanceAs (Decidable (_ ∧ _))

/-- `timer_settime` takes it; otherwise it fails with EINVAL. -/
def Itimerspec.Accepted (its : Itimerspec) : Prop := its.itValue.InRange ∧ its.itInterval.InRange

instance (its : Itimerspec) : Decidable its.Accepted := inferInstanceAs (Decidable (_ ∧ _))

/-- `timer_settime` stops the timer. -/
def Itimerspec.Disarms (its : Itimerspec) : Prop := its.itValue = ⟨0, 0⟩

def Timespec.ns (ts : Timespec) : Int := ts.tvSec * 1000000000 + ts.tvNsec

/-- The timer runs at this tempo, from its first expiration on. -/
structure Itimerspec.Beats (its : Itimerspec) (bpm : Int) : Prop where
  accepted : its.Accepted
  armed : ¬its.Disarms
  value : its.itValue.ns = 60000000000 / bpm
  interval : its.itInterval.ns = 60000000000 / bpm

/-! ## The interval -/

theorem bpmToNs_stopped {w : Nat} {bpm : Int32} (stopped : bpm.toInt ≤ 0) : bpmToNs w bpm = 0 := by
  have zero : (0 : Int32).toInt = 0 := by decide
  unfold bpmToNs
  rw [if_neg]
  rw [gt_iff_lt, Int32.lt_iff_toInt_lt, zero]
  omega

/-- From 61 bpm up the quotient fits a `long` of either width. -/
theorem bpmToNs_fast {w : Nat} (wide : w = 32 ∨ w = 64) {bpm : Int32} (fast : 61 ≤ bpm.toInt) :
    bpmToNs w bpm = 60000000000 / bpm.toInt ∧
      0 < 60000000000 / bpm.toInt ∧ 60000000000 / bpm.toInt < 1000000000 := by
  have zero : (0 : Int32).toInt = 0 := by decide
  have top := bpm.toInt_lt
  have positive : bpm > 0 := by
    rw [gt_iff_lt, Int32.lt_iff_toInt_lt, zero]
    omega
  have lo : 1 ≤ 60000000000 / bpm.toInt := Int.le_ediv_of_mul_le (by omega) (by omega)
  have hi : 60000000000 / bpm.toInt < 1000000000 := Int.ediv_lt_of_lt_mul (by omega) (by omega)
  refine ⟨?_, lo, hi⟩
  unfold bpmToNs
  rw [if_pos positive]
  obtain rfl | rfl := wide
  · exact Int.bmod_eq_of_le (by omega) (by omega)
  · exact Int.bmod_eq_of_le (by omega) (by omega)

/-- At 60 bpm and below the period is a second or more. -/
theorem period_slow {bpm : Int} (moving : 0 < bpm) (slow : bpm ≤ 60) :
    1000000000 ≤ 60000000000 / bpm :=
  Int.le_ediv_of_mul_le moving (by omega)

/-- A timer is set to the tempo exactly from 61 bpm up: `tv_sec` stays 0. -/
theorem beats_iff {w : Nat} (wide : w = 32 ∨ w = 64) (bpm : Int32) :
    (initTimerSpec (bpmToNs w bpm)).Beats bpm.toInt ↔ 61 ≤ bpm.toInt := by
  constructor
  · intro beats
    by_contra slow
    by_cases stopped : bpm.toInt ≤ 0
    · apply beats.armed
      rw [bpmToNs_stopped stopped]
      rfl
    · have period := period_slow (by omega : 0 < bpm.toInt) (by omega)
      have range := beats.accepted.1.2
      have value := beats.value
      simp only [initTimerSpec, Timespec.ns] at range value
      omega
  · intro fast
    obtain ⟨same, lo, hi⟩ := bpmToNs_fast wide fast
    rw [same]
    have range : (⟨0, 60000000000 / bpm.toInt⟩ : Timespec).InRange :=
      ⟨by dsimp only; omega, by dsimp only; omega⟩
    refine ⟨⟨range, range⟩, ?_, ?_, ?_⟩
    · intro off
      have nsec := congrArg Timespec.tvNsec off
      simp only [initTimerSpec] at nsec
      omega
    · simp only [initTimerSpec, Timespec.ns]; omega
    · simp only [initTimerSpec, Timespec.ns]; omega

example : ¬(initTimerSpec (bpmToNs 64 60)).Accepted := by decide
-- on a 32-bit `long` the five seconds of 12 bpm wrap to a shorter period
example : (initTimerSpec (bpmToNs 32 12)).Accepted ∧ bpmToNs 32 12 = 705032704 := by decide

/-! ## Runs -/

/-- What `init_timer` hands to `timer_settime`. -/
def timerSpec (b : Build) (args : ArgsInfo) : Itimerspec :=
  initTimerSpec (bpmToNs b.longBits args.tempo.arg)

/-- The kernel accepts a timer exactly if its nanoseconds are in range. -/
def KernelChecks (b : Build) (args : ArgsInfo) (tr : List Event) : Prop :=
  ∀ ok, .called .timerSettime ok ∈ tr → (ok = true ↔ (timerSpec b args).Accepted)

/-- No positive tempo is refused, and behind every other the loop runs with
the timer set to the tempo. -/
structure TempoKept (b : Build) (args : ArgsInfo) (s : State) (tr : List Event) : Prop where
  refused : .called .timerSettime false ∈ tr → args.tempo.arg.toInt ≤ 0
  looping : s.pc.inLoop = true →
    .called .timerSettime true ∈ tr ∧ (timerSpec b args).Beats args.tempo.arg.toInt

theorem inLoop_behind {pc : Pc} (inside : pc.inLoop = true) : pc.behind = 14 := by
  revert inside
  cases pc <;> simp [Pc.inLoop, Pc.behind]

/-- The timer is only set behind the channel check. -/
theorem settime_channel {b : Build} {args : ArgsInfo} {acts : List Act} {s : State}
    {tr : List Event} (h : run (step b args) start acts = some (s, tr)) {ok : Bool}
    (mem : .called .timerSettime ok ∈ tr) : ChannelOk args := by
  have inv := run_invariant
    (fun s tr => MsgInv args s tr ∧ (.called .timerSettime ok ∈ tr → ChannelOk args))
    ⟨startMsgInv args, by intro mem; cases mem⟩ h fun s seen a t out hi hs => by
      refine ⟨msgInv_step hi.1 hs, fun mem => ?_⟩
      cases List.mem_append.mp mem with
      | inl old => exact hi.2 old
      | inr new =>
        have pc := (called_step hs new).1
        exact (hi.1.encoded (by rw [pc]; rfl) (by rw [pc]; rfl)).1
  exact inv.2 (by simpa using mem)

/-- Every call up to `timer_settime` succeeds, and that fails with EINVAL. -/
def bootRefused : List Act := List.replicate 13 (.main okSys) ++ [.main ⟨-1, 22, 0⟩]

theorem bootRefused_run (b : Build) (args : ArgsInfo) (ok : ChannelOk args) :
    ∃ s tr, run (step b args) start bootRefused = some (s, tr) ∧
      .called .timerSettime false ∈ tr ∧ .called .timerSettime true ∉ tr := by
  have quiet := encodeEvents_uncalled b args .timerSettime true
  unfold ChannelOk at ok
  simp [bootRefused, List.replicate, run, step, start, State.over, Pc.exits, mainStep, callStep,
    orFail, fail, okSys, ok, quiet]

/-- **Which tempos are kept.** If the kernel checks the timer as documented, no
positive tempo is refused and the loop always runs with its timer at the tempo,
if and only if the channel is refused before or the tempo is 61 bpm or more. -/
theorem tempo_kept_iff (b : Build) (args : ArgsInfo) :
    (∀ acts s tr, run (step b args) start acts = some (s, tr) → KernelChecks b args tr →
      TempoKept b args s tr) ↔ ¬ChannelOk args ∨ 61 ≤ args.tempo.arg.toInt := by
  have beats := beats_iff b.longWide args.tempo.arg
  constructor
  · intro kept
    by_cases ok : ChannelOk args
    · right
      by_cases accepted : (timerSpec b args).Accepted
      · have kernel : KernelChecks b args (bootTrace b args) := by
          intro answer mem
          have quiet := encodeEvents_uncalled b args .timerSettime answer
          have set : answer = true := by simpa [bootTrace, quiet] using mem
          simp [set, accepted]
        exact beats.mp ((kept _ _ _ (boot_run b args ok) kernel).looping rfl).2
      · -- an interval that is refused comes from a positive tempo
        exfalso
        obtain ⟨s, tr, h, refused, unset⟩ := bootRefused_run b args ok
        have kernel : KernelChecks b args tr := by
          intro answer mem
          cases answer with
          | true => exact absurd mem unset
          | false => simp [accepted]
        have stopped := (kept _ s tr h kernel).refused refused
        apply accepted
        rw [timerSpec, bpmToNs_stopped stopped]
        decide
    · exact .inl ok
  · rintro fine acts s tr h kernel
    constructor
    · intro refused
      have ok := settime_channel h refused
      have fast := fine.resolve_left (not_not_intro ok)
      have := (kernel false refused).mpr (beats.mpr fast).accepted
      cases this
    · intro inside
      have ok := channelOk_of_inLoop h inside
      have going := (inLoop_past inside).2
      have made := (reachable_callInv h).passed going .timerSettime (by
        rw [inLoop_behind inside]; decide)
      have set := made.resolve_right fun both => by
        have := both.2
        cases this
      exact ⟨set, beats.mpr (fine.resolve_left (not_not_intro ok))⟩

/-- `--tempo 60`: a period of one second. -/
def tempoOfOneSecond : ArgsInfo :=
  { Cmdline.cmdlineParserInit with tempo := ⟨60, some "60".toList, 1⟩ }

/-- The timer is refused, and the tapper exits. -/
theorem tempo_not_kept :
    ¬∀ (b : Build) (args : ArgsInfo), ChannelOk args → ∀ acts s tr,
      run (step b args) start acts = some (s, tr) → KernelChecks b args tr →
        TempoKept b args s tr := by
  intro kept
  obtain ⟨s, tr, h, refused, unset⟩ :=
    bootRefused_run (Build.plain false) tempoOfOneSecond (by decide)
  have kernel : KernelChecks (Build.plain false) tempoOfOneSecond tr := by
    intro answer mem
    cases answer with
    | true => exact absurd mem unset
    | false => exact iff_of_false (by decide) (by decide)
  have stopped := (kept _ _ (by decide) _ s tr h kernel).refused refused
  exact absurd stopped (by decide)

end MidiGw.Tapper
