import MidiGw.Ends
import MidiGw.Unread

/-!
# Diagnostics and taps

When a print of the tapper can wait for ever, and when that keeps a message
from being sent, in either build and with or without `--repeats`.
-/

namespace MidiGw.Tapper

open Cmdline (ArgsInfo)
open Runs (run run_append run_single along_of_forall)

/-! ## What is promised of it -/

/-- However long it taps, the pipes hold no more than that. -/
def WritesAtMost (b : Build) (args : ArgsInfo) (bound : Nat) : Prop :=
  ∀ acts s tr, run (piped b args) fresh acts = some (s, tr) →
    s.held .stdout + s.held .stderr ≤ bound

/-- No print ever waits. -/
def NeverBlocks (b : Build) (args : ArgsInfo) : Prop :=
  ∀ acts s tr, run (piped b args) fresh acts = some (s, tr) → s.waiting = none

/-- A message that is due waits behind a print, with no handler under way that
would break the print off. -/
def KeepsMessage (b : Build) (args : ArgsInfo) : Prop :=
  ∃ acts s tr w, run (piped b args) fresh acts = some (s, tr) ∧ s.waiting = some w ∧
    w.broken = false ∧ Due args s.prog ∧ s.prog.over = false ∧ s.prog.frames = []

/-- The pipe has room for that many lines of the loop, if any are printed. -/
def LinesFit (b : Build) (args : ArgsInfo) (lines : Nat) : Prop :=
  b.debug = false ∨
    args.repeats.given ≠ 0 ∧ encodeLength b args + b.tapLength * lines ≤ pipeCapacity

/-! ## Room for every line -/

section
variable {b : Build} (limits : b.Limits) {args : ArgsInfo}
include limits

/-- A print waits only in a DEBUG build, and with `--repeats` only where the
lines up to it do not fit. -/
theorem waits_unfit (path : args.serial.arg.length < pathMax) {acts : List Act} {s : Piped}
    {tr : List Event} (h : run (piped b args) fresh acts = some (s, tr))
    {w : Pipes.Waiting Act Event} (waits : s.waiting = some w) {lines : Nat}
    (few : args.repeats.given ≠ 0 → s.prog.i + 1 ≤ lines) : ¬LinesFit b args lines := by
  have stands := (reachable_pipeInv limits path h).waits w waits
  rintro (release | ⟨given, fits⟩)
  · have debug := stands.debug
    rw [release] at debug
    cases debug
  · have more := stands.full given
    have longest := Int.mul_le_mul_of_nonneg_left (few given) (Int.natCast_nonneg b.tapLength)
    have cast : ((b.tapLength * lines : Nat) : Int) = b.tapLength * lines := Int.natCast_mul _ _
    omega

theorem never_blocks_of_fit (path : args.serial.arg.length < pathMax)
    (fits : LinesFit b args (repeatLimit args).toNat) : NeverBlocks b args := by
  intro acts s tr h
  cases waits : s.waiting with
  | none => rfl
  | some w =>
    refine absurd fits (waits_unfit limits path h waits fun given => ?_)
    obtain ⟨_, _, prog⟩ := Pipes.prog_reached h
    have limit := (reached_progInv prog).limit given
    rw [((reachable_pipeInv limits path h).waits w waits).pc] at limit
    simp only [Pc.toCount] at limit
    omega

theorem kept_unfit (path : args.serial.arg.length < pathMax) (kept : KeepsMessage b args) :
    ¬LinesFit b args ((repeatLimit args).toNat - 1) := by
  obtain ⟨acts, s, tr, w, h, waits, -, due, -, -⟩ := kept
  refine waits_unfit limits path h waits fun given => ?_
  have below := due.more.resolve_left given
  have limit := Int.le_max_right 1 args.repeats.arg.toInt
  unfold repeatLimit
  omega

/-- Without DEBUG the pipes hold a few lines. -/
theorem release_writes (path : args.serial.arg.length < pathMax) (release : b.debug = false) :
    WritesAtMost b args (6 * lineLength) := by
  intro acts s tr h
  have inv := reachable_pipeInv limits path h
  have stdout := Nat.le_trans inv.stdout (lines_le s.prog.pc)
  have stderr := inv.release release
  split at stderr <;> omega

end

/-! ## A run that fills the pipe -/

/-- A tap behind which the clock has just begun a new second, up to the check
of the repeats. -/
def longTap : List Act :=
  [.signal .sigrtmin, .handler] ++ List.replicate 4 (.main ⟨3, 0, 0⟩) ++
    [.main ⟨3, 0, 999999999⟩, .main ⟨3, 0, 0⟩, .main ⟨3, 0, 0⟩]

/-- What `longTap` shows in a DEBUG build. -/
def longTapTrace (b : Build) (args : ArgsInfo) : List Event :=
  [.tick false, .cleared, .wrote (midiMsg args) 3] ++ tookEvents b 999999999 0

/-- What as many of them show from the start of the process. -/
def tapsTrace (b : Build) (args : ArgsInfo) (n : Nat) : List Event :=
  bootTrace b args ++ (List.replicate n (longTapTrace b args)).flatten

section
variable {b : Build} {args : ArgsInfo}

/-- Back at the loop test, where more repeats are asked for. -/
theorem longTap_back {s : State} (h : AtHead s) (more : args.repeats.given = 0 ∨
      s.i + 1 < args.repeats.arg.toInt) :
    ∃ t, step b args { s with pc := .checkRepeats, t0 := 999999999 } (.main okSys) =
        some (t, []) ∧ AtHead t ∧ t.midiMsg = s.midiMsg ∧
      (args.repeats.given ≠ 0 → t.i = s.i + 1) := by
  obtain ⟨pc, running, trigger, frames, alive, installed⟩ := h
  by_cases absent : args.repeats.given = 0
  · refine ⟨{ s with pc := .testRunning, t0 := 999999999 }, ?_,
      ⟨rfl, running, trigger, frames, alive, installed⟩, rfl, fun given => absurd absent given⟩
    simp [step, State.over, Pc.exits, alive, frames, mainStep, absent]
  · have below : ¬s.i + 1 ≥ args.repeats.arg.toInt := by
      have := more.resolve_left absent
      omega
    refine ⟨{ s with pc := .testRunning, t0 := 999999999, i := s.i + 1 }, ?_,
      ⟨rfl, running, trigger, frames, alive, installed⟩, rfl, fun _ => rfl⟩
    simp [step, State.over, Pc.exits, alive, frames, mainStep, absent, below]

theorem bootTrace_stderr : printed b args .stderr (bootTrace b args) = encodeLength b args := by
  unfold bootTrace
  rw [printed_append, printed_append]
  simp [printed_cons, encodeLength]

theorem bootTrace_stdout : printed b args .stdout (bootTrace b args) ≤ 2 * lineLength := by
  have opened : ("Serial port is open (".toList ++ fmtInt 0 ++ ")\n".toList).length ≤ lineLength :=
    opened_length 0
  have created := created_length b 1
  unfold bootTrace
  rw [printed_append, printed_append, encodeEvents_stdout]
  simp only [printed_cons, printed_nil, length_called, length_applied, length_stdout, ↓reduceIte]
  omega

end

section
variable {b : Build} (debug : b.debug = true) {args : ArgsInfo}
include debug

theorem longTap_run {s : State} (h : AtHead s) (msg : s.midiMsg = midiMsg args) :
    run (step b args) s longTap =
      some ({ s with pc := .checkRepeats, t0 := 999999999 }, longTapTrace b args) := by
  obtain ⟨pc, running, trigger, frames, alive, installed⟩ := h
  simp [longTap, longTapTrace, debug, List.replicate, run, step, State.over, Pc.exits, alive, pc,
    frames, State.handlerFor, installed, handlerTimer, trigger, mainStep, running, msg]

/-- In front of the loop test behind so many taps. -/
structure BehindTaps (args : ArgsInfo) (n : Nat) (s : State) : Prop where
  head : AtHead s
  msg : s.midiMsg = midiMsg args
  count : args.repeats.given ≠ 0 → s.i = n

theorem longTaps_run (n : Nat) (few : args.repeats.given = 0 ∨ (n : Int) < repeatLimit args) :
    ∃ acts s, run (step b args) (loopHead args) acts =
        some (s, (List.replicate n (longTapTrace b args)).flatten) ∧
      BehindTaps args n s ∧ ∀ a ∈ acts, a.inSecond = true := by
  induction n with
  | zero => exact ⟨[], loopHead args, rfl, ⟨loopHead_atHead args, rfl, fun _ => rfl⟩, by simp⟩
  | succ n ih =>
    obtain ⟨acts, s, front, ⟨head, msg, count⟩, fine⟩ := ih (few.imp id fun below => by omega)
    have more : args.repeats.given = 0 ∨ s.i + 1 < args.repeats.arg.toInt := by
      by_cases absent : args.repeats.given = 0
      · exact .inl absent
      · have below := few.resolve_left absent
        rw [count absent]
        unfold repeatLimit at below
        omega
    obtain ⟨t, back, head', msg', count'⟩ := longTap_back head more
    have lap := longTap_run debug head msg
    refine ⟨acts ++ (longTap ++ [.main okSys]), t, ?_, ⟨head', msg'.trans msg, ?_⟩, ?_⟩
    · rw [List.replicate_succ', List.flatten_append, List.flatten_singleton]
      refine run_append.mpr ⟨s, _, _, front, ?_, rfl⟩
      exact run_append.mpr ⟨_, _, [], lap, run_single.mpr back, by simp⟩
    · intro given
      rw [count' given, count given]
      rfl
    · intro a mem
      cases List.mem_append.mp mem with
      | inl before => exact fine a before
      | inr lap => exact (by decide : ∀ a ∈ longTap ++ [.main okSys], a.inSecond = true) a lap

/-- As many taps as there are, the last one up to the check behind it. -/
theorem tapped_run (ok : ChannelOk args) (n : Nat)
    (few : args.repeats.given = 0 ∨ (n : Int) < repeatLimit args) :
    ∃ acts s, run (unread b args).step start acts = some (s, tapsTrace b args (n + 1)) := by
  obtain ⟨acts, s, taps, ⟨head, msg, -⟩, fine⟩ := longTaps_run debug n few
  have last := longTap_run debug head msg
  have all : ∀ a ∈ boot ++ (acts ++ longTap), a.inSecond = true := by
    intro a mem
    simp only [List.mem_append] at mem
    rcases mem with front | taps | lap
    · exact (by decide : ∀ a ∈ boot, a.inSecond = true) a front
    · exact fine a taps
    · exact (by decide : ∀ a ∈ longTap, a.inSecond = true) a lap
  have alone : run (step b args) start (boot ++ (acts ++ longTap)) =
      some ({ s with pc := .checkRepeats, t0 := 999999999 }, tapsTrace b args (n + 1)) := by
    rw [tapsTrace, List.replicate_succ', List.flatten_append, List.flatten_singleton]
    exact run_append.mpr
      ⟨_, _, _, boot_run b args ok, run_append.mpr ⟨_, _, _, taps, last, rfl⟩, rfl⟩
  exact ⟨_, _, Runs.guarded_run alone
    (along_of_forall (fun a mem u _ => answerable_of (all a mem) u) start [])⟩

theorem longTapTrace_stderr : printed b args .stderr (longTapTrace b args) = b.tapLength := by
  unfold longTapTrace
  rw [printed_append, tookEvents_longest debug]
  exact Nat.zero_add _

theorem longTapTrace_stdout : printed b args .stdout (longTapTrace b args) = 0 := by
  unfold longTapTrace tookEvents Build.dprint
  rw [if_pos debug]
  rfl

end

theorem tapsTrace_uninterrupted (b : Build) (args : ArgsInfo) (n : Nat) :
    .interrupt ∉ tapsTrace b args n := by
  have boot : .interrupt ∉ bootTrace b args := by
    cases debug : b.debug <;> simp [bootTrace, encodeEvents, Build.dprint, debug]
  have tap : .interrupt ∉ longTapTrace b args := by
    cases debug : b.debug <;> simp [longTapTrace, tookEvents, Build.dprint, debug]
  intro mem
  cases List.mem_append.mp mem with
  | inl front => exact boot front
  | inr back =>
    obtain ⟨lap, among, mem⟩ := List.mem_flatten.mp back
    rw [List.eq_of_mem_replicate among] at mem
    exact tap mem

theorem tapsTrace_sent (b : Build) (args : ArgsInfo) (n : Nat) : sent (tapsTrace b args n) = n := by
  have tap : sent (longTapTrace b args) = 1 := by
    unfold longTapTrace
    rw [sent_append, (tookEvents_silent b 999999999 0).sent]
    rfl
  unfold tapsTrace
  rw [sent_append, (bootTrace_silent b args).sent, Nat.zero_add]
  induction n with
  | zero => rfl
  | succ n ih => rw [List.replicate_succ, List.flatten_cons, sent_append, tap, ih, Nat.add_comm]

theorem tapsTrace_stderr {b : Build} (debug : b.debug = true) (args : ArgsInfo) (n : Nat) :
    printed b args .stderr (tapsTrace b args n) = encodeLength b args + b.tapLength * n := by
  unfold tapsTrace
  rw [printed_append, bootTrace_stderr]
  have taps : printed b args .stderr (List.replicate n (longTapTrace b args)).flatten =
      n * printed b args .stderr (longTapTrace b args) := Pipes.total_replicate _ _ _
  rw [taps, longTapTrace_stderr debug, Nat.mul_comm]

theorem tapsTrace_stdout {b : Build} (debug : b.debug = true) (args : ArgsInfo) (n : Nat) :
    printed b args .stdout (tapsTrace b args n) ≤ pipeCapacity := by
  have taps : printed b args .stdout (List.replicate n (longTapTrace b args)).flatten =
      n * printed b args .stdout (longTapTrace b args) := Pipes.total_replicate _ _ _
  have boot := @bootTrace_stdout b args
  have room : 2 * lineLength ≤ pipeCapacity := by decide
  unfold tapsTrace
  rw [printed_append, taps, longTapTrace_stdout debug, Nat.mul_zero]
  omega

/-- In front of a print that finds no room. -/
structure AtFull (b : Build) (args : ArgsInfo) (n : Nat) (s : State) (held : Pipe → Nat)
    (r : Sys) : Prop where
  reached : ∃ acts tr, run (piped b args) fresh acts = some (⟨s, held, none⟩, tr)
  within : ∀ p, held p ≤ pipeCapacity
  pc : s.pc = .now1
  ok : r.inSecond = true
  alive : s.over = false
  calm : s.frames = []
  running : s.running = true
  installed : s.timerInstalled = true
  count : args.repeats.given ≠ 0 → s.i + 1 ≤ n
  full : pipeCapacity < held .stderr + printed b args .stderr (tookEvents b s.t0 r.out)

theorem AtFull.waits {b : Build} {args : ArgsInfo} {n : Nat} {s : State} {held : Pipe → Nat}
    {r : Sys} (h : AtFull b args n s held r) :
    ∃ x shown w, piped b args ⟨s, held, none⟩ (.main r) = some (x, shown) ∧ x.prog = s ∧
      x.waiting = some w ∧ w.act = .main r ∧ w.broken = false := by
  have taken : step b args s (.main r) =
      some ({ s with pc := .checkRepeats }, tookEvents b s.t0 r.out) := by
    simp [step, h.alive, h.calm, mainStep, h.pc]
  have main : (unread b args).step s (.main r) =
      some ({ s with pc := .checkRepeats }, tookEvents b s.t0 r.out) :=
    Runs.guarded_step.mpr ⟨by simp [answerable, h.pc, h.ok], taken⟩
  exact Pipes.piped_waits main h.within h.full

/-- The next tick comes in front of the print. -/
theorem AtFull.ticked {b : Build} {args : ArgsInfo} {n : Nat} {s : State} {held : Pipe → Nat}
    {r : Sys} (h : AtFull b args n s held r) :
    AtFull b args n { s with trigger := true } held r := by
  obtain ⟨acts, tr, hr⟩ := h.reached
  have alive := h.alive
  simp only [State.over, Bool.or_eq_false_iff] at alive
  have tick : run (unread b args).step s [.signal .sigrtmin, .handler] =
      some ({ s with trigger := true }, [.tick s.trigger]) := by
    simp [run, unread, Runs.guarded, answerable, step, State.over, alive.1, alive.2,
      State.handlerFor, h.installed, h.calm, handlerTimer]
  have behind : run (piped b args) ⟨s, held, none⟩ [.signal .sigrtmin, .handler] =
      some (⟨{ s with trigger := true }, held, none⟩, [.tick s.trigger]) :=
    Pipes.piped_run tick fun p => by
      have silent : (unread b args).total p [.tick s.trigger] = 0 := rfl
      rw [silent]
      exact h.within p
  exact { h with reached := ⟨_, _, run_append.mpr ⟨_, _, _, hr, behind, rfl⟩⟩ }

section
variable {b : Build} (limits : b.Limits) {args : ArgsInfo}
include limits

/-- As many taps whose lines pass the capacity lead to a print without room. -/
theorem atFull_of_exceeds (debug : b.debug = true) (accepted : Accepted args) (n : Nat)
    (few : args.repeats.given = 0 ∨ (n : Int) < repeatLimit args)
    (more : pipeCapacity < encodeLength b args + b.tapLength * (n + 1)) :
    ∃ s held r, AtFull b args (n + 1) s held r := by
  obtain ⟨acts, last, hr⟩ := tapped_run debug accepted.1 n few
  have total := tapsTrace_stderr debug args (n + 1)
  have exceeds :
      (unread b args).capacity < (unread b args).total .stderr (tapsTrace b args (n + 1)) :=
    Nat.lt_of_lt_of_eq more total.symm
  obtain ⟨pre, a, u, seen, v, out, hu, hs, ⟨rest, inside⟩, within, passed⟩ :=
    Pipes.crossing hr exceeds
  have stdout : printed b args .stdout seen ≤ pipeCapacity := by
    have whole := tapsTrace_stdout debug args (n + 1)
    rw [← inside, printed_append, printed_append] at whole
    omega
  have fits (p : Pipe) : 0 + printed b args p seen ≤ pipeCapacity := by
    rw [Nat.zero_add]
    cases p with
    | stdout => exact stdout
    | stderr => exact within
  have front := Pipes.piped_run hu fits
  have full : pipeCapacity < 0 + printed b args .stderr seen + printed b args .stderr out := by
    rw [Nat.zero_add, ← printed_append]
    exact passed
  obtain ⟨x, shown, w, hx, prog, waits, act, -⟩ := Pipes.piped_waits hs fits full
  have stands := (reachable_pipeInv limits accepted.2
    (run_append.mpr ⟨_, _, _, front, run_single.mpr hx, rfl⟩)).waits w waits
  obtain ⟨r, e, main, ok, -⟩ := stands.line
  have pc := stands.pc
  rw [prog] at pc
  obtain rfl : a = .main r := act.symm.trans main
  have taken := (Runs.guarded_step.mp hs).2
  have alive := step_alive taken
  have calm := main_unframed taken
  have alone := Runs.run_of_guarded hu
  have line : out = tookEvents b u.t0 r.out := by
    simpa [step, alive, calm, mainStep, pc] using (congrArg (Option.map Prod.snd) taken).symm
  refine ⟨u, _, r, ⟨_, _, front⟩, fits, pc, ok, alive, calm, ?_, ?_, ?_, ?_⟩
  · refine (reachable_running alone).resolve_right fun mem => ?_
    apply tapsTrace_uninterrupted b args (n + 1)
    rw [← inside]
    exact List.mem_append_left rest (List.mem_append_left out mem)
  · exact (reachable_endInv alone).timer (by rw [pc]; rfl) (by rw [pc]; decide)
  · intro given
    obtain ⟨count, -⟩ := reachable_repeatInv given alone
    have messages := tapsTrace_sent b args (n + 1)
    rw [← inside, sent_append, sent_append] at messages
    simp only [State.counted, pc, Pc.uncounted] at count
    omega
  · rw [← line]
    exact full

/-- Lines that do not fit lead to a print without room. -/
theorem atFull_of_unfit (accepted : Accepted args) {lines : Nat}
    (few : args.repeats.given ≠ 0 → lines ≤ repeatLimit args) (unfit : ¬LinesFit b args lines) :
    ∃ n s held r, AtFull b args n s held r ∧ (args.repeats.given ≠ 0 → n ≤ lines) := by
  obtain ⟨on, crowded⟩ := not_or.mp unfit
  have debug : b.debug = true := by simpa using on
  by_cases absent : args.repeats.given = 0
  · -- each line has a character
    have one : 1 ≤ b.tapLength := by
      rw [Build.tapLength, if_pos debug]
      omega
    have all := Nat.mul_le_mul_right (pipeCapacity + 1) one
    obtain ⟨s, held, r, full⟩ := atFull_of_exceeds limits debug accepted pipeCapacity (.inl absent)
      (by omega)
    exact ⟨_, s, held, r, full, fun given => absurd absent given⟩
  · have more : pipeCapacity < encodeLength b args + b.tapLength * lines :=
      Nat.lt_of_not_le fun fits => crowded ⟨absent, fits⟩
    have encode := encodeLength_le limits args
    have room : 2 * lineLength ≤ pipeCapacity := by decide
    obtain ⟨n, rfl⟩ : ∃ n, lines = n + 1 := by
      cases lines with
      | zero => omega
      | succ n => exact ⟨n, rfl⟩
    have below := few absent
    obtain ⟨s, held, r, full⟩ := atFull_of_exceeds limits debug accepted n (.inr (by omega)) more
    exact ⟨n + 1, s, held, r, full, fun _ => Nat.le_refl _⟩

theorem neverBlocks_iff (accepted : Accepted args) :
    NeverBlocks b args ↔ LinesFit b args (repeatLimit args).toNat := by
  constructor
  · intro never
    by_contra unfit
    have positive : 1 ≤ repeatLimit args := Int.le_max_left 1 _
    obtain ⟨n, s, held, r, full, -⟩ :=
      atFull_of_unfit limits accepted (fun _ => by omega) unfit
    obtain ⟨acts, tr, hr⟩ := full.reached
    obtain ⟨x, shown, w, hx, -, waits, -, -⟩ := full.waits
    have idle := never _ _ _ (run_append.mpr ⟨_, _, _, hr, run_single.mpr hx, rfl⟩)
    rw [waits] at idle
    cases idle
  · exact never_blocks_of_fit limits accepted.2

theorem keepsMessage_iff (accepted : Accepted args) :
    KeepsMessage b args ↔ ¬LinesFit b args ((repeatLimit args).toNat - 1) := by
  constructor
  · exact kept_unfit limits accepted.2
  · intro unfit
    have positive : 1 ≤ repeatLimit args := Int.le_max_left 1 _
    obtain ⟨n, s, held, r, full, few⟩ :=
      atFull_of_unfit limits accepted (fun _ => by omega) unfit
    obtain ⟨acts, tr, hr⟩ := full.ticked.reached
    obtain ⟨x, shown, w, hx, prog, waits, -, unbroken⟩ := full.ticked.waits
    refine ⟨_, x, _, w, run_append.mpr ⟨_, _, _, hr, run_single.mpr hx, rfl⟩, waits, unbroken, ?_⟩
    rw [prog]
    refine ⟨⟨rfl, full.running, ?_⟩, full.ticked.alive, full.calm⟩
    by_cases absent : args.repeats.given = 0
    · exact .inl absent
    · obtain ⟨_, _, alone⟩ := Pipes.prog_reached hr
      have nonneg : 0 ≤ s.i := (reached_progInv alone).nonneg
      have count := full.count absent
      have below := few absent
      unfold repeatLimit at below positive
      exact .inr (by dsimp only; omega)

end

/-- **Diagnostics and taps.** The pipes hold what a tapper prints for every
accepted argument set and however long it taps, and none of its prints waits,
if and only if it is built without DEBUG. For each argument set: a print can
wait if and only if the lines of all its taps do not fit in the pipe, and keep
the message of a tick from being sent if and only if the lines up to the last
tap but one do not. A print that waits keeps every message until a handler
runs; then its line is lost, and the taps go on. -/
theorem diagnostics_block_iff (b : Build) (limits : b.Limits) :
    ((∀ args, Accepted args →
        (∃ bound < pipeCapacity, WritesAtMost b args bound) ∧ NeverBlocks b args) ↔
      b.debug = false) ∧
    ∀ args, Accepted args →
      (NeverBlocks b args ↔ LinesFit b args (repeatLimit args).toNat) ∧
      (KeepsMessage b args ↔ ¬LinesFit b args ((repeatLimit args).toNat - 1)) ∧
      ∀ acts s tr w, run (piped b args) fresh acts = some (s, tr) → s.waiting = some w →
        Blocked b args s w := by
  constructor
  · constructor
    · intro harmless
      have plain : Accepted Cmdline.cmdlineParserInit := ⟨by decide, by decide⟩
      have fits := (neverBlocks_iff limits plain).mp (harmless _ plain).2
      exact fits.resolve_right fun limited => limited.1 rfl
    · intro release args accepted
      exact ⟨⟨6 * lineLength, by decide, release_writes limits accepted.2 release⟩,
        never_blocks_of_fit limits accepted.2 (.inl release)⟩
  · intro args accepted
    exact ⟨neverBlocks_iff limits accepted, keepsMessage_iff limits accepted,
      fun acts s tr w h waits => blocked_of_waits limits accepted.2 h waits⟩

theorem plain_limits (debug : Bool) : (Build.plain debug).Limits :=
  ⟨by cases debug <;> decide, fun _ => Nat.zero_le _⟩

/-- With no error texts a release build never blocks, and a DEBUG build whose
repeats end behind the first message keeps none. -/
theorem diagnostics_block_plain :
    NeverBlocks (Build.plain false) Cmdline.cmdlineParserInit ∧
      ¬KeepsMessage (Build.plain true) repeatsForever := by
  have release := (diagnostics_block_iff (Build.plain false) (plain_limits false)).1.mpr rfl
  have debug := (diagnostics_block_iff (Build.plain true) (plain_limits true)).2
  refine ⟨(release _ ⟨by decide, by decide⟩).2, fun kept => ?_⟩
  refine (debug repeatsForever ⟨by decide, by decide⟩).2.1.mp kept (.inr ⟨by decide, ?_⟩)
  decide

/-- A DEBUG build without `--repeats` blocks, and keeps a message. -/
theorem debug_keeps_message :
    ¬NeverBlocks (Build.plain true) Cmdline.cmdlineParserInit ∧
      KeepsMessage (Build.plain true) Cmdline.cmdlineParserInit := by
  have plain : Accepted Cmdline.cmdlineParserInit := ⟨by decide, by decide⟩
  have unfit (lines : Nat) : ¬LinesFit (Build.plain true) Cmdline.cmdlineParserInit lines := by
    rintro (release | limited)
    · cases release
    · exact limited.1 rfl
  exact ⟨fun never => unfit _ ((neverBlocks_iff (plain_limits true) plain).mp never),
    (keepsMessage_iff (plain_limits true) plain).mpr (unfit _)⟩

end MidiGw.Tapper
