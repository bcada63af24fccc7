import MidiGw.Prints
import MidiGw.Repeats

/-!
# The tapper behind its pipes

What the pipes hold at each point of `main`. Up to the loop every print finds
room; the one that may wait is the `dprint` behind a write, in a DEBUG build.
What waits there, what becomes of it when a signal comes, and how the taps go
on behind it.
-/

namespace MidiGw.Tapper

open Cmdline (ArgsInfo)
open Runs (run run_invariant_reached run_invariant_along along_of_forall)

/-! ## What the pipes hold -/

/-- Taps whose line is printed, or lost. -/
def State.reported (s : State) : Int :=
  match s.pc with
  | .checkRepeats => s.i + 1
  | _ => s.i

/-- Where a print waits: behind a write, in a full pipe. -/
structure WaitsAt (b : Build) (args : ArgsInfo) (s : Piped) (w : Pipes.Waiting Act Event) :
    Prop where
  debug : b.debug = true
  pc : s.prog.pc = .now1
  line : ∃ r e, w.act = .main r ∧ r.inSecond = true ∧ w.rest = [e]
  full : args.repeats.given ≠ 0 →
    (pipeCapacity : Int) < encodeLength b args + b.tapLength * (s.prog.i + 1)

structure PipeInv (b : Build) (args : ArgsInfo) (s : Piped) : Prop where
  within : ∀ p, s.held p ≤ pipeCapacity
  stdout : s.held .stdout ≤ lineLength * s.prog.pc.lines
  setup : s.prog.pc.setup = true →
    s.held .stderr ≤ if s.prog.pc.checking then 0 else encodeLength b args
  release : b.debug = false → s.held .stderr ≤ if s.prog.pc.exits then lineLength else 0
  taps : args.repeats.given ≠ 0 → s.prog.pc.inLoop = true → s.waiting = none →
    (s.held .stderr : Int) ≤ encodeLength b args + b.tapLength * s.prog.reported
  waits : ∀ w, s.waiting = some w → WaitsAt b args s w

/-- Behind a step that has room for its prints. -/
def Piped.after (b : Build) (args : ArgsInfo) (s : Piped) (t : State) (out : List Event) : Piped :=
  ⟨t, fun p => s.held p + printed b args p out, none⟩

theorem lines_le (pc : Pc) : lineLength * pc.lines ≤ 5 * lineLength := by
  have most : pc.lines ≤ 5 := by
    unfold Pc.lines
    split <;> decide
  rw [Nat.mul_comm 5]
  exact Nat.mul_le_mul_left lineLength most

/-- A step of the loop, or of a signal, that prints nothing. -/
theorem PipeInv.quiet {b : Build} {args : ArgsInfo} {s : Piped} {t : State} {out : List Event}
    (h : PipeInv b args s) (idle : s.waiting = none) (going : s.prog.pc.exits = false)
    (silent : ∀ e ∈ out, e.text = none) (lines : s.prog.pc.lines ≤ t.pc.lines)
    (setup : t.pc.setup = true → s.prog.pc.setup = true ∧ t.pc.checking = s.prog.pc.checking)
    (loop : args.repeats.given ≠ 0 → t.pc.inLoop = true →
      s.prog.pc.inLoop = true ∧ s.prog.reported ≤ t.reported) :
    PipeInv b args (s.after b args t out) := by
  have same : s.after b args t out = ⟨t, s.held, none⟩ := by
    unfold Piped.after
    simp only [printed_silent silent, Nat.add_zero]
  rw [same]
  constructor
  case within => exact h.within
  case stdout => exact Nat.le_trans h.stdout (Nat.mul_le_mul_left lineLength lines)
  case setup =>
    intro before
    obtain ⟨inside, checking⟩ := setup before
    have held := h.setup inside
    rw [← checking] at held
    exact held
  case release =>
    intro release
    have held := h.release release
    rw [going] at held
    exact Nat.le_trans held (Nat.zero_le _)
  case taps =>
    intro given inside _
    obtain ⟨inside', more⟩ := loop given inside
    have held := h.taps given inside' idle
    have longer := Int.mul_le_mul_of_nonneg_left more (Int.natCast_nonneg b.tapLength)
    dsimp only
    omega
  case waits => intro w waits; cases waits

/-- Past the encoding a call stays past it, on its way to the loop. -/
theorem next_checking (c : Call) (encoding : Nat) :
    (if (Pc.call c).checking then 0 else encoding) ≤ if c.next.checking then 0 else encoding := by
  cases c with
  | stat | sIsChr | checkChannel => exact Nat.zero_le _
  | _ => exact Nat.le_refl _

theorem encodeEvents_stdout (b : Build) (args : ArgsInfo) :
    printed b args .stdout (encodeEvents b args) = 0 := by
  unfold encodeEvents Build.dprint
  split
  · rfl
  · rfl

section
variable {b : Build} (limits : b.Limits) {args : ArgsInfo}
include limits

/-- A call has room for its line, wherever it leads. -/
theorem PipeInv.call {s : Piped} (h : PipeInv b args s)
    (nonneg : args.repeats.given ≠ 0 → 0 ≤ s.prog.i) {c : Call} (pc : s.prog.pc = .call c)
    {t : State} {out : List Event} (prints : Prints b args (Pc.call c).lines (t, out))
    (next : t.pc = c.next ∨ t.pc = .exited exitFailure) (count : t.i = s.prog.i) :
    PipeInv b args (s.after b args t out) := by
  obtain ⟨stdout, stderr⟩ := prints
  have line := h.stdout
  have held := h.setup (by rw [pc]; rfl)
  rw [pc] at line held
  dsimp only at stdout stderr
  have encode := encodeLength_le limits args
  have room : 5 * lineLength ≤ pipeCapacity := by decide
  have most := lines_le t.pc
  have small : s.held .stderr ≤ encodeLength b args := by
    refine Nat.le_trans held ?_
    split
    · exact Nat.zero_le _
    · exact Nat.le_refl _
  have brief : printed b args .stderr out ≤ lineLength := by
    refine Nat.le_trans stderr ?_
    split
    · exact Nat.le_refl _
    · exact Nat.zero_le _
  have silent (on : t.pc = c.next) : printed b args .stderr out = 0 := by
    have going : t.pc.exits = false := by rw [on]; cases c <;> rfl
    rw [going] at stderr
    exact Nat.le_zero.mp stderr
  unfold Piped.after
  constructor <;> dsimp only
  case within =>
    intro p
    cases p <;> omega
  case stdout => omega
  case setup =>
    intro before
    cases next with
    | inl on =>
      have later := next_checking c (encodeLength b args)
      rw [silent on, on]
      exact Nat.le_trans held later
    | inr gone => rw [gone] at before; cases before
  case release =>
    intro release
    have empty : s.held .stderr ≤ 0 := by simpa [pc, Pc.exits] using h.release release
    exact Nat.le_trans (Nat.add_le_add_right empty _) (by rwa [Nat.zero_add])
  case taps =>
    intro given inside _
    cases next with
    | inl on =>
      have head : t.reported = s.prog.i := by
        unfold State.reported
        rw [on, count]
        cases c <;> rfl
      have more := Int.mul_nonneg (Int.natCast_nonneg b.tapLength) (nonneg given)
      have quiet := silent on
      rw [head]
      omega
    | inr gone => rw [gone] at inside; cases inside
  case waits => intro w waits; cases waits

theorem PipeInv.encode {s : Piped} (h : PipeInv b args s) (pc : s.prog.pc = .encode) :
    PipeInv b args (s.after b args
      { s.prog with pc := .call .openSerial, midiMsg := midiMsg args } (encodeEvents b args)) := by
  have encode := encodeLength_le limits args
  have empty : s.held .stderr ≤ 0 := by simpa [pc, Pc.checking, Pc.setup] using h.setup
  have stdout := h.stdout
  have quiet := encodeEvents_stdout b args
  have room : 5 * lineLength ≤ pipeCapacity := by decide
  rw [pc] at stdout
  unfold Piped.after
  constructor <;> dsimp only
  case within =>
    intro p
    have small := h.within .stdout
    unfold encodeLength at encode
    cases p <;> omega
  case stdout =>
    rw [quiet]
    exact stdout
  case setup =>
    intro _
    unfold encodeLength
    simp only [Pc.checking, Bool.false_eq_true, ↓reduceIte]
    omega
  case release =>
    intro release
    have nothing : encodeEvents b args = [] := by simp [encodeEvents, Build.dprint, release]
    rw [nothing, printed_nil]
    exact Nat.le_trans empty (Nat.zero_le _)
  case taps => intro _ inside; cases inside
  case waits => intro w waits; cases waits

theorem PipeInv.close {s : Piped} (h : PipeInv b args s) (pc : s.prog.pc = .closeSerial)
    (r : Sys) :
    PipeInv b args (s.after b args { s.prog with pc := .exited exitSuccess }
      (closeEvents b s.prog.serialFd r)) := by
  obtain ⟨out, err⟩ := closeEvents_prints limits args s.prog.serialFd r
  have stdout := h.stdout
  have four : lineLength * s.prog.pc.lines = lineLength * 4 := by rw [pc]; rfl
  have room : 5 * lineLength ≤ pipeCapacity := by decide
  unfold Piped.after
  constructor <;> dsimp only
  case within =>
    intro p
    have small := h.within .stderr
    cases p <;> omega
  case stdout =>
    simp only [Pc.lines]
    omega
  case setup => intro before; cases before
  case release =>
    intro release
    have empty : s.held .stderr ≤ 0 := by simpa [pc, Pc.exits] using h.release release
    rw [err]
    exact Nat.le_trans empty (Nat.zero_le _)
  case taps => intro _ inside; cases inside
  case waits => intro w waits; cases waits

/-- Everything but the print behind a write has room. -/
theorem PipeInv.step (path : args.serial.arg.length < pathMax) {s : Piped} {t : State} {a : Act}
    {out : List Event} (h : PipeInv b args s) (idle : s.waiting = none)
    (nonneg : args.repeats.given ≠ 0 → 0 ≤ s.prog.i) (hs : step b args s.prog a = some (t, out)) :
    PipeInv b args (s.after b args t out) ∨
      ∃ r, a = .main r ∧ s.prog.pc = .now1 ∧ t = { s.prog with pc := .checkRepeats } ∧
        out = tookEvents b s.prog.t0 r.out := by
  have going := step_going hs
  cases step_move hs with
  | now1 r pc => exact .inr ⟨r, rfl, pc, rfl, rfl⟩
  | call c r pc =>
    exact .inl (h.call limits nonneg pc (callStep_prints limits path s.prog r c)
      (callStep_next b args s.prog r c) (callStep_setup b args s.prog r c).i)
  | encode r pc => exact .inl (h.encode limits pc)
  | close r pc => exact .inl (h.close limits pc r)
  | uncounted r pc absent =>
    left
    apply h.quiet idle going <;> simp [pc, absent, Pc.lines, Pc.setup]
  | stay r pc | leave r pc | slept r pc | fired r pc | quiet r pc | now0 r pc | counted r pc
  | «break» r pc =>
    left
    apply h.quiet idle going <;> simp [pc, Pc.lines, Pc.setup, Pc.inLoop, State.reported]
  | clear r pc | write r pc =>
    left
    apply h.quiet idle going <;> cases b.debug <;>
      simp [pc, Pc.lines, Pc.setup, Pc.inLoop, State.reported, Event.text]
  | enter | kill | tick | interrupt =>
    left
    apply h.quiet idle going <;> simp [State.reported, Event.text]

end

section
variable {b : Build} {args : ArgsInfo}

theorem callStep_t0 (s : State) (r : Sys) (c : Call) : (callStep b args s r c).1.t0 = s.t0 := by
  cases c <;> simp only [callStep, orFail, fail] <;> split <;> rfl

theorem clock_step {s t : State} {a : Act} {out : List Event}
    (h : 0 ≤ s.t0 ∧ s.t0 < 1000000000) (ok : answerable s a = true)
    (hs : step b args s a = some (t, out)) : 0 ≤ t.t0 ∧ t.t0 < 1000000000 := by
  cases step_move hs with
  | now0 r pc => simpa [answerable, pc, Sys.inSecond] using ok
  | call c r pc => rw [callStep_t0]; exact h
  | encode | stay | leave | slept | fired | quiet | clear | write | now1 | uncounted | counted
  | «break» | close | enter | kill | tick | interrupt => exact h

theorem counter_step {s t : State} {a : Act} {out : List Event} (h : 0 ≤ s.i)
    (hs : step b args s a = some (t, out)) : 0 ≤ t.i := by
  cases step_move hs with
  | counted | «break» => exact Int.add_nonneg h (by decide)
  | call c r pc => rw [(callStep_setup b args s r c).i]; exact h
  | encode | stay | leave | slept | fired | quiet | clear | now0 | write | now1 | uncounted
  | close | enter | kill | tick | interrupt => exact h

/-- What the tapper behind its pipes has in common with the tapper alone. -/
structure ProgInv (args : ArgsInfo) (s : State) : Prop where
  clock : 0 ≤ s.t0 ∧ s.t0 < 1000000000
  nonneg : 0 ≤ s.i
  limit : args.repeats.given ≠ 0 → s.i + s.pc.toCount ≤ repeatLimit args

theorem reached_progInv {acts : List Act} {s : State} {tr : List Event}
    (h : run (unread b args).step start acts = some (s, tr)) : ProgInv args s := by
  have h0 : (0 ≤ start.t0 ∧ start.t0 < 1000000000) ∧ 0 ≤ start.i := by decide
  have both := @Runs.run_invariant _ _ _ _ (fun s _ => (0 ≤ s.t0 ∧ s.t0 < 1000000000) ∧ 0 ≤ s.i)
    start s [] tr acts h0 h fun _ _ _ _ _ inv hs =>
      have ⟨ok, taken⟩ := Runs.guarded_step.mp hs
      ⟨clock_step inv.1 ok taken, counter_step inv.2 taken⟩
  have alone := Runs.run_of_guarded h
  exact ⟨both.1, both.2, fun given => (reachable_repeatInv given alone).fits⟩

/-- A line behind a write that finds room. -/
theorem PipeInv.line {s : Piped} (h : PipeInv b args s) (idle : s.waiting = none)
    (pc : s.prog.pc = .now1) (debug : b.debug = true) {text : C.CStr}
    (short : text.length ≤ b.tapLength) (room : s.held .stderr + text.length ≤ pipeCapacity) :
    PipeInv b args (s.after b args { s.prog with pc := .checkRepeats } [.stderr text]) := by
  have stdout := h.stdout
  have out : printed b args .stdout [.stderr text] = 0 := rfl
  have err : printed b args .stderr [.stderr text] = text.length := by
    rw [printed_one, length_stderr, if_pos rfl]
  unfold Piped.after
  constructor <;> dsimp only
  case within =>
    intro p
    have small := h.within .stdout
    cases p <;> omega
  case stdout => rw [pc] at stdout; exact stdout
  case setup => intro before; cases before
  case release => intro release; rw [debug] at release; cases release
  case taps =>
    intro given _ _
    have held := h.taps given (by rw [pc]; rfl) idle
    simp only [State.reported, pc] at held ⊢
    rw [err, Int.mul_add, Int.mul_one]
    omega
  case waits => intro w waits; cases waits

/-- A line behind a write that finds none. -/
theorem PipeInv.crowded {s : Piped} (h : PipeInv b args s) (idle : s.waiting = none)
    (pc : s.prog.pc = .now1) (debug : b.debug = true) {text : C.CStr}
    (short : text.length ≤ b.tapLength) (full : pipeCapacity < s.held .stderr + text.length)
    {r : Sys} (ok : r.inSecond = true) {held : Pipe → Nat} (within : ∀ p, held p ≤ pipeCapacity)
    (same : held .stdout = s.held .stdout) (moved : Bool) :
    PipeInv b args ⟨s.prog, held, some ⟨.main r, [.stderr text], moved, false⟩⟩ := by
  have stdout := h.stdout
  constructor
  case within => exact within
  case stdout => rw [← same] at stdout; exact stdout
  case setup => rw [pc]; intro before; cases before
  case release => intro release; rw [debug] at release; cases release
  case taps => intro _ _ idle'; cases idle'
  case waits =>
    intro w waits
    cases waits
    refine ⟨debug, pc, ⟨r, .stderr text, rfl, ok, rfl⟩, fun given => ?_⟩
    have before := h.taps given (by rw [pc]; rfl) idle
    simp only [State.reported, pc] at before
    dsimp only
    rw [Int.mul_add, Int.mul_one]
    omega

/-- The print behind a write finds room, or waits. -/
theorem PipeInv.print {s : Piped} (h : PipeInv b args s) (prog : ProgInv args s.prog)
    (idle : s.waiting = none) (pc : s.prog.pc = .now1) {r : Sys} (ok : r.inSecond = true) :
    PipeInv b args (((unread b args).put s.held (tookEvents b s.prog.t0 r.out)).settle s.prog
      { s.prog with pc := .checkRepeats } (.main r)).1 := by
  by_cases debug : b.debug = true
  case neg =>
    have nothing : tookEvents b s.prog.t0 r.out = [] := by
      simp [tookEvents, Build.dprint, debug]
    rw [nothing, Pipes.settle_whole rfl]
    exact h.quiet idle (by rw [pc]; rfl) (by simp) (by simp [pc, Pc.lines])
      (by simp [Pc.setup]) (by simp [pc, Pc.inLoop, State.reported])
  case pos =>
    have inSecond : 0 ≤ r.out ∧ r.out < 1000000000 := by simpa [Sys.inSecond] using ok
    have short : printed b args .stderr (tookEvents b s.prog.t0 r.out) ≤ b.tapLength :=
      tookEvents_printed prog.clock inSecond
    obtain ⟨text, line⟩ : ∃ text, tookEvents b s.prog.t0 r.out = [.stderr text] := by
      simp [tookEvents, Build.dprint, debug]
    rw [line] at short ⊢
    rw [printed_one, length_stderr, if_pos rfl] at short
    by_cases room : s.held .stderr + text.length ≤ pipeCapacity
    case pos =>
      have after := h.line idle pc debug short room
      have fits (p : Pipe) : s.held p + printed b args p [.stderr text] ≤ pipeCapacity :=
        after.within p
      rw [Pipes.settle_whole (Pipes.put_fits fits)]
      exact after
    case neg =>
      have full : (unread b args).capacity < s.held .stderr + text.length := Nat.lt_of_not_le room
      obtain ⟨rest, -, same⟩ := @Pipes.put_full _ _ _ _ _ (unread b args) s.held
        (.stderr text) [] .stderr text.length rfl full
      have within := @Pipes.put_within _ _ _ _ _ (unread b args) s.held h.within [.stderr text]
      rw [Pipes.Put.settle_full rest]
      exact h.crowded idle pc debug short full ok within (same .stdout (by decide)) _

/-- A signal or a handler leaves `main` where it stands. -/
theorem aside_step {s t : State} {a : Act} {out : List Event} (aside : a.isMain = false)
    (hs : step b args s a = some (t, out)) :
    t.pc = s.pc ∧ t.i = s.i ∧ sent out = 0 := by
  cases step_move hs with
  | enter | kill | tick | interrupt => exact ⟨rfl, rfl, rfl⟩
  | _ => cases aside

theorem PipeInv.aside {s : Piped} (h : PipeInv b args s) {w w' : Pipes.Waiting Act Event}
    (waits : s.waiting = some w) (same : w'.act = w.act ∧ w'.rest = w.rest) {t : State}
    (pc : t.pc = s.prog.pc) (i : t.i = s.prog.i) :
    PipeInv b args { s with prog := t, waiting := some w' } := by
  constructor
  case within => exact h.within
  case stdout => dsimp only; rw [pc]; exact h.stdout
  case setup => dsimp only; rw [pc]; exact h.setup
  case release => dsimp only; rw [pc]; exact h.release
  case taps => intro _ _ idle; cases idle
  case waits =>
    intro v waits'
    cases waits'
    obtain ⟨debug, behind, line, full⟩ := h.waits w waits
    refine ⟨debug, pc.trans behind, ?_, ?_⟩
    · rw [same.1, same.2]
      exact line
    · dsimp only
      rw [i]
      exact full

/-- The line that waited is given up. -/
theorem PipeInv.lost {s : Piped} (h : PipeInv b args s) {w : Pipes.Waiting Act Event}
    (waits : s.waiting = some w) :
    PipeInv b args ⟨{ s.prog with pc := .checkRepeats }, s.held, none⟩ := by
  obtain ⟨debug, pc, -, full⟩ := h.waits w waits
  have stdout := h.stdout
  constructor
  case within => exact h.within
  case stdout => rw [pc] at stdout; exact stdout
  case setup => intro before; cases before
  case release => intro release; rw [debug] at release; cases release
  case taps =>
    intro given _ _
    have held := h.within .stderr
    have more := full given
    simp only [State.reported]
    omega
  case waits => intro w' waits'; cases waits'

/-- The step that waits, once it can be taken. -/
theorem waiting_step {s : Piped} {w : Pipes.Waiting Act Event} (stands : WaitsAt b args s w)
    {t : State} {out : List Event} (hs : (unread b args).step s.prog w.act = some (t, out)) :
    t = { s.prog with pc := .checkRepeats } := by
  obtain ⟨r, e, act, -, -⟩ := stands.line
  rw [act] at hs
  have taken := (Runs.guarded_step.mp hs).2
  cases step_move taken with
  | now1 r' pc => rfl
  | call c r' pc => rw [stands.pc] at pc; cases pc
  | encode r' pc | stay r' pc | leave r' pc | slept r' pc | fired r' pc | quiet r' pc | clear r' pc
  | now0 r' pc | write r' pc | uncounted r' pc | counted r' pc | «break» r' pc | close r' pc =>
    rw [stands.pc] at pc
    cases pc

end

section
variable {b : Build} (limits : b.Limits) {args : ArgsInfo}
include limits

theorem pipeInv_step (path : args.serial.arg.length < pathMax) {s t : Piped} {a : Act}
    {out : List Event} (prog : ProgInv args s.prog) (h : PipeInv b args s)
    (hs : piped b args s a = some (t, out)) : PipeInv b args t := by
  cases Pipes.piped_move hs with
  | free u shown idle taken =>
    obtain ⟨ok, taken'⟩ := Runs.guarded_step.mp taken
    obtain room | ⟨r, rfl, pc, rfl, rfl⟩ := h.step limits path idle (fun _ => prog.nonneg) taken'
    · have fits (p : Pipe) : s.held p + printed b args p shown ≤ pipeCapacity := room.within p
      rw [Pipes.settle_whole (Pipes.put_fits fits)]
      exact room
    · have inSecond : r.inSecond = true := by simpa [answerable, pc] using ok
      exact h.print prog idle pc inSecond
  | signal u _ w waits other taken =>
    have aside := aside_step other (Runs.guarded_step.mp taken).2
    refine h.aside waits ?_ aside.1 aside.2.1
    exact ⟨rfl, rfl⟩
  | again w waits =>
    refine h.aside waits ?_ rfl rfl
    exact ⟨rfl, rfl⟩
  | lost u shown w waits _ _ _ taken =>
    have stands := h.waits w waits
    obtain ⟨r, e, -, -, rest⟩ := stands.line
    rw [waiting_step stands taken, rest, List.tail_cons, Pipes.settle_whole rfl]
    exact h.lost waits

theorem reachable_pipeInv (path : args.serial.arg.length < pathMax) {acts : List Act} {s : Piped}
    {tr : List Event} (h : run (piped b args) fresh acts = some (s, tr)) : PipeInv b args s := by
  have h0 : PipeInv b args fresh :=
    ⟨fun _ => Nat.zero_le _, Nat.zero_le _, fun _ => Nat.zero_le _, fun _ => Nat.zero_le _,
      fun _ inside => absurd inside (by decide), fun w waits => by cases waits⟩
  exact run_invariant_reached (fun s _ => PipeInv b args s) h0 h
    fun pre u seen a v out hu inv hs => by
      obtain ⟨_, _, prog⟩ := Pipes.prog_reached hu
      exact pipeInv_step limits path (reached_progInv prog) inv hs

end

/-! ## Prints that wait -/

/-- A tick has come whose message the next iteration sends. -/
structure Due (args : ArgsInfo) (s : State) : Prop where
  trigger : s.trigger = true
  running : s.running = true
  more : args.repeats.given = 0 ∨ s.i + 1 < args.repeats.arg.toInt

/-- A handler has run while a print waited, and none is under way. -/
structure Interrupted (s : Piped) (w : Pipes.Waiting Act Event) : Prop where
  broken : w.broken = true
  alive : s.prog.over = false
  calm : s.prog.frames = []

/-- How it goes on from a print that waits. -/
structure Blocked (b : Build) (args : ArgsInfo) (s : Piped) (w : Pipes.Waiting Act Event) :
    Prop where
  behindWrite : s.prog.pc = .now1
  /-- nothing is sent until a handler has run -/
  waits : w.broken = false → ∀ acts t tr, .handler ∉ acts →
    run (piped b args) s acts = some (t, tr) →
      sent tr = 0 ∧ t.held = s.held ∧ t.waiting = some w
  /-- then the line is lost, and `main` is behind its print -/
  goesOn : Interrupted s w → w.moved = false → ∀ r,
    piped b args s (.main r) = some (⟨{ s.prog with pc := .checkRepeats }, s.held, none⟩, [])
  /-- a line of which a part is in the pipe waits once more -/
  again : Interrupted s w → w.moved = true → ∀ r, piped b args s (.main r) =
    some ({ s with waiting := some { w with moved := false, broken := false } }, [])
  /-- and the taps go on -/
  sends : Interrupted s w → w.moved = false → Due args s.prog →
    ∃ t, run (piped b args) s (List.replicate 8 (.main ⟨3, 0, 0⟩)) =
      some (t, [.cleared, .wrote s.prog.midiMsg 3])

/-- Behind a print, up to the message that is due. -/
theorem due_run {b : Build} (debug : b.debug = true) {args : ArgsInfo} {s : State}
    (due : Due args s) (alive : s.over = false) (calm : s.frames = []) :
    ∃ t, run (step b args) { s with pc := .checkRepeats } (List.replicate 7 (.main ⟨3, 0, 0⟩)) =
      some (t, [.cleared, .wrote s.midiMsg 3]) := by
  obtain ⟨trigger, running, more⟩ := due
  simp only [State.over, Bool.or_eq_false_iff] at alive
  by_cases absent : args.repeats.given = 0
  · simp [List.replicate, run, step, State.over, Pc.exits, alive.2, calm, mainStep, absent, running,
      trigger, debug]
  · have below : ¬s.i + 1 ≥ args.repeats.arg.toInt := by
      have := more.resolve_left absent
      omega
    simp [List.replicate, run, step, State.over, Pc.exits, alive.2, calm, mainStep, absent, below,
      running, trigger, debug]

section
variable {b : Build} (limits : b.Limits) {args : ArgsInfo}
include limits

theorem blocked_of_waits (path : args.serial.arg.length < pathMax) {acts : List Act} {s : Piped}
    {tr : List Event} (h : run (piped b args) fresh acts = some (s, tr))
    {w : Pipes.Waiting Act Event} (waits : s.waiting = some w) : Blocked b args s w := by
  have stands := (reachable_pipeInv limits path h).waits w waits
  obtain ⟨r, e, act, ok, rest⟩ := stands.line
  have taken (calm : Interrupted s w) : ∃ out,
      (unread b args).step s.prog w.act = some ({ s.prog with pc := .checkRepeats }, out) := by
    have print : step b args s.prog (.main r) =
        some ({ s.prog with pc := .checkRepeats }, tookEvents b s.prog.t0 r.out) := by
      simp [step, calm.alive, calm.calm, mainStep, stands.pc]
    rw [act]
    exact ⟨_, Runs.guarded_step.mpr ⟨by simp [answerable, stands.pc, ok], print⟩⟩
  have goesOn (calm : Interrupted s w) (moved : w.moved = false) (r' : Sys) :
      piped b args s (.main r') =
        some (⟨{ s.prog with pc := .checkRepeats }, s.held, none⟩, []) := by
    obtain ⟨out, taken⟩ := taken calm
    have main : (unread b args).own (.main r') = true := rfl
    simp only [Pipes.Program.piped, waits, main, calm.broken, moved, taken, rest, List.tail_cons,
      ↓reduceIte, Bool.false_eq_true]
    rfl
  refine ⟨stands.pc, ?_, goesOn, ?_, ?_⟩
  · intro unbroken more t shown calm hr
    have on : Runs.Along (piped b args) (fun _ _ a => a ≠ .handler) s [] more :=
      along_of_forall (fun a mem _ _ => by rintro rfl; exact calm mem) s []
    have last := run_invariant_along
      (fun t tr => t.waiting = some w ∧ t.held = s.held ∧ sent tr = 0) ⟨waits, rfl, rfl⟩ on hr
      fun u seen a v out inv other hs => by
        obtain ⟨still, held, unsent⟩ := inv
        have calm' : (unread b args).breaks a = false := by simpa [unread] using other
        obtain ⟨waits', held', own, taken⟩ := Pipes.waits_step still unbroken calm' hs
        have quiet := (aside_step own (Runs.guarded_step.mp taken).2).2.2
        exact ⟨waits', held'.trans held, by rw [sent_append, unsent, quiet]⟩
    exact ⟨by simpa using last.2.2, last.2.1, last.1⟩
  · intro calm moved r'
    obtain ⟨out, taken⟩ := taken calm
    have main : (unread b args).own (.main r') = true := rfl
    simp only [Pipes.Program.piped, waits, main, calm.broken, moved, taken, ↓reduceIte]
  · intro calm moved due
    obtain ⟨t, taps⟩ := due_run stands.debug due calm.alive calm.calm
    have guarded : run (unread b args).step { s.prog with pc := .checkRepeats }
        (List.replicate 7 (.main ⟨3, 0, 0⟩)) = some (t, [.cleared, .wrote s.prog.midiMsg 3]) :=
      Runs.guarded_run taps (along_of_forall (fun a mem u _ => by
        rw [List.eq_of_mem_replicate mem]
        exact answerable_of rfl u) _ [])
    have fits (p : Pipe) : s.held p + printed b args p [.cleared, .wrote s.prog.midiMsg 3] ≤
        pipeCapacity := (reachable_pipeInv limits path h).within p
    have later := Pipes.piped_run guarded fits
    exact ⟨_, Runs.run_cons.mpr ⟨_, [], _, goesOn calm moved ⟨3, 0, 0⟩, later, rfl⟩⟩

end

end MidiGw.Tapper
