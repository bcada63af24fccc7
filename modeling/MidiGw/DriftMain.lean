import MidiGw.Drift
import MidiGw.Runs

/-!
# The drift program

`main` of `drift.c`: the line about its tempo, the handlers that it installs,
the sleeping loop, and the loop behind it that would report what the timer's
handler measures. What the program prints over a whole run, whenever a signal
comes, and what it never does.
-/

namespace MidiGw.Drift

open Runs (Along run run_cons run_invariant_along)

def bpmToNs (bpm : ℤ) : ℤ := if 0 < bpm then 60000000000 / bpm else 0

/-- `bpm` and `ns_interval` of `main` -/
def mainBpm : ℤ := 114

def nsInterval : ℤ := bpmToNs mainBpm

inductive Pc where
  /-- `main` up to the end of `init_sig_handlers` -/
  | dprint | sigTimer | sigInt
  /-- `loop_usleep` -/
  | whileTest | read0 | usleep | read1 | print
  /-- the loop behind it -/
  | whileTest2 | ifTrigger | clear | report | usleep2
  /-- `main` has returned 0 -/
  | exited
  /-- `exit (EXIT_FAILURE)` -/
  | failed
  /-- by a signal in front of its handler -/
  | killed
  deriving DecidableEq, Repr

structure Main where
  pc : Pc
  running : Bool
  /-- the readings of `t0` and `t1`, and when they were taken -/
  t0 : ℤ
  t1 : ℤ
  began : ℕ
  ended : ℕ
  /-- when the latest step was taken; no step depends on it, as on the two above -/
  time : ℕ
  /-- the globals that `handler_timer` writes -/
  globals : State
  deriving DecidableEq, Repr

/-- `main` in front of its `dprint`, at a time. -/
def mainStart (t : ℕ) : Main where
  pc := .dprint
  running := true
  t0 := 0
  t1 := 0
  began := 0
  ended := 0
  time := t
  globals := ⟨false, 0, 0, 0, nsInterval⟩

/-- A line that is printed; the first two go to `stderr`. -/
inductive Event where
  /-- `Tempo interval: %ld ns (%d bpm)`, behind the place in the source -/
  | tempo (ns bpm : ℤ)
  /-- `perror ("sigaction")` -/
  | perror
  /-- a line of `loop_usleep`, for a sleep between two times -/
  | slept (began ended : ℕ) (waited drift : ℤ)
  /-- a line of the loop behind it -/
  | reported (waited drift : ℤ)
  deriving DecidableEq, Repr

inductive Act where
  /-- the next step of `main`, at a time in nanoseconds; a sleep ends then.
  `ok` is whether a call of `sigaction` that it makes succeeds -/
  | main (t : ℕ) (ok : Bool)
  /-- SIGRTMIN, from whoever sends it: `main` starts no timer -/
  | timer (t : ℕ)
  /-- SIGINT -/
  | interrupt
  deriving DecidableEq, Repr

/-- A `sigaction` of `init_sig_handlers`. -/
def sigaction (s : Main) (next : Pc) (ok : Bool) : Main × List Event :=
  if ok then ({ s with pc := next }, []) else ({ s with pc := .failed }, [.perror])

def mainStep (s : Main) (t : ℕ) (ok : Bool) : Option (Main × List Event) :=
  let s := { s with time := t }
  match s.pc with
  | .dprint => some ({ s with pc := .sigTimer }, [.tempo nsInterval mainBpm])
  | .sigTimer => some (sigaction s .sigInt ok)
  | .sigInt => some (sigaction s .whileTest ok)
  | .whileTest => some ({ s with pc := if s.running then .read0 else .whileTest2 }, [])
  | .read0 => some ({ s with pc := .usleep, t0 := getNowNs t, began := t }, [])
  | .usleep => some ({ s with pc := .read1 }, [])
  | .read1 => some ({ s with pc := .print, t1 := getNowNs t, ended := t }, [])
  | .print =>
    let wait := waited s.t0 s.t1
    some ({ s with pc := .whileTest }, [.slept s.began s.ended wait (nsInterval - wait)])
  | .whileTest2 => some ({ s with pc := if s.running then .ifTrigger else .exited }, [])
  | .ifTrigger => some ({ s with pc := if s.globals.trigger then .clear else .usleep2 }, [])
  | .clear => some ({ s with pc := .report, globals := { s.globals with trigger := false } }, [])
  | .report =>
    some ({ s with pc := .usleep2 }, [.reported s.globals.timerWaited s.globals.timerDrift])
  | .usleep2 => some ({ s with pc := .whileTest2 }, [])
  | .exited | .failed | .killed => none

def Pc.over : Pc → Bool
  | .exited | .failed | .killed => true
  | _ => false

/-- The handler of SIGRTMIN is installed. -/
def Pc.timerHandled : Pc → Bool
  | .dprint | .sigTimer => false
  | _ => true

/-- The handler of SIGINT is installed. -/
def Pc.intHandled : Pc → Bool
  | .sigInt => false
  | pc => pc.timerHandled

def mainRun : Runs.Step Main Act Event
  | s, .main t ok => mainStep s t ok
  | s, .timer t =>
    if s.pc.over then none
    else if s.pc.timerHandled then some ({ s with globals := handlerTimer s.globals t }, [])
    else some ({ s with pc := .killed }, [])
  | s, .interrupt =>
    if s.pc.over then none
    else if s.pc.intHandled then some ({ s with running := false }, [])
    else some ({ s with pc := .killed }, [])

/-! ## What is printed -/

def Pc.second : Pc → Bool
  | .ifTrigger | .clear | .report | .usleep2 => true
  | _ => false

/-- Behind the sleeping loop. -/
def Pc.behind : Pc → Bool
  | .whileTest2 | .exited => true
  | pc => pc.second

/-- In an iteration of the sleeping loop, `t0` read. -/
def Pc.asleep : Pc → Bool
  | .usleep | .read1 | .print => true
  | _ => false

/-- In an iteration of the sleeping loop, its line not printed yet. -/
def Pc.sleeping : Pc → Bool
  | .read0 => true
  | pc => pc.asleep

/-- Behind `init_sig_handlers`, if that returned. -/
def Pc.looped : Pc → Bool
  | .dprint | .sigTimer | .sigInt | .failed | .killed => false
  | _ => true

/-- Time goes on. -/
def Timed (s : Main) (_ : List Event) : Act → Prop
  | .main t _ => s.time ≤ t
  | .timer _ | .interrupt => True

/-- A line of `loop_usleep`, which tells of its sleep what one reading of the
clock at either end can tell. -/
def Faithful : Event → Prop
  | .slept began ended wait drift => Measured nsInterval ((ended : ℤ) - began) wait drift
  | .tempo _ _ | .perror | .reported _ _ => False

/-- The line about the tempo, and then lines of `loop_usleep` only. -/
def Lines (tr : List Event) : Prop :=
  ∃ lines, tr = .tempo nsInterval mainBpm :: lines ∧ ∀ e ∈ lines, Faithful e

/-- All that has been printed, by where `main` stands. -/
def Printed : Pc → List Event → Prop
  | .dprint, tr => tr = []
  | .sigTimer, tr | .sigInt, tr => tr = [.tempo nsInterval mainBpm]
  | .killed, tr => tr = [] ∨ tr = [.tempo nsInterval mainBpm]
  | .failed, tr => tr = [.tempo nsInterval mainBpm, .perror]
  | _, tr => Lines tr

theorem printed_looped {pc : Pc} (looped : pc.looped = true) (tr : List Event) :
    Printed pc tr ↔ Lines tr := by
  cases pc <;> first | exact Iff.rfl | cases looped

theorem lines_start : Lines [.tempo nsInterval mainBpm] := ⟨[], rfl, by simp⟩

theorem Lines.add {tr : List Event} {e : Event} (h : Lines tr) (faithful : Faithful e) :
    Lines (tr ++ [e]) := by
  obtain ⟨lines, rfl, each⟩ := h
  refine ⟨lines ++ [e], rfl, fun e' mem => ?_⟩
  cases List.mem_append.mp mem with
  | inl old => exact each e' old
  | inr new => rwa [List.mem_singleton.mp new]

/-- The wait that a line tells. -/
def Event.wait : Event → ℤ
  | .tempo _ _ | .perror => 0
  | .slept _ _ wait _ | .reported wait _ => wait

/-- What the lines add up to. -/
def waits (tr : List Event) : ℤ := (tr.map Event.wait).sum

@[simp] theorem waits_append (a b : List Event) : waits (a ++ b) = waits a + waits b := by
  simp [waits]

@[simp] theorem waits_one (e : Event) : waits [e] = e.wait := by simp [waits]

/-- What has been printed, and what the sleeping loop has read, by where `main` stands. -/
structure MainInv (start : ℕ) (s : Main) (tr : List Event) : Prop where
  printed : Printed s.pc tr
  off : s.pc.behind = true → s.running = false
  looped : s.running = false → s.pc.looped = true
  first : s.pc.second = false
  total : waits tr ≤ (s.time : ℤ) - start
  began : s.pc.asleep = true → s.t0 = getNowNs s.began ∧ s.began ≤ s.time ∧
    waits tr ≤ (s.began : ℤ) - start
  ended : s.pc = .print → s.t1 = getNowNs s.ended ∧ s.began ≤ s.ended ∧ s.ended ≤ s.time

/-- A step of the sleeping loop that prints nothing. -/
theorem MainInv.quiet {start : ℕ} {s u : Main} {tr : List Event} (h : MainInv start s tr)
    (here : s.pc.looped = true) (there : u.pc.looped = true) (later : s.time ≤ u.time)
    (off : u.pc.behind = true → u.running = false) (first : u.pc.second = false)
    (began : u.pc.asleep = true → u.t0 = getNowNs u.began ∧ u.began ≤ u.time ∧
      waits tr ≤ (u.began : ℤ) - start)
    (ended : u.pc = .print → u.t1 = getNowNs u.ended ∧ u.began ≤ u.ended ∧ u.ended ≤ u.time) :
    MainInv start u (tr ++ []) := by
  rw [List.append_nil]
  have printed := (printed_looped there tr).mpr ((printed_looped here tr).mp h.printed)
  exact ⟨printed, off, fun _ => there, first, h.total.trans (by omega), began, ended⟩

/-- A step outside the two loops. -/
theorem MainInv.outside {start : ℕ} {s u : Main} {tr out : List Event} (h : MainInv start s tr)
    (early : s.pc.looped = false) (printed : Printed u.pc (tr ++ out)) (same : u.running = s.running)
    (later : s.time ≤ u.time) (silent : waits out = 0)
    (front : u.pc.behind = false ∧ u.pc.asleep = false) : MainInv start u (tr ++ out) := by
  have running : s.running = true := by
    by_contra off
    rw [h.looped (by simpa using off)] at early
    cases early
  obtain ⟨behind, asleep⟩ := front
  have first : u.pc.second = false := by
    cases pc : u.pc <;> first | rfl | (rw [pc] at behind; cases behind)
  have total := h.total
  refine ⟨printed, fun e => ?_, fun off => ?_, first, ?_, fun e => ?_, fun e => ?_⟩
  · rw [behind] at e; cases e
  · rw [same, running] at off; cases off
  · rw [waits_append, silent]; omega
  · rw [asleep] at e; cases e
  · rw [e] at asleep; cases asleep

/-- A call of `sigaction` fails, and the program with it, or the next step follows. -/
theorem MainInv.sigaction {start t : ℕ} {s : Main} {tr : List Event} {next : Pc} (ok : Bool)
    (h : MainInv start s tr) (early : s.pc.looped = false) (told : tr = [.tempo nsInterval mainBpm])
    (later : s.time ≤ t) (led : Printed next tr) (front : next.behind = false ∧ next.asleep = false) :
    MainInv start (sigaction { s with time := t } next ok).1
      (tr ++ (sigaction { s with time := t } next ok).2) := by
  cases ok with
  | true =>
    have printed : Printed next (tr ++ []) := by rwa [List.append_nil]
    exact h.outside early printed rfl later rfl front
  | false => exact h.outside early (by rw [told]; rfl) rfl later rfl ⟨rfl, rfl⟩

/-- The two handlers touch nothing that the sleeping loop has read. -/
theorem MainInv.handled {start : ℕ} {s : Main} {tr : List Event} (h : MainInv start s tr)
    (running : Bool) (globals : State) (off : s.running = false → running = false)
    (looped : running = false → s.pc.looped = true) :
    MainInv start { s with running := running, globals := globals } (tr ++ []) := by
  rw [List.append_nil]
  exact ⟨h.printed, fun behind => off (h.off behind), looped, h.first, h.total, h.began, h.ended⟩

/-- A signal in front of its handler. -/
theorem MainInv.killed {start : ℕ} {s : Main} {tr : List Event} (h : MainInv start s tr)
    (alive : s.pc.over = false) (bare : s.pc.intHandled = false) :
    MainInv start { s with pc := .killed } (tr ++ []) := by
  have early : s.pc.looped = false := by cases pc : s.pc <;> simp_all [Pc.looped, Pc.intHandled,
    Pc.timerHandled]
  have bit : Printed .killed (tr ++ []) := by
    have printed := h.printed
    rw [List.append_nil]
    cases pc : s.pc <;> rw [pc] at printed alive bare early <;> first
      | exact .inl printed
      | exact .inr printed
      | exact absurd early (by decide)
      | exact absurd alive (by decide)
  exact h.outside early bit rfl (Nat.le_refl _) rfl ⟨rfl, rfl⟩

theorem mainInv_step {start : ℕ} {s u : Main} {tr out : List Event} {a : Act}
    (h : MainInv start s tr) (timed : Timed s tr a) (hs : mainRun s a = some (u, out)) :
    MainInv start u (tr ++ out) := by
  cases a with
  | timer t =>
    simp only [mainRun] at hs
    split at hs
    · cases hs
    rename_i alive
    split at hs
    · cases hs
      exact h.handled s.running _ id h.looped
    · rename_i bare
      cases hs
      refine h.killed (by simpa using alive) ?_
      cases pc : s.pc <;> simp_all [Pc.intHandled, Pc.timerHandled]
  | interrupt =>
    simp only [mainRun] at hs
    split at hs
    · cases hs
    rename_i alive
    split at hs
    · rename_i handled
      cases hs
      refine h.handled false s.globals (fun _ => rfl) fun _ => ?_
      cases pc : s.pc <;> simp_all [Pc.intHandled, Pc.timerHandled, Pc.looped, Pc.over]
    · rename_i bare
      cases hs
      exact h.killed (by simpa using alive) (by simpa using bare)
  | main t ok =>
    have later : s.time ≤ t := timed
    have printed := h.printed
    simp only [mainRun, mainStep] at hs
    split at hs
    case h_1 here =>
      cases hs
      rw [here] at printed
      exact h.outside (by rw [here]; rfl) (by rw [printed]; rfl) rfl later rfl ⟨rfl, rfl⟩
    case h_2 here =>
      rw [here] at printed
      have led : Printed .sigInt tr := printed
      have called := h.sigaction ok (by rw [here]; rfl) printed later led ⟨rfl, rfl⟩
      rwa [Option.some.inj hs] at called
    case h_3 here =>
      rw [here] at printed
      have led : Printed .whileTest tr := printed ▸ lines_start
      have called := h.sigaction ok (by rw [here]; rfl) printed later led ⟨rfl, rfl⟩
      rwa [Option.some.inj hs] at called
    case h_4 here =>
      cases hs
      have looped : s.pc.looped = true := by rw [here]; rfl
      cases runs : s.running with
      | true =>
        exact h.quiet looped rfl later (fun e => by cases e) rfl (fun e => by cases e)
          (fun e => by cases e)
      | false =>
        exact h.quiet looped rfl later (fun _ => rfl) rfl (fun e => by cases e)
          (fun e => by cases e)
    case h_5 here =>
      cases hs
      have total : waits tr ≤ (t : ℤ) - start := h.total.trans (by omega)
      exact h.quiet (by rw [here]; rfl) rfl later (fun e => by cases e) rfl
        (fun _ => ⟨rfl, Nat.le_refl t, total⟩) (fun e => by cases e)
    case h_6 here =>
      cases hs
      obtain ⟨reading, before, total⟩ := h.began (by rw [here]; rfl)
      exact h.quiet (by rw [here]; rfl) rfl later (fun e => by cases e) rfl
        (fun _ => ⟨reading, before.trans later, total⟩) (fun e => by cases e)
    case h_7 here =>
      cases hs
      obtain ⟨reading, before, total⟩ := h.began (by rw [here]; rfl)
      exact h.quiet (by rw [here]; rfl) rfl later (fun e => by cases e) rfl
        (fun _ => ⟨reading, before.trans later, total⟩)
        (fun _ => ⟨rfl, before.trans later, Nat.le_refl t⟩)
    case h_8 here =>
      cases hs
      obtain ⟨reading0, -, total⟩ := h.began (by rw [here]; rfl)
      obtain ⟨reading1, forward, before⟩ := h.ended here
      have measured := loop_measured nsInterval forward
      have short : (loopReport nsInterval s.began s.ended).1 ≤ (s.ended : ℤ) - s.began := by
        simp only [loopReport, waited_eq]
        omega
      rw [here] at printed
      rw [reading0, reading1]
      refine ⟨Lines.add printed measured, fun e => (by cases e), fun _ => rfl, rfl, ?_,
        fun e => (by cases e), fun e => (by cases e)⟩
      simp only [loopReport] at short
      simp only [waits_append, waits_one, Event.wait]
      omega
    case h_9 here =>
      cases hs
      have stopped := h.off (by rw [here]; rfl)
      simp only [stopped, Bool.false_eq_true, ↓reduceIte]
      exact h.quiet (by rw [here]; rfl) rfl later (fun _ => rfl) rfl (fun e => by cases e)
        (fun e => by cases e)
    case h_10 here | h_11 here | h_12 here | h_13 here =>
      have first := h.first
      rw [here] at first
      cases first
    case h_14 | h_15 | h_16 => cases hs

theorem reachable_mainInv {start : ℕ} {acts : List Act} {s : Main} {tr : List Event}
    (h : run mainRun (mainStart start) acts = some (s, tr))
    (timed : Along mainRun Timed (mainStart start) [] acts) : MainInv start s tr := by
  have h0 : MainInv start (mainStart start) [] :=
    ⟨rfl, fun e => (by cases e), fun e => (by cases e), rfl, by simp [waits, mainStart],
      fun e => (by cases e), fun e => (by cases e)⟩
  simpa using run_invariant_along (MainInv start) h0 timed h
    fun _ _ _ _ _ inv ok hs => mainInv_step inv ok hs

/-! ## Behind the interrupt -/

/-- Steps of `main` up to its end, once `running` is clear. -/
def Pc.toEnd : Pc → Nat
  | .read0 => 6
  | .usleep => 5
  | .read1 => 4
  | .print => 3
  | .whileTest => 2
  | .whileTest2 => 1
  | .dprint | .sigTimer | .sigInt | .ifTrigger | .clear | .report | .usleep2 | .exited | .failed
  | .killed => 0

def Act.isMain : Act → Bool
  | .main _ _ => true
  | .timer _ | .interrupt => false

/-- `running` is clear; the steps left and the line left are those of the current iteration. -/
structure Stopping (line steps : Nat) (s : Main) (tr : List Event) : Prop where
  off : s.running = false
  looped : s.pc.looped = true
  first : s.pc.second = false
  printed : tr.length + s.pc.sleeping.toNat ≤ line
  left : s.pc.toEnd ≤ steps

theorem looped_handled {pc : Pc} (looped : pc.looped = true) :
    pc.timerHandled = true ∧ pc.intHandled = true := by
  cases pc <;> first | exact ⟨rfl, rfl⟩ | cases looped

theorem stopping_step {line steps : Nat} {s u : Main} {tr out : List Event} {a : Act}
    (h : Stopping line steps s tr) (hs : mainRun s a = some (u, out)) :
    Stopping line (steps - if a.isMain then 1 else 0) u (tr ++ out) ∧
      (a.isMain = true → 0 < s.pc.toEnd) := by
  obtain ⟨off, looped, first, printed, left⟩ := h
  cases a with
  | timer t | interrupt =>
    simp only [mainRun, looped_handled looped, ↓reduceIte] at hs
    split at hs
    · cases hs
    · cases hs
      exact ⟨⟨by first | exact off | rfl, looped, first, by simpa using printed, left⟩,
        fun e => by cases e⟩
  | main t ok =>
    simp only [mainRun, mainStep, off, Bool.false_eq_true, ↓reduceIte] at hs
    split at hs
    case h_1 here | h_2 here | h_3 here => rw [here] at looped; cases looped
    case h_10 here | h_11 here | h_12 here | h_13 here => rw [here] at first; cases first
    case h_14 | h_15 | h_16 => cases hs
    all_goals
      rename_i here
      cases hs
      rw [here] at printed left
      simp only [Pc.toEnd, Pc.sleeping, Pc.asleep, Bool.toNat_true, Bool.toNat_false] at printed left
      refine ⟨⟨rfl, rfl, rfl, ?_, ?_⟩, fun _ => by rw [here]; decide⟩
      · simp [Pc.sleeping, Pc.asleep]; omega
      · simp only [Pc.toEnd, Act.isMain, ↓reduceIte]; omega

theorem stopping_run {line steps : Nat} {s u : Main} {seen tr : List Event} {later : List Act}
    (h : Stopping line steps s seen) (hr : run mainRun s later = some (u, tr)) :
    Stopping line (steps - later.countP Act.isMain) u (seen ++ tr) ∧ (seen ++ tr).length ≤ line ∧
      later.countP Act.isMain ≤ steps := by
  induction later generalizing s seen tr steps with
  | nil =>
    cases hr
    have printed := h.printed
    rw [List.append_nil]
    exact ⟨h, by omega, Nat.zero_le _⟩
  | cons a later ih =>
    obtain ⟨t, out, rest, hs, htail, rfl⟩ := run_cons.mp hr
    obtain ⟨next, going⟩ := stopping_step h hs
    obtain ⟨last, printed, taken⟩ := ih next htail
    have started := h.left
    rw [← List.append_assoc, List.countP_cons, Nat.add_comm, ← Nat.sub_sub]
    refine ⟨last, printed, ?_⟩
    cases main : a.isMain with
    | true =>
      have := going main
      simp only [main, ↓reduceIte] at taken ⊢
      omega
    | false =>
      simp only [main, Bool.false_eq_true, ↓reduceIte] at taken ⊢
      omega

theorem toEnd_zero {pc : Pc} (looped : pc.looped = true) (first : pc.second = false)
    (zero : pc.toEnd = 0) : pc = .exited := by
  cases pc with
  | exited => rfl
  | dprint | sigTimer | sigInt | failed | killed => cases looped
  | ifTrigger | clear | report | usleep2 => cases first
  | whileTest | read0 | usleep | read1 | print | whileTest2 => cases zero

/-- **The drift program.** It prints the line about its tempo first, and then
lines of `loop_usleep` only, each true of its own sleep modulo a second, unless
a handler cannot be installed, which is reported and ends it, or a signal that
comes in front of its handler kills it. The waits printed never exceed the time
gone by, and the loop that would print what the handler measures is never
entered. Behind an interrupt one more line is printed at most, and `main` has
ended where it has taken six more steps. -/
theorem drift_lines {start : ℕ} {acts : List Act} {s : Main} {tr : List Event}
    (h : run mainRun (mainStart start) acts = some (s, tr))
    (timed : Along mainRun Timed (mainStart start) [] acts) :
    Printed s.pc tr ∧ waits tr ≤ (s.time : ℤ) - start ∧ s.pc.second = false ∧
    (s.running = false → s.pc.looped = true ∧
      ∀ later u tr', run mainRun s later = some (u, tr') →
        tr'.length ≤ s.pc.sleeping.toNat ∧ later.countP Act.isMain ≤ s.pc.toEnd ∧
        (later.countP Act.isMain = s.pc.toEnd → u.pc = .exited)) := by
  have inv := reachable_mainInv h timed
  refine ⟨inv.printed, inv.total, inv.first, fun off => ⟨inv.looped off, fun later u tr' hr => ?_⟩⟩
  have h0 : Stopping s.pc.sleeping.toNat s.pc.toEnd s [] :=
    ⟨off, inv.looped off, inv.first, by simp, Nat.le_refl _⟩
  obtain ⟨last, printed, taken⟩ := stopping_run h0 hr
  refine ⟨printed, taken, fun all => ?_⟩
  have left := last.left
  rw [all, Nat.sub_self] at left
  exact toEnd_zero last.looped last.first (Nat.le_zero.mp left)

/-- An interrupt in the first sleep, which lasts for a second and a half: its line
is printed, with half a second in it. -/
theorem drift_lines_interrupted :
    ∃ s u tr tr', run mainRun (mainStart 5) [.main 5 true, .main 5 true, .main 5 true,
        .main 5 true, .main 7 true, .interrupt] = some (s, tr) ∧
      Printed s.pc tr ∧ tr = [.tempo 526315789 114] ∧
      run mainRun s [.main 9 true, .main 1500000007 true, .main 1500000008 true,
        .main 1500000009 true, .main 1500000010 true] = some (u, tr') ∧
      tr' = [.slept 7 1500000007 500000000 26315789] ∧ tr'.length ≤ s.pc.sleeping.toNat ∧
      u.pc = .exited := by
  have timed : Along mainRun Timed (mainStart 5) [] [.main 5 true, .main 5 true, .main 5 true,
      .main 5 true, .main 7 true, .interrupt] := by
    iterate 4 apply Along.cons (Nat.le_refl 5) rfl
    apply Along.cons (by decide : 5 ≤ 7) rfl
    exact Along.cons trivial rfl trivial
  have first : run mainRun (mainStart 5) [.main 5 true, .main 5 true, .main 5 true,
      .main 5 true, .main 7 true, .interrupt] = some (_, _) := rfl
  obtain ⟨printed, -, -, stops⟩ := drift_lines first timed
  obtain ⟨short, -, ends⟩ := (stops rfl).2 [.main 9 true, .main 1500000007 true,
    .main 1500000008 true, .main 1500000009 true, .main 1500000010 true] _ _ rfl
  exact ⟨_, _, _, _, first, printed, by decide, rfl, by decide, short, ends (by decide)⟩

end MidiGw.Drift
