import MidiGw.Gateway

/-!
# Concurrent start and stop handlers

`app.run` serves every request in a thread of its own. Each read of `tap_proc`,
each assignment to it, each Popen and each signal is one atomic step, and the
handlers take them in any order. Which interleavings keep a stop handler on one
process from its check to its reset.
-/

namespace MidiGw.Gateway

open C (CStr)
open Runs (Along along_iff run run_append run_cons run_single run_invariant run_invariant_along)
open Tapper (Signal)

namespace Handlers

/-! ## Handlers -/

/-- Where a handler stands. A value it has read from `tap_proc` is with it
until the call it was read for. -/
inductive Pc where
  | popen (channel message value bpm : CStr)
  | assign (p : Nat)
  | check
  | readInt
  | sendInt (q : Option Nat)
  | readTerm
  | sendTerm (q : Option Nat)
  | reset
  | finished (reply : Reply)
  deriving DecidableEq, Repr

inductive Request where
  | start (channel message value bpm : CStr)
  | stop
  deriving DecidableEq, Repr

def Request.entry : Request → Pc
  | .start channel message value bpm => .popen channel message value bpm
  | .stop => .check

/-- The globals, and the handlers of the requests that have arrived. -/
structure State where
  world : World
  pcs : Nat → Option Pc

def init (serialDev tapProcCmd : CStr) : State := ⟨launch serialDev tapProcCmd, fun _ => none⟩

/-- A handler has taken a step. -/
def State.set (s : State) (w : World) (h : Nat) (pc : Pc) : State :=
  ⟨w, fun g => if g = h then some pc else s.pcs g⟩

@[simp] theorem set_world (s : State) (w : World) (h : Nat) (pc : Pc) :
    (s.set w h pc).world = w := rfl

@[simp] theorem set_same (s : State) (w : World) (h : Nat) (pc : Pc) :
    (s.set w h pc).pcs h = some pc := if_pos rfl

theorem set_other (s : State) (w : World) {g h : Nat} (pc : Pc) (ne : g ≠ h) :
    (s.set w h pc).pcs g = s.pcs g := if_neg ne

/-- Behind a step a handler stands where the step has led it, or where it stood. -/
theorem set_pcs {s : State} {w : World} {g h : Nat} {pc pc' : Pc}
    (there : (s.set w g pc').pcs h = some pc) :
    h = g ∧ pc = pc' ∨ h ≠ g ∧ s.pcs h = some pc := by
  by_cases same : h = g
  · subst same
    rw [set_same, Option.some.injEq] at there
    exact .inl ⟨rfl, there.symm⟩
  · rw [set_other _ _ _ same] at there
    exact .inr ⟨same, there⟩

inductive Act where
  | arrive (h : Nat) (r : Request)
  /-- the next step of a handler; `forks` is the system's answer to Popen -/
  | run (h : Nat) (forks : Bool)
  /-- a tapper ends on its own -/
  | exit (p : Nat)
  deriving DecidableEq, Repr

inductive Shown where
  | assigned (h : Nat) (p : Nat)
  | signalled (h : Nat) (sig : Signal) (p : Nat)
  /-- `send_signal` is looked up on None -/
  | noneSignal (h : Nat) (sig : Signal)
  /-- `tap_proc = None` drops the reference to a process -/
  | discarded (h : Nat) (p : Nat)
  deriving DecidableEq, Repr

/-- The next atomic step of a handler. -/
def handlerStep (w : World) (h : Nat) (forks : Bool) : Pc → Option (World × Pc × List Shown)
  | .popen channel message value bpm =>
    match Gateway.popen w (tapCmd w channel message value bpm) forks with
    | none => some (w, .finished .raised, [])
    | some (p, w') => some (w', .assign p, [])
  | .assign p => some ({ w with tapProc := some p }, .finished .ok, [.assigned h p])
  | .check => if w.tapProc = none then some (w, .finished .notRunning, []) else some (w, .readInt, [])
  | .readInt => some (w, .sendInt w.tapProc, [])
  | .sendInt none => some (w, .finished .raised, [.noneSignal h .sigint])
  | .sendInt (some p) => some (sendSignal w p .sigint, .readTerm, [.signalled h .sigint p])
  | .readTerm => some (w, .sendTerm w.tapProc, [])
  | .sendTerm none => some (w, .finished .raised, [.noneSignal h .sigterm])
  | .sendTerm (some p) => some (sendSignal w p .sigterm, .reset, [.signalled h .sigterm p])
  | .reset =>
    some ({ w with tapProc := none }, .finished .ok,
      match w.tapProc with
      | none => []
      | some p => [.discarded h p])
  | .finished _ => none

def step : Runs.Step State Act Shown
  | s, .arrive h r => if s.pcs h = none then some (s.set s.world h r.entry, []) else none
  | s, .run h forks =>
    match s.pcs h with
    | none => none
    | some pc =>
      match handlerStep s.world h forks pc with
      | none => none
      | some (w, pc', out) => some (s.set w h pc', out)
  | s, .exit p => if p ∈ s.world.live then some ({ s with world := s.world.ended p }, []) else none

/-- A step is an arrival, a handler's step, or the end of a tapper. -/
theorem step_cases {s t : State} {a : Act} {out : List Shown} (hs : step s a = some (t, out)) :
    (∃ h r, a = .arrive h r ∧ s.pcs h = none ∧ t = s.set s.world h r.entry ∧ out = []) ∨
    (∃ h forks pc w pc', a = .run h forks ∧ s.pcs h = some pc ∧
      handlerStep s.world h forks pc = some (w, pc', out) ∧ t = s.set w h pc') ∨
    (∃ p, a = .exit p ∧ t = { s with world := s.world.ended p } ∧ out = []) := by
  cases a with
  | arrive h r =>
    simp only [step] at hs
    split at hs
    · rename_i fresh; cases hs; exact .inl ⟨h, r, rfl, fresh, rfl, rfl⟩
    · cases hs
  | run h forks =>
    simp only [step] at hs
    split at hs
    · cases hs
    · rename_i pc standing
      split at hs
      · cases hs
      · rename_i w pc' out' taken
        cases hs
        exact .inr (.inl ⟨h, forks, pc, w, pc', rfl, standing, taken, rfl⟩)
  | exit p =>
    simp only [step] at hs
    split at hs
    · cases hs; exact .inr (.inr ⟨p, rfl, rfl, rfl⟩)
    · cases hs

theorem run_handler {s : State} {h : Nat} {forks : Bool} {pc pc' : Pc} {w : World}
    {out : List Shown} (standing : s.pcs h = some pc)
    (taken : handlerStep s.world h forks pc = some (w, pc', out)) :
    step s (.run h forks) = some (s.set w h pc', out) := by
  simp only [step, standing, taken]

theorem solo_cons {s u : State} {h n : Nat} {forks : Bool} {pc pc' : Pc} {w : World}
    {out rest : List Shown} (standing : s.pcs h = some pc)
    (taken : handlerStep s.world h forks pc = some (w, pc', out))
    (further : run step (s.set w h pc') (List.replicate n (.run h forks)) = some (u, rest)) :
    run step s (List.replicate (n + 1) (.run h forks)) = some (u, out ++ rest) := by
  rw [List.replicate_succ]
  exact run_cons.mpr ⟨_, out, rest, run_handler standing taken, further, rfl⟩

theorem solo_last {s : State} {h : Nat} {forks : Bool} {pc pc' : Pc} {w : World}
    {out : List Shown} (standing : s.pcs h = some pc)
    (taken : handlerStep s.world h forks pc = some (w, pc', out)) :
    run step s (List.replicate 1 (.run h forks)) = some (s.set w h pc', out) :=
  run_single.mpr (run_handler standing taken)

/-! ## Handlers that run alone -/

/-- Not interrupted, a start handler is the start route. -/
theorem start_alone {s : State} {h : Nat} {channel message value bpm : CStr} {forks : Bool}
    (standing : s.pcs h = some (.popen channel message value bpm)) :
    ∃ n u out, run step s (List.replicate n (.run h forks)) = some (u, out) ∧
      (u.world, u.pcs h) =
        ((midiTapStart s.world channel message value bpm forks).1,
          some (.finished (midiTapStart s.world channel message value bpm forks).2)) := by
  cases forked : Gateway.popen s.world (tapCmd s.world channel message value bpm) forks with
  | none =>
    have taken : handlerStep s.world h forks (.popen channel message value bpm) =
        some (s.world, .finished .raised, []) := by
      simp only [handlerStep, forked]
    exact ⟨1, _, _, solo_last standing taken, by simp [midiTapStart, startTapProc, forked]⟩
  | some r =>
    have taken : handlerStep s.world h forks (.popen channel message value bpm) =
        some (r.2, .assign r.1, []) := by
      simp only [handlerStep, forked]
    exact ⟨2, _, _, solo_cons standing taken (solo_last (set_same _ _ _ _) rfl),
      by simp [midiTapStart, startTapProc, forked]⟩

/-- Not interrupted, a stop handler is the stop route. -/
theorem stop_alone {s : State} {h : Nat} (standing : s.pcs h = some .check) :
    ∃ n u out, run step s (List.replicate n (.run h true)) = some (u, out) ∧
      (u.world, u.pcs h) =
        ((midiTapStop s.world).1, some (.finished (midiTapStop s.world).2)) := by
  cases tap : s.world.tapProc with
  | none =>
    have taken : handlerStep s.world h true .check =
        some (s.world, .finished .notRunning, []) := by
      simp [handlerStep, tap]
    exact ⟨1, _, _, solo_last standing taken, by simp [midiTapStop_none tap]⟩
  | some p =>
    have check : handlerStep s.world h true .check = some (s.world, .readInt, []) := by
      simp [handlerStep, tap]
    have readInt : handlerStep s.world h true .readInt =
        some (s.world, .sendInt (some p), []) := by
      simp only [handlerStep, tap]
    have readTerm : handlerStep s.world h true .readTerm =
        some (s.world, .sendTerm (some p), []) := by
      simp only [handlerStep, tap]
    refine ⟨6, _, _, solo_cons standing check (solo_cons (set_same _ _ _ _) readInt
      (solo_cons (set_same _ _ _ _) rfl (solo_cons (set_same _ _ _ _) readTerm
        (solo_cons (set_same _ _ _ _) rfl (solo_last (set_same _ _ _ _) rfl))))), ?_⟩
    simp [midiTapStop_some tap, sendSignal]

/-! ## Safety -/

/-- No stop handler signals None, each sends its two signals to one process,
and none drops a process that it has not signalled. -/
structure Safe (tr : List Shown) : Prop where
  noNone : ∀ h sig, .noneSignal h sig ∉ tr
  sameTarget : ∀ h p, .signalled h .sigterm p ∈ tr → .signalled h .sigint p ∈ tr
  keeps : ∀ h p, .discarded h p ∈ tr → ∃ sig, .signalled h sig p ∈ tr

/-- A stop handler that has read `tap_proc` for SIGINT and not reset it yet. -/
def Pc.bound : Pc → Bool
  | .sendInt _ | .readTerm | .sendTerm _ | .reset => true
  | _ => false

/-- A stop handler past its check that will read `tap_proc` again. -/
def Pc.trusting : Pc → Bool
  | .readInt | .sendInt _ | .readTerm => true
  | _ => false

/-- The step neither assigns a new process to `tap_proc` while a stop handler
is bound to the old one, nor resets it while another stop handler trusts it. -/
structure Undisturbed (s : State) (a : Act) : Prop where
  assign : ∀ g forks p, a = .run g forks → s.pcs g = some (.assign p) →
    ∀ h pc, s.pcs h = some pc → pc.bound = false
  reset : ∀ g forks, a = .run g forks → s.pcs g = some .reset →
    ∀ h pc, h ≠ g → s.pcs h = some pc → pc.trusting = false

/-- What a handler counts on. -/
def Ready (tap : Option Nat) (tr : List Shown) (h : Nat) : Pc → Prop
  | .readInt => tap ≠ none
  | .sendInt v => ∃ q, v = some q ∧ tap = some q
  | .readTerm => ∃ q, tap = some q ∧ .signalled h .sigint q ∈ tr
  | .sendTerm v => ∃ q, v = some q ∧ .signalled h .sigint q ∈ tr ∧ ∀ p, tap = some p → p = q
  | .reset => ∃ q, .signalled h .sigint q ∈ tr ∧ ∀ p, tap = some p → p = q
  | _ => True

theorem safe_nil : Safe [] := ⟨by simp, by simp, by simp⟩

theorem Safe.append {tr out : List Shown} (safe : Safe tr)
    (noNone : ∀ h sig, .noneSignal h sig ∉ out)
    (sameTarget : ∀ h p, .signalled h .sigterm p ∈ out → .signalled h .sigint p ∈ tr)
    (keeps : ∀ h p, .discarded h p ∈ out → ∃ sig, .signalled h sig p ∈ tr) : Safe (tr ++ out) where
  noNone h sig mem := (List.mem_append.mp mem).elim (safe.noNone h sig) (noNone h sig)
  sameTarget h p mem := List.mem_append_left out
    ((List.mem_append.mp mem).elim (safe.sameTarget h p) (sameTarget h p))
  keeps h p mem := by
    obtain ⟨sig, sent⟩ := (List.mem_append.mp mem).elim (safe.keeps h p) (keeps h p)
    exact ⟨sig, List.mem_append_left out sent⟩

/-- A handler that can count on what it needs takes a safe step, and can count
on what it needs next. -/
theorem ready_own {w w' : World} {tr out : List Shown} {h : Nat} {forks : Bool} {pc pc' : Pc}
    (safe : Safe tr) (ready : Ready w.tapProc tr h pc)
    (taken : handlerStep w h forks pc = some (w', pc', out)) :
    Safe (tr ++ out) ∧ Ready w'.tapProc (tr ++ out) h pc' := by
  cases pc with
  | popen channel message value bpm =>
    simp only [handlerStep] at taken
    split at taken <;> cases taken <;> exact ⟨by simpa using safe, trivial⟩
  | assign p =>
    cases taken
    exact ⟨safe.append (by simp) (by simp) (by simp), trivial⟩
  | check =>
    simp only [handlerStep] at taken
    split at taken
    · cases taken; exact ⟨by simpa using safe, trivial⟩
    · rename_i running; cases taken; exact ⟨by simpa using safe, running⟩
  | readInt =>
    cases taken
    obtain ⟨q, tap⟩ := Option.ne_none_iff_exists'.mp ready
    exact ⟨by simpa using safe, q, tap, tap⟩
  | sendInt v =>
    obtain ⟨q, rfl, tap⟩ := ready
    cases taken
    exact ⟨safe.append (by simp) (by simp) (by simp), q, tap, by simp⟩
  | readTerm =>
    obtain ⟨q, tap, sent⟩ := ready
    cases taken
    refine ⟨by simpa using safe, q, tap, by simpa using sent, fun p other => ?_⟩
    rw [tap] at other
    exact (Option.some.inj other).symm
  | sendTerm v =>
    obtain ⟨q, rfl, sent, only⟩ := ready
    cases taken
    refine ⟨safe.append (by simp) ?_ (by simp), q, by simp [sent], only⟩
    intro h' p mem
    simp only [List.mem_singleton, Shown.signalled.injEq, true_and] at mem
    obtain ⟨rfl, rfl⟩ := mem
    exact sent
  | reset =>
    obtain ⟨q, sent, only⟩ := ready
    cases taken
    refine ⟨?_, trivial⟩
    cases tap : w.tapProc with
    | none => simpa using safe
    | some p =>
      apply safe.append (by simp) (by simp)
      intro h' p' mem
      simp only [List.mem_singleton, Shown.discarded.injEq] at mem
      obtain ⟨rfl, rfl⟩ := mem
      exact ⟨.sigint, only p' tap ▸ sent⟩
  | finished reply => cases taken

/-! ## Undisturbed runs are safe -/

theorem Ready.append {tap : Option Nat} {tr : List Shown} {h : Nat} {pc : Pc}
    (ready : Ready tap tr h pc) (out : List Shown) : Ready tap (tr ++ out) h pc := by
  cases pc with
  | readTerm =>
    obtain ⟨q, now, sent⟩ := ready
    exact ⟨q, now, List.mem_append_left out sent⟩
  | sendTerm v =>
    obtain ⟨q, read, sent, only⟩ := ready
    exact ⟨q, read, List.mem_append_left out sent, only⟩
  | reset =>
    obtain ⟨q, sent, only⟩ := ready
    exact ⟨q, List.mem_append_left out sent, only⟩
  | popen | assign | check | readInt | sendInt | finished => exact ready

/-- Only an assignment and a reset touch `tap_proc`. -/
theorem handlerStep_tap {w w' : World} {g : Nat} {forks : Bool} {pc pc' : Pc} {out : List Shown}
    (taken : handlerStep w g forks pc = some (w', pc', out)) :
    w'.tapProc = w.tapProc ∨ (∃ p, pc = .assign p ∧ w'.tapProc = some p) ∨
      (pc = .reset ∧ w'.tapProc = none) := by
  cases pc with
  | popen channel message value bpm =>
    left
    simp only [handlerStep, Gateway.popen] at taken
    split at taken
    · cases taken; rfl
    · rename_i spawned
      split at spawned
      · cases spawned
      · cases spawned; cases taken; rfl
  | assign p => cases taken; exact .inr (.inl ⟨p, rfl, rfl⟩)
  | check => simp only [handlerStep] at taken; split at taken <;> cases taken <;> exact .inl rfl
  | readInt | readTerm => cases taken; exact .inl rfl
  | sendInt v | sendTerm v => cases v <;> cases taken <;> exact .inl rfl
  | reset => cases taken; exact .inr (.inr ⟨rfl, rfl⟩)
  | finished => cases taken

/-- What a handler counts on survives the undisturbing step of another. -/
theorem ready_other {s : State} {tr out : List Shown} {g h : Nat} {forks : Bool}
    {pc pc' other : Pc} {w : World} (calm : Undisturbed s (.run g forks))
    (standing : s.pcs g = some pc) (taken : handlerStep s.world g forks pc = some (w, pc', out))
    (ne : h ≠ g) (there : s.pcs h = some other) (ready : Ready s.world.tapProc tr h other) :
    Ready w.tapProc (tr ++ out) h other := by
  apply Ready.append
  rcases handlerStep_tap taken with same | ⟨p, rfl, now⟩ | ⟨rfl, now⟩
  · rw [same]; exact ready
  · have free := calm.assign g forks p rfl standing h other there
    cases other with
    | readInt => rw [now]; exact Option.some_ne_none p
    | sendInt | readTerm | sendTerm | reset => cases free
    | popen | assign | check | finished => trivial
  · have free := calm.reset g forks rfl standing h other ne there
    cases other with
    | readInt | sendInt | readTerm => cases free
    | sendTerm v =>
      obtain ⟨q, read, sent, -⟩ := ready
      exact ⟨q, read, sent, by simp [now]⟩
    | reset =>
      obtain ⟨q, sent, -⟩ := ready
      exact ⟨q, sent, by simp [now]⟩
    | popen | assign | check | finished => trivial

/-- Nothing has gone wrong, and every handler can count on what it needs. -/
structure Calm (s : State) (tr : List Shown) : Prop where
  safe : Safe tr
  ready : ∀ h pc, s.pcs h = some pc → Ready s.world.tapProc tr h pc

theorem calm_step {s t : State} {tr out : List Shown} {a : Act} (calm : Calm s tr)
    (quiet : Undisturbed s a) (hs : step s a = some (t, out)) : Calm t (tr ++ out) := by
  obtain ⟨safe, ready⟩ := calm
  rcases step_cases hs with ⟨h, r, rfl, fresh, rfl, rfl⟩ | ⟨g, forks, pc, w, pc', rfl, standing, taken, rfl⟩ |
    ⟨p, rfl, rfl, rfl⟩
  · rw [List.append_nil]
    refine ⟨safe, fun h' pc there => ?_⟩
    obtain ⟨-, rfl⟩ | ⟨-, was⟩ := set_pcs there
    · cases r <;> trivial
    · exact ready h' pc was
  · obtain ⟨next, own⟩ := ready_own safe (ready g pc standing) taken
    refine ⟨next, fun h other there => ?_⟩
    obtain ⟨rfl, rfl⟩ | ⟨apart, was⟩ := set_pcs there
    · exact own
    · exact ready_other quiet standing taken apart was (ready h other was)
  · rw [List.append_nil]
    exact ⟨safe, ready⟩

/-- A handler that can count on what it needs may be left to run alone. -/
theorem solo_safe {h n : Nat} {s t : State} {tr out : List Shown} (safe : Safe tr)
    (ready : ∀ pc, s.pcs h = some pc → Ready s.world.tapProc tr h pc)
    (hr : run step s (List.replicate n (.run h true)) = some (t, out)) : Safe (tr ++ out) := by
  induction n generalizing s tr out with
  | zero => cases hr; simpa using safe
  | succ n ih =>
    rw [List.replicate_succ] at hr
    obtain ⟨u, first, rest, hs, htail, rfl⟩ := run_cons.mp hr
    rcases step_cases hs with ⟨_, _, other, -⟩ | ⟨g, forks, pc, w, pc', same, standing, taken, rfl⟩ |
      ⟨_, other, -⟩
    · cases other
    · cases same
      obtain ⟨next, own⟩ := ready_own safe (ready pc standing) taken
      rw [← List.append_assoc]
      refine ih next (fun pc'' there => ?_) htail
      rw [set_same, Option.some.injEq] at there
      subst there
      exact own
    · cases other

/-! ## A disturbance leads to harm -/

/-- The value a stop handler has read and not used yet. -/
def Pc.held : Pc → Option Nat
  | .sendInt v | .sendTerm v => v
  | _ => none

/-- A process that `tap_proc` or a stop handler knows. -/
def Refers (s : State) (tr : List Shown) (p : Nat) : Prop :=
  s.world.tapProc = some p ∨ (∃ h pc, s.pcs h = some pc ∧ pc.held = some p) ∨
    ∃ h sig, .signalled h sig p ∈ tr

/-- What a handler holds it has read from `tap_proc`, and what it signals it
held. -/
theorem handlerStep_held {w w' : World} {g : Nat} {forks : Bool} {pc pc' : Pc} {out : List Shown}
    (taken : handlerStep w g forks pc = some (w', pc', out)) :
    (∀ p, pc'.held = some p → w.tapProc = some p) ∧
      ∀ h sig p, .signalled h sig p ∈ out → h = g ∧ pc.held = some p := by
  cases pc with
  | popen channel message value bpm =>
    simp only [handlerStep] at taken
    split at taken <;> cases taken <;> exact ⟨fun p held => (by cases held), by simp⟩
  | assign p => cases taken; exact ⟨fun p held => (by cases held), by simp⟩
  | check =>
    simp only [handlerStep] at taken
    split at taken <;> cases taken <;> exact ⟨fun p held => (by cases held), by simp⟩
  | readInt | readTerm => cases taken; exact ⟨fun p held => held, by simp⟩
  | sendInt v | sendTerm v =>
    cases v with
    | none => cases taken; exact ⟨fun p held => (by cases held), by simp⟩
    | some q =>
      cases taken
      refine ⟨fun p held => (by cases held), fun h sig p mem => ?_⟩
      simp only [List.mem_singleton, Shown.signalled.injEq] at mem
      exact ⟨mem.1, by rw [mem.2.2]; rfl⟩
  | reset =>
    cases taken
    refine ⟨fun p held => (by cases held), fun h sig p mem => ?_⟩
    split at mem <;> simp at mem
  | finished => cases taken

/-- Popen is the only step that spawns, and what it spawns is fresh. -/
theorem handlerStep_spawned {w w' : World} {g : Nat} {forks : Bool} {pc pc' : Pc}
    {out : List Shown} (taken : handlerStep w g forks pc = some (w', pc', out)) :
    w.spawned.length ≤ w'.spawned.length ∧
      ∀ p, pc' = .assign p → p = w.spawned.length ∧ p < w'.spawned.length := by
  have still : w.spawned.length ≤ w.spawned.length := Nat.le_refl _
  cases pc with
  | popen channel message value bpm =>
    simp only [handlerStep, Gateway.popen] at taken
    split at taken
    · cases taken; exact ⟨still, fun p e => (by cases e)⟩
    · rename_i spawned
      split at spawned
      · cases spawned
      · cases spawned
        cases taken
        simp
  | assign | reset | readInt | readTerm => cases taken; exact ⟨still, fun p e => (by cases e)⟩
  | check =>
    simp only [handlerStep] at taken
    split at taken <;> cases taken <;> exact ⟨still, fun p e => (by cases e)⟩
  | sendInt v | sendTerm v => cases v <;> cases taken <;> exact ⟨still, fun p e => (by cases e)⟩
  | finished => cases taken

/-- New references come from an assignment only. -/
theorem refers_step {s t : State} {tr out : List Shown} {a : Act} {p : Nat}
    (hs : step s a = some (t, out)) (h : Refers t (tr ++ out) p) :
    Refers s tr p ∨ ∃ g forks, a = .run g forks ∧ s.pcs g = some (.assign p) := by
  rcases step_cases hs with ⟨g, r, rfl, fresh, rfl, rfl⟩ | ⟨g, forks, pc, w, pc', rfl, standing, taken, rfl⟩ |
    ⟨q, rfl, rfl, rfl⟩
  · left
    rcases h with tap | ⟨h', pc, there, held⟩ | ⟨h', sig, sent⟩
    · exact .inl tap
    · obtain ⟨-, rfl⟩ | ⟨-, was⟩ := set_pcs there
      · cases r <;> cases held
      · exact .inr (.inl ⟨h', pc, was, held⟩)
    · exact .inr (.inr ⟨h', sig, by simpa using sent⟩)
  · obtain ⟨read, signals⟩ := handlerStep_held taken
    rcases h with tap | ⟨h', pc'', there, held⟩ | ⟨h', sig, sent⟩
    · rcases handlerStep_tap taken with same | ⟨p', rfl, now⟩ | ⟨-, now⟩
      · exact .inl (.inl (same ▸ tap))
      · rw [set_world, now, Option.some.injEq] at tap
        exact .inr ⟨g, forks, rfl, tap ▸ standing⟩
      · rw [set_world, now] at tap; cases tap
    · obtain ⟨-, rfl⟩ | ⟨-, was⟩ := set_pcs there
      · exact .inl (.inl (read p held))
      · exact .inl (.inr (.inl ⟨h', pc'', was, held⟩))
    · cases List.mem_append.mp sent with
      | inl sent => exact .inl (.inr (.inr ⟨h', sig, sent⟩))
      | inr sent => exact .inl (.inr (.inl ⟨g, pc, standing, (signals h' sig p sent).2⟩))
  · left
    rcases h with tap | holder | ⟨h', sig, sent⟩
    · exact .inl tap
    · exact .inr (.inl holder)
    · exact .inr (.inr ⟨h', sig, by simpa using sent⟩)

/-- A handler in front of its assignment was there before, or has just forked. -/
theorem assign_step {s t : State} {out : List Shown} {a : Act} {g p : Nat}
    (hs : step s a = some (t, out)) (standing : t.pcs g = some (.assign p)) :
    (s.pcs g = some (.assign p) ∧ ∀ forks, a ≠ .run g forks) ∨
      (p = s.world.spawned.length ∧ p < t.world.spawned.length ∧ ∃ forks, a = .run g forks) := by
  rcases step_cases hs with ⟨h, r, rfl, fresh, rfl, rfl⟩ | ⟨h, forks, pc, w, pc', rfl, there, taken, rfl⟩ |
    ⟨q, rfl, rfl, rfl⟩
  · obtain ⟨-, entry⟩ | ⟨-, was⟩ := set_pcs standing
    · cases r <;> cases entry
    · exact .inl ⟨was, fun forks => by simp⟩
  · obtain ⟨rfl, assigns⟩ | ⟨apart, was⟩ := set_pcs standing
    · obtain ⟨fresh, more⟩ := (handlerStep_spawned taken).2 p assigns.symm
      exact .inr ⟨fresh, more, forks, rfl⟩
    · exact .inl ⟨was, fun forks' e => apart (Act.run.inj e).1.symm⟩
  · exact .inl ⟨standing, fun forks => by simp⟩

theorem spawned_step {s t : State} {out : List Shown} {a : Act} (hs : step s a = some (t, out)) :
    s.world.spawned.length ≤ t.world.spawned.length := by
  rcases step_cases hs with ⟨_, _, -, -, rfl, -⟩ | ⟨_, _, _, _, _, -, -, taken, rfl⟩ | ⟨_, -, rfl, -⟩
  · exact Nat.le_refl _
  · exact (handlerStep_spawned taken).1
  · exact Nat.le_refl _

/-- A process not assigned yet is known to the start handler that spawned it
and to no one else. -/
structure Pending (s : State) (tr : List Shown) : Prop where
  known : ∀ p, Refers s tr p → p < s.world.spawned.length
  hidden : ∀ g p, s.pcs g = some (.assign p) → p < s.world.spawned.length ∧ ¬Refers s tr p
  own : ∀ g g' p, s.pcs g = some (.assign p) → s.pcs g' = some (.assign p) → g = g'

theorem pending_step {s t : State} {tr out : List Shown} {a : Act} (h : Pending s tr)
    (hs : step s a = some (t, out)) : Pending t (tr ++ out) := by
  obtain ⟨known, hidden, own⟩ := h
  have more := spawned_step hs
  have before (p : Nat) (refers : Refers t (tr ++ out) p) : p < s.world.spawned.length := by
    rcases refers_step hs refers with old | ⟨g, _, -, standing⟩
    · exact known p old
    · exact (hidden g p standing).1
  refine ⟨fun p refers => Nat.lt_of_lt_of_le (before p refers) more, fun g p standing => ?_,
    fun g g' p standing at' => ?_⟩
  · rcases assign_step hs standing with ⟨was, idle⟩ | ⟨fresh, inside, -⟩
    · obtain ⟨inside, unknown⟩ := hidden g p was
      refine ⟨Nat.lt_of_lt_of_le inside more, fun refers => ?_⟩
      rcases refers_step hs refers with old | ⟨g', forks, rfl, there⟩
      · exact unknown old
      · exact idle forks (by rw [own g g' p was there])
    · exact ⟨inside, fun refers => by have := before p refers; omega⟩
  · rcases assign_step hs standing with ⟨was, -⟩ | ⟨fresh, -, forks, mine⟩ <;>
      rcases assign_step hs at' with ⟨was', -⟩ | ⟨fresh', -, forks', theirs⟩
    · exact own g g' p was was'
    · have := (hidden g p was).1; omega
    · have := (hidden g' p was').1; omega
    · rw [mine] at theirs
      exact (Act.run.inj theirs).1

theorem reachable_pending {serialDev tapProcCmd : CStr} {acts : List Act} {s : State}
    {tr : List Shown} (h : run step (init serialDev tapProcCmd) acts = some (s, tr)) :
    Pending s tr := by
  have h0 : Pending (init serialDev tapProcCmd) [] := by
    refine ⟨fun p refers => ?_, fun g p standing => (by cases standing), fun g g' p standing => (by cases standing)⟩
    rcases refers with tap | ⟨_, _, standing, -⟩ | ⟨_, _, sent⟩
    · cases tap
    · cases standing
    · cases sent
  simpa using run_invariant Pending h0 h fun _ _ _ _ _ hi hs => pending_step hi hs

/-- Left to run alone, a handler that trusts a reset `tap_proc` signals None. -/
theorem harm_of_reset {s : State} {h : Nat} {pc : Pc} (tap : s.world.tapProc = none)
    (standing : s.pcs h = some pc) (trusting : pc.trusting = true) :
    ∃ n u out, run step s (List.replicate n (.run h true)) = some (u, out) ∧
      ∃ sig, .noneSignal h sig ∈ out := by
  have readTerm {s : State} (tap : s.world.tapProc = none) (standing : s.pcs h = some .readTerm) :
      ∃ u, run step s (List.replicate 2 (.run h true)) = some (u, [.noneSignal h .sigterm]) := by
    have taken : handlerStep s.world h true .readTerm = some (s.world, .sendTerm none, []) := by
      simp only [handlerStep, tap]
    exact ⟨_, solo_cons standing taken (solo_last (set_same _ _ _ _) rfl)⟩
  cases pc with
  | readInt =>
    have taken : handlerStep s.world h true .readInt = some (s.world, .sendInt none, []) := by
      simp only [handlerStep, tap]
    exact ⟨2, _, _, solo_cons standing taken (solo_last (set_same _ _ _ _) rfl), .sigint,
      List.mem_cons_self⟩
  | sendInt v =>
    cases v with
    | none => exact ⟨1, _, _, solo_last standing rfl, .sigint, List.mem_cons_self⟩
    | some q =>
      have after : (s.set (sendSignal s.world q .sigint) h .readTerm).world.tapProc = none := tap
      obtain ⟨u, further⟩ := readTerm after (set_same _ _ _ _)
      exact ⟨3, u, _, solo_cons standing rfl further, .sigterm, by simp⟩
  | readTerm =>
    obtain ⟨u, further⟩ := readTerm tap standing
    exact ⟨2, u, _, further, .sigterm, List.mem_cons_self⟩
  | popen | assign | check | sendTerm | reset | finished => cases trusting

/-- Left to run alone, a handler bound to another process than the one just
assigned signals None, sends SIGTERM to the wrong process, or drops one that it
never signalled. -/
theorem harm_of_assign {s : State} {tr : List Shown} {h p : Nat} {pc : Pc}
    (tap : s.world.tapProc = some p) (standing : s.pcs h = some pc) (bound : pc.bound = true)
    (unread : pc.held ≠ some p) (unsent : ∀ sig, .signalled h sig p ∉ tr) :
    ∃ n u out, run step s (List.replicate n (.run h true)) = some (u, out) ∧ ¬Safe (tr ++ out) := by
  have onNone {sig : Signal} {out : List Shown} : ¬Safe (tr ++ .noneSignal h sig :: out) :=
    fun safe => safe.noNone h sig (by simp)
  have readTerm {s : State} (tap : s.world.tapProc = some p) (standing : s.pcs h = some .readTerm) :
      ∃ u, run step s (List.replicate 2 (.run h true)) = some (u, [.signalled h .sigterm p]) := by
    have taken : handlerStep s.world h true .readTerm =
        some (s.world, .sendTerm (some p), []) := by
      simp only [handlerStep, tap]
    exact ⟨_, solo_cons standing taken (solo_last (set_same _ _ _ _) rfl)⟩
  have reset {s : State} (tap : s.world.tapProc = some p) (standing : s.pcs h = some .reset) :
      ∃ u, run step s (List.replicate 1 (.run h true)) = some (u, [.discarded h p]) := by
    have taken : handlerStep s.world h true .reset =
        some ({ s.world with tapProc := none }, .finished .ok, [.discarded h p]) := by
      simp only [handlerStep, tap]
    exact ⟨_, solo_last standing taken⟩
  cases pc with
  | sendInt v =>
    cases v with
    | none => exact ⟨1, _, _, solo_last standing rfl, onNone⟩
    | some q =>
      have after : (s.set (sendSignal s.world q .sigint) h .readTerm).world.tapProc = some p := tap
      have other : p ≠ q := fun e => unread (by rw [e]; rfl)
      obtain ⟨u, further⟩ := readTerm after (set_same _ _ _ _)
      refine ⟨3, u, _, solo_cons standing rfl further, fun safe => ?_⟩
      have sent := safe.sameTarget h p (by simp)
      simp [unsent, other] at sent
  | readTerm =>
    obtain ⟨u, further⟩ := readTerm tap standing
    refine ⟨2, u, _, further, fun safe => ?_⟩
    have sent := safe.sameTarget h p (by simp)
    simp [unsent] at sent
  | sendTerm v =>
    cases v with
    | none => exact ⟨1, _, _, solo_last standing rfl, onNone⟩
    | some q =>
      have after : (s.set (sendSignal s.world q .sigterm) h .reset).world.tapProc = some p := tap
      have other : p ≠ q := fun e => unread (by rw [e]; rfl)
      obtain ⟨u, further⟩ := reset after (set_same _ _ _ _)
      refine ⟨2, u, _, solo_cons standing rfl further, fun safe => ?_⟩
      obtain ⟨sig, sent⟩ := safe.keeps h p (by simp)
      simp [unsent, other] at sent
  | reset =>
    obtain ⟨u, further⟩ := reset tap standing
    refine ⟨1, u, _, further, fun safe => ?_⟩
    obtain ⟨sig, sent⟩ := safe.keeps h p (by simp)
    simp [unsent] at sent
  | popen | assign | check | readInt | finished => cases bound

/-- **Concurrent stops.** An interleaving is safe, at each point and also when
any one handler is from there on left to run alone, if and only if no start
assigns `tap_proc` while a stop handler is bound to a process, and no stop
resets it while another stop handler trusts it. -/
theorem handlers_safe_iff (serialDev tapProcCmd : CStr) (acts : List Act) :
    (∀ pre h n s tr, pre <+: acts →
      run step (init serialDev tapProcCmd) (pre ++ List.replicate n (.run h true)) = some (s, tr) →
      Safe tr) ↔
    Along step (fun s _ a => Undisturbed s a) (init serialDev tapProcCmd) [] acts := by
  constructor
  · intro robust
    apply along_iff.mpr
    intro pre a hp s tr hr
    have pending := reachable_pending hr
    -- a disturbing step can be followed by the steps of the handler it disturbs
    have solo {t : State} {out : List Shown} (hs : step s a = some (t, out)) {h n : Nat} {u : State}
        {more : List Shown} (further : run step t (List.replicate n (.run h true)) = some (u, more)) :
        Safe (tr ++ out ++ more) :=
      robust (pre ++ [a]) h n u _ hp (run_append.mpr ⟨t, tr ++ out, more,
        run_append.mpr ⟨s, tr, out, hr, run_single.mpr hs, rfl⟩, further, rfl⟩)
    constructor
    · rintro g forks p rfl standing h pc there
      by_contra bound
      rw [Bool.not_eq_false] at bound
      have ne : h ≠ g := by
        rintro rfl
        rw [standing, Option.some.injEq] at there
        subst there
        cases bound
      obtain ⟨-, unknown⟩ := pending.hidden g p standing
      have assigned := @run_handler s g forks _ _ _ _ standing rfl
      have unread : pc.held ≠ some p := fun held => unknown (.inr (.inl ⟨h, pc, there, held⟩))
      have unsent (sig : Signal) : .signalled h sig p ∉ tr ++ [.assigned g p] := by
        simp only [List.mem_append, List.mem_singleton, reduceCtorEq, or_false]
        exact fun sent => unknown (.inr (.inr ⟨h, sig, sent⟩))
      obtain ⟨n, u, more, further, harmed⟩ := harm_of_assign
        (s := s.set { s.world with tapProc := some p } g (.finished .ok)) rfl
        ((set_other _ _ _ ne).trans there) bound unread unsent
      exact harmed (solo assigned further)
    · rintro g forks rfl standing h pc ne there
      by_contra trusting
      rw [Bool.not_eq_false] at trusting
      have reset := @run_handler s g forks _ _ _ _ standing rfl
      obtain ⟨n, u, more, further, sig, sent⟩ := harm_of_reset
        (s := s.set { s.world with tapProc := none } g (.finished .ok)) rfl
        ((set_other _ _ _ ne).trans there) trusting
      exact (solo reset further).noNone h sig (List.mem_append_right _ sent)
  · intro quiet pre h n s tr hp hr
    obtain ⟨post, rfl⟩ := hp
    obtain ⟨u, front, back, hu, hb, rfl⟩ := run_append.mp hr
    have start : Calm (init serialDev tapProcCmd) [] := ⟨safe_nil, fun h pc standing => (by cases standing)⟩
    have calm := run_invariant_along Calm start (quiet.append hu).1 hu
      fun _ _ _ _ _ hi ok hs => calm_step hi ok hs
    rw [List.nil_append] at calm
    exact solo_safe calm.safe (calm.ready h) hb

/-- A start assigns its process while a stop sleeps between its two signals. -/
def lateStart : List Act :=
  [.arrive 0 (.start "0".toList "44".toList "0".toList "120".toList), .run 0 true, .run 0 true,
    .arrive 1 .stop, .run 1 true, .run 1 true, .run 1 true,
    .arrive 2 (.start "1".toList "44".toList "0".toList "120".toList), .run 2 true, .run 2 true,
    .run 1 true, .run 1 true]

/-- The stop has sent SIGINT to the first tapper and SIGTERM to the second. -/
theorem lateStart_unsafe :
    ∃ s tr, run step (init "/dev/serial0".toList "/usr/local/bin/midi-tapper".toList) lateStart =
      some (s, tr) ∧ ¬Safe tr := by
  refine ⟨_, [.assigned 0 0, .signalled 1 .sigint 0, .assigned 2 1, .signalled 1 .sigterm 1],
    rfl, fun safe => ?_⟩
  have sent := safe.sameTarget 1 1 (by simp)
  simp at sent

end Handlers

end MidiGw.Gateway
