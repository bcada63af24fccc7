import MidiGw.Ends

/-!
# A spawned process

A process that Popen has started: it parses its command line, then it is a
tapper. Signals sent to it stay pending until they are delivered, one of a kind
at most; before `main` has installed its handlers each of them kills.
-/

namespace MidiGw.Spawned

open C (CStr)
open Cmdline (ArgsInfo Parsed cmdlineParser)
open Runs (run run_append run_single)
open Tapper (Build Signal)

/-- How far the program has come. -/
inductive Program where
  /-- in `cmdline_parser` -/
  | parsing (cmd : List CStr)
  | tapping (args : ArgsInfo) (s : Tapper.State)
  /-- ended before `main`'s checks -/
  | ended
  deriving DecidableEq, Repr

inductive Event where
  /-- the parser has ended the process -/
  | parsed (stop : Parsed)
  | tapper (e : Tapper.Event)
  | delivered (sig : Signal)
  deriving DecidableEq, Repr

inductive Act where
  | parse
  | tapper (a : Tapper.Act)
  | deliver (sig : Signal)
  deriving DecidableEq, Repr

def Program.over : Program → Bool
  | .parsing _ => false
  | .tapping _ s => s.over
  | .ended => true

def parseStep (b : Build) : Program → Option (Program × List Event)
  | .parsing cmd =>
    match cmdlineParser b.longBits (cmd.headD []) cmd.tail with
    | .ok args => some (.tapping args Tapper.start, [])
    | stop => some (.ended, [.parsed stop])
  | .tapping _ _ | .ended => none

def tapperStep (b : Build) (a : Tapper.Act) : Program → Option (Program × List Event)
  | .parsing _ =>
    match a with
    | .signal _ => some (.ended, [])
    | .main _ | .handler => none
  | .tapping args s =>
    match Tapper.step b args s a with
    | none => none
    | some (t, out) => some (.tapping args t, out.map .tapper)
  | .ended => none

structure Process where
  program : Program
  /-- sent to it and not delivered yet -/
  pending : List Signal
  deriving DecidableEq, Repr

def spawn (cmd : List CStr) : Process := ⟨.parsing cmd, []⟩

def Process.over (q : Process) : Bool := q.program.over

/-- `kill`; a signal that is pending already is not queued again. -/
def Process.send (q : Process) (sig : Signal) : Process :=
  if q.over then q else { q with pending := q.pending.insert sig }

/-- One step of a process. `tapper` also covers the signals that others send,
the timer's among them. -/
def step (b : Build) : Runs.Step Process Act Event
  | q, .parse => (parseStep b q.program).map fun r => ({ q with program := r.1 }, r.2)
  | q, .tapper a => (tapperStep b a q.program).map fun r => ({ q with program := r.1 }, r.2)
  | q, .deliver sig =>
    if sig ∈ q.pending then
      (tapperStep b (.signal sig) q.program).map fun r =>
        (⟨r.1, q.pending.erase sig⟩, .delivered sig :: r.2)
    else none

/-! ## The tapper in a process -/

def Event.tapper? : Event → Option Tapper.Event
  | .tapper e => some e
  | .parsed _ | .delivered _ => none

/-- What the tapper in the process has shown. -/
def tapperTrace (tr : List Event) : List Tapper.Event := tr.filterMap Event.tapper?

@[simp] theorem tapperTrace_append (a b : List Event) :
    tapperTrace (a ++ b) = tapperTrace a ++ tapperTrace b := List.filterMap_append

@[simp] theorem tapperTrace_map (out : List Tapper.Event) :
    tapperTrace (out.map .tapper) = out := by
  simp only [tapperTrace, List.filterMap_map]
  exact List.filterMap_some

/-- How a program came to be where it is: once its command line was accepted,
by a run of the tapper on it. -/
inductive Came (b : Build) (cmd : List CStr) : Program → List Tapper.Event → Prop
  | parsing : Came b cmd (.parsing cmd) []
  | tapping {args : ArgsInfo} {s : Tapper.State} {acts : List Tapper.Act}
      {tr : List Tapper.Event}
      (accepted : cmdlineParser b.longBits (cmd.headD []) cmd.tail = .ok args)
      (ran : run (Tapper.step b args) Tapper.start acts = some (s, tr)) :
      Came b cmd (.tapping args s) tr
  | ended : Came b cmd .ended []

/-- A step of a process is one of its program: the parser's, or the tapper's. -/
inductive Move (b : Build) (q : Process) : Act → Process → List Event → Prop
  | accept (cmd : List CStr) (args : ArgsInfo) (standing : q.program = .parsing cmd)
      (accepted : cmdlineParser b.longBits (cmd.headD []) cmd.tail = .ok args) :
      Move b q .parse { q with program := .tapping args Tapper.start } []
  | refuse (cmd : List CStr) (stop : Parsed) (standing : q.program = .parsing cmd) :
      Move b q .parse { q with program := .ended } [.parsed stop]
  | killed (cmd : List CStr) (sig : Signal) (standing : q.program = .parsing cmd) :
      Move b q (.tapper (.signal sig)) { q with program := .ended } []
  | taps (args : ArgsInfo) (a : Tapper.Act) (s t : Tapper.State) (out : List Tapper.Event)
      (standing : q.program = .tapping args s) (hs : Tapper.step b args s a = some (t, out)) :
      Move b q (.tapper a) { q with program := .tapping args t } (out.map .tapper)
  | deliver (sig : Signal) (r : Process) (out : List Event) (sent : sig ∈ q.pending)
      (taken : Move b q (.tapper (.signal sig)) r out) :
      Move b q (.deliver sig) { r with pending := q.pending.erase sig } (.delivered sig :: out)

theorem tapper_move {b : Build} {q r : Process} {a : Tapper.Act} {out : List Event}
    (hs : step b q (.tapper a) = some (r, out)) : Move b q (.tapper a) r out := by
  obtain ⟨⟨program, out'⟩, taken, same⟩ := Option.map_eq_some_iff.mp hs
  cases same
  cases standing : q.program with
  | parsing cmd =>
    rw [standing] at taken
    cases a with
    | signal sig => cases taken; exact .killed cmd sig standing
    | main | handler => cases taken
  | tapping args s =>
    rw [standing] at taken
    simp only [tapperStep] at taken
    split at taken
    · cases taken
    · rename_i t out tapped
      cases taken
      exact .taps args a s t out standing tapped
  | ended => rw [standing] at taken; cases taken

theorem step_move {b : Build} {q r : Process} {a : Act} {out : List Event}
    (hs : step b q a = some (r, out)) : Move b q a r out := by
  cases a with
  | parse =>
    obtain ⟨⟨program, out'⟩, taken, same⟩ := Option.map_eq_some_iff.mp hs
    cases same
    cases standing : q.program with
    | parsing cmd =>
      rw [standing] at taken
      simp only [parseStep] at taken
      split at taken
      · rename_i args accepted
        cases taken
        exact .accept cmd args standing accepted
      · cases taken
        exact .refuse cmd _ standing
    | tapping | ended => rw [standing] at taken; cases taken
  | tapper a => exact tapper_move hs
  | deliver sig =>
    simp only [step] at hs
    split at hs
    · rename_i sent
      obtain ⟨⟨program, out'⟩, taken, same⟩ := Option.map_eq_some_iff.mp hs
      cases same
      have own : step b q (.tapper (.signal sig)) = some ({ q with program := program }, out') := by
        simp only [step, taken, Option.map_some]
      exact .deliver sig _ _ sent (tapper_move own)
    · cases hs

theorem came_step {b : Build} {cmd : List CStr} {q r : Process} {a : Act} {out : List Event}
    {tr : List Tapper.Event} (h : Came b cmd q.program tr) (move : Move b q a r out) :
    Came b cmd r.program (tr ++ tapperTrace out) := by
  induction move with
  | accept cmd' args standing accepted =>
    rw [standing] at h
    cases h
    exact @Came.tapping b cmd args Tapper.start [] [] accepted rfl
  | refuse cmd' stop standing | killed cmd' sig standing =>
    rw [standing] at h
    cases h
    exact .ended
  | taps args a s t out standing hs =>
    rw [standing] at h
    cases h with
    | tapping accepted ran =>
      rw [tapperTrace_map]
      exact .tapping accepted (run_append.mpr ⟨s, _, out, ran, run_single.mpr hs, rfl⟩)
  | deliver sig r out sent taken ih => exact ih

/-! ## Signals -/

/-- A process that is over does nothing any more. -/
theorem move_alive {b : Build} {q r : Process} {a : Act} {out : List Event}
    (move : Move b q a r out) : q.over = false := by
  induction move with
  | accept cmd args standing accepted => rw [Process.over, standing]; rfl
  | refuse cmd stop standing => rw [Process.over, standing]; rfl
  | killed cmd sig standing => rw [Process.over, standing]; rfl
  | taps args a s t out standing hs => rw [Process.over, standing]; exact Tapper.step_alive hs
  | deliver sig r out sent taken ih => exact ih

/-- SIGINT has reached the program. -/
def Program.interrupted : Program → Prop
  | .parsing _ => False
  | .tapping _ s => s.over = true ∨ s.interrupted
  | .ended => True

/-- The messages it may still send then. -/
def Program.remaining : Program → Nat
  | .parsing _ | .ended => 0
  | .tapping _ s => if s.over then 0 else s.pc.inIteration.toNat

theorem Program.remaining_le (g : Program) : g.remaining ≤ 1 := by
  cases g with
  | parsing | ended => exact Nat.zero_le 1
  | tapping args s =>
    simp only [Program.remaining]
    split
    · exact Nat.zero_le 1
    · exact Bool.toNat_le _

theorem interrupted_move {b : Build} {q r : Process} {a : Act} {out : List Event}
    (h : q.program.interrupted) (move : Move b q a r out) :
    r.program.interrupted ∧
      Tapper.sent (tapperTrace out) + r.program.remaining ≤ q.program.remaining := by
  induction move with
  | accept cmd args standing | refuse cmd stop standing | killed cmd sig standing => rw [standing] at h; cases h
  | taps args a s t out standing hs =>
    have alive := Tapper.step_alive hs
    rw [standing] at h ⊢
    simp only [Program.interrupted, Program.remaining, alive, Bool.false_eq_true, false_or,
      ↓reduceIte, tapperTrace_map] at h ⊢
    obtain ⟨still, bound⟩ := Tapper.interrupted_step h hs
    refine ⟨.inr still, ?_⟩
    split <;> omega
  | deliver sig r out sent taken ih => exact ih

/-- What a delivered signal does. -/
theorem deliver_move {b : Build} {q r : Process} {sig : Signal} {out : List Event}
    (move : Move b q (.deliver sig) r out) :
    tapperTrace out = [] ∧ (sig = .sigterm → r.over = true) ∧
      (sig = .sigint → r.program.interrupted) := by
  cases move with
  | deliver _ r out sent taken =>
    cases taken with
    | killed cmd sig standing => exact ⟨rfl, fun _ => rfl, fun _ => trivial⟩
    | taps args a s t out standing hs =>
      obtain ⟨term, int⟩ := Tapper.signal_effect hs
      rw [(Tapper.signal_step hs).1]
      exact ⟨rfl, term, int⟩

/-- A process that lives on still has its SIGTERM pending. -/
theorem move_pending {b : Build} {q r : Process} {a : Act} {out : List Event}
    (move : Move b q a r out) (alive : r.over = false) :
    .sigterm ∈ r.pending ↔ .sigterm ∈ q.pending := by
  cases move with
  | accept | refuse | killed | taps => rfl
  | deliver sig r out sent taken =>
    by_cases term : sig = .sigterm
    · have done := (deliver_move (.deliver sig r out sent taken)).2.1 term
      rw [alive] at done
      cases done
    · exact List.mem_erase_of_ne fun e => term e.symm

/-- A pending signal stays pending until it is delivered. -/
theorem move_queue {b : Build} {q r : Process} {a : Act} {out : List Event} {sig : Signal}
    (move : Move b q a r out) (sent : sig ∈ q.pending) :
    sig ∈ r.pending ∨ .delivered sig ∈ out := by
  cases move with
  | accept | refuse | killed | taps => exact .inl sent
  | deliver sig' r out sent' taken =>
    by_cases same : sig = sig'
    · exact .inr (by simp [same])
    · exact .inl ((List.mem_erase_of_ne same).mpr sent)

/-- Only a delivery shows one. -/
theorem move_delivered {b : Build} {q r : Process} {a : Act} {out : List Event} {sig : Signal}
    (move : Move b q a r out) (mem : .delivered sig ∈ out) : a = .deliver sig := by
  have silent {b : Build} {q r : Process} {a : Tapper.Act} {out : List Event}
      (move : Move b q (.tapper a) r out) : .delivered sig ∉ out := by
    cases move with
    | killed => exact List.not_mem_nil
    | taps => simp
  cases move with
  | accept | refuse => simp at mem
  | killed | taps => exact absurd mem (by simp)
  | deliver sig' r out sent taken =>
    rw [List.mem_cons, Event.delivered.injEq] at mem
    rw [mem.resolve_right (silent taken)]

@[simp] theorem send_over (q : Process) (sig : Signal) : (q.send sig).over = q.over := by
  unfold Process.send
  split <;> rfl

theorem send_pending {q : Process} (alive : q.over = false) (sig sig' : Signal) :
    sig' ∈ (q.send sig).pending ↔ sig' = sig ∨ sig' ∈ q.pending := by
  simp [Process.send, alive]

@[simp] theorem send_program (q : Process) (sig : Signal) :
    (q.send sig).program = q.program := by
  unfold Process.send
  split <;> rfl

end MidiGw.Spawned
