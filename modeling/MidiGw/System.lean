import MidiGw.CcRoute
import MidiGw.Handlers
import MidiGw.Simulation
import MidiGw.Spawned

/-!
# The gateway and its tappers

The whole system: request handlers in the gateway, the processes they have
spawned, and the signals under way between them. Requests arrive, handlers and
processes take their steps, and signals are delivered in any order.
-/

namespace MidiGw.System

open C (CStr)
open Gateway (World launch midiCc tapCmd)
open Gateway.Handlers (Request Shown)
open Runs (run run_single)
open Spawned (Process Program spawn)
open Tapper (Build Signal)

structure State where
  gateway : Gateway.Handlers.State
  /-- the processes behind the Popen objects, by their positions -/
  procs : List Process

def init (serialDev tapProcCmd : CStr) : State := ⟨Gateway.Handlers.init serialDev tapProcCmd, []⟩

inductive Act where
  | arrive (h : Nat) (r : Request)
  /-- the next step of a handler; `forks` is the system's answer to Popen -/
  | run (h : Nat) (forks : Bool)
  | process (p : Nat) (a : Spawned.Act)
  /-- a request for /midi/cc; `opens` is whether the port can be opened -/
  | cc (channel message value : Nat) (opens : Bool)
  deriving DecidableEq, Repr

inductive Event where
  | arrived (h : Nat) (r : Request)
  | spawned (h : Nat) (p : Nat)
  | shown (e : Shown)
  | process (p : Nat) (e : Spawned.Event)
  /-- what a request for /midi/cc has written -/
  | cc (channel message value : Nat) (data : List UInt8)
  deriving DecidableEq, Repr

/-- `Popen.send_signal` on its way to the process. -/
def signalled (procs : List Process) : Shown → List Process
  | .signalled _ sig p => procs.modify p (·.send sig)
  | .assigned _ _ | .noneSignal _ _ | .discarded _ _ => procs

/-- What a handler's step means for the processes: those it has spawned start,
and those it has signalled have the signal pending. -/
def handled (s : State) (h : Nat) (g : Gateway.Handlers.State) (out : List Shown) :
    State × List Event :=
  let fresh := g.world.spawned.drop s.procs.length
  (⟨g, out.foldl signalled (s.procs ++ fresh.map spawn)⟩,
    (List.range fresh.length).map (fun k => .spawned h (s.procs.length + k)) ++ out.map .shown)

/-- A process that is over can be waited for. -/
def reaped (g : Gateway.Handlers.State) (p : Nat) (q : Process) : Gateway.Handlers.State :=
  if q.over then { g with world := g.world.ended p } else g

def step (b : Build) : Runs.Step State Act Event
  | s, .arrive h r =>
    (Gateway.Handlers.step s.gateway (.arrive h r)).map fun g =>
      (⟨g.1, s.procs⟩, .arrived h r :: g.2.map .shown)
  | s, .run h forks =>
    (Gateway.Handlers.step s.gateway (.run h forks)).map fun g => handled s h g.1 g.2
  | s, .process p a =>
    match s.procs[p]? with
    | none => none
    | some q =>
      (Spawned.step b q a).map fun r =>
        (⟨reaped s.gateway p r.1, s.procs.set p r.1⟩, r.2.map (.process p))
  | s, .cc channel message value opens =>
    some (s, [.cc channel message value (midiCc channel message value opens).2])

/-! ## What a step can do -/

/-- A handler's step spawns, or signals, or does neither. -/
inductive Effect (w : World) (h : Nat) :
    Gateway.Handlers.Pc → World → Gateway.Handlers.Pc → List Shown → Prop
  | spawn (channel message value bpm : CStr) :
      Effect w h (.popen channel message value bpm)
        { w with
          spawned := w.spawned ++ [tapCmd w channel message value bpm]
          live := w.live ++ [w.spawned.length] }
        (.assign w.spawned.length) []
  | signal (pc pc' : Gateway.Handlers.Pc) (sig : Signal) (p : Nat)
      (past : ∀ r : Request, pc' ≠ r.entry) :
      Effect w h pc (Gateway.sendSignal w p sig) pc' [.signalled h sig p]
  | other (pc pc' : Gateway.Handlers.Pc) (tap : Option Nat) (out : List Shown)
      (quiet : ∀ g sig p, .signalled g sig p ∉ out) (past : ∀ r : Request, pc' ≠ r.entry) :
      Effect w h pc { w with tapProc := tap } pc' out

theorem entry_cases (r : Request) :
    (∃ channel message value bpm, r.entry = .popen channel message value bpm) ∨
      r.entry = .check := by
  cases r with
  | start channel message value bpm => exact .inl ⟨channel, message, value, bpm, rfl⟩
  | stop => exact .inr rfl

theorem handlerStep_effect {w w' : World} {h : Nat} {forks : Bool} {pc pc' : Gateway.Handlers.Pc}
    {out : List Shown}
    (taken : Gateway.Handlers.handlerStep w h forks pc = some (w', pc', out)) :
    Effect w h pc w' pc' out := by
  have past {pc : Gateway.Handlers.Pc} (popen : ∀ c m v t, pc ≠ .popen c m v t)
      (check : pc ≠ .check) (r : Request) : pc ≠ r.entry := by
    rcases entry_cases r with ⟨c, m, v, t, e⟩ | e <;> rw [e]
    · exact popen c m v t
    · exact check
  cases pc with
  | popen channel message value bpm =>
    simp only [Gateway.Handlers.handlerStep, Gateway.popen] at taken
    split at taken
    · cases taken; exact .other _ _ w.tapProc [] (by simp) (past (by simp) (by simp))
    · rename_i spawned
      split at spawned
      · cases spawned
      · cases spawned; cases taken; exact .spawn channel message value bpm
  | assign p => cases taken; exact .other _ _ (some p) _ (by simp) (past (by simp) (by simp))
  | check =>
    simp only [Gateway.Handlers.handlerStep] at taken
    split at taken <;> cases taken <;>
      exact .other _ _ w.tapProc [] (by simp) (past (by simp) (by simp))
  | readInt | readTerm =>
    cases taken
    exact .other _ _ w.tapProc [] (by simp) (past (by simp) (by simp))
  | sendInt v | sendTerm v =>
    cases v with
    | none => cases taken; exact .other _ _ w.tapProc _ (by simp) (past (by simp) (by simp))
    | some q => cases taken; exact .signal _ _ _ q (past (by simp) (by simp))
  | reset =>
    cases taken
    refine .other _ _ none _ ?_ (past (by simp) (by simp))
    split <;> simp
  | finished => cases taken

theorem signalled_none {out : List Shown} (quiet : ∀ g sig p, .signalled g sig p ∉ out)
    (procs : List Process) : out.foldl signalled procs = procs := by
  induction out with
  | nil => rfl
  | cons e out ih =>
    have rest := ih fun g sig p mem => quiet g sig p (List.mem_cons_of_mem e mem)
    cases e with
    | signalled g sig p => exact absurd List.mem_cons_self (quiet g sig p)
    | assigned | noneSignal | discarded => exact rest

/-- Every step of the system, by who takes it. -/
inductive Move (b : Build) (s : State) : Act → State → List Event → Prop
  | arrive (h : Nat) (r : Request) (fresh : s.gateway.pcs h = none) :
      Move b s (.arrive h r) ⟨s.gateway.set s.gateway.world h r.entry, s.procs⟩ [.arrived h r]
  | spawn (h : Nat) (forks : Bool) (channel message value bpm : CStr)
      (standing : s.gateway.pcs h = some (.popen channel message value bpm)) :
      Move b s (.run h forks)
        ⟨s.gateway.set
          { s.gateway.world with
            spawned := s.gateway.world.spawned ++
              [tapCmd s.gateway.world channel message value bpm]
            live := s.gateway.world.live ++ [s.procs.length] } h (.assign s.procs.length),
          s.procs ++ [spawn (tapCmd s.gateway.world channel message value bpm)]⟩
        [.spawned h s.procs.length]
  | signal (h : Nat) (forks : Bool) (pc pc' : Gateway.Handlers.Pc) (sig : Signal) (p : Nat)
      (standing : s.gateway.pcs h = some pc) (past : ∀ r : Request, pc' ≠ r.entry) :
      Move b s (.run h forks)
        ⟨s.gateway.set (Gateway.sendSignal s.gateway.world p sig) h pc',
          s.procs.modify p (·.send sig)⟩
        [.shown (.signalled h sig p)]
  | handler (h : Nat) (forks : Bool) (pc pc' : Gateway.Handlers.Pc) (tap : Option Nat)
      (out : List Shown) (standing : s.gateway.pcs h = some pc)
      (quiet : ∀ g sig p, .signalled g sig p ∉ out) (past : ∀ r : Request, pc' ≠ r.entry) :
      Move b s (.run h forks)
        ⟨s.gateway.set { s.gateway.world with tapProc := tap } h pc', s.procs⟩ (out.map .shown)
  | process (p : Nat) (a : Spawned.Act) (q r : Process) (out : List Spawned.Event)
      (there : s.procs[p]? = some q) (move : Spawned.Move b q a r out) :
      Move b s (.process p a) ⟨reaped s.gateway p r, s.procs.set p r⟩ (out.map (.process p))
  | cc (channel message value : Nat) (opens : Bool) :
      Move b s (.cc channel message value opens) s
        [.cc channel message value (midiCc channel message value opens).2]

/-- What the gateway takes for live are the processes that have not ended and
are not about to be killed. -/
structure Synced (s : State) : Prop where
  known : s.procs.length = s.gateway.world.spawned.length
  live : ∀ p, p ∈ s.gateway.world.live ↔
    ∃ q, s.procs[p]? = some q ∧ q.over = false ∧ .sigterm ∉ q.pending

theorem step_move {b : Build} {s t : State} {a : Act} {out : List Event} (synced : Synced s)
    (hs : step b s a = some (t, out)) : Move b s a t out := by
  cases a with
  | arrive h r =>
    obtain ⟨⟨g, shown⟩, taken, same⟩ := Option.map_eq_some_iff.mp hs
    rcases Gateway.Handlers.step_cases taken with ⟨_, _, e, fresh, rfl, rfl⟩ | ⟨_, _, _, _, _, e, _⟩ |
      ⟨_, e, _⟩
    · cases e; cases same; exact .arrive h r fresh
    · cases e
    · cases e
  | run h forks =>
    obtain ⟨⟨g, shown⟩, taken, same⟩ := Option.map_eq_some_iff.mp hs
    rcases Gateway.Handlers.step_cases taken with ⟨_, _, e, _⟩ | ⟨_, _, pc, w, pc', e, standing, taken', rfl⟩ |
      ⟨_, e, _⟩
    · cases e
    · cases e
      have known := synced.known
      cases handlerStep_effect taken' with
      | spawn channel message value bpm =>
        have moved := @Move.spawn b s h forks channel message value bpm standing
        simp only [handled, Gateway.Handlers.set_world, known, List.drop_left, Prod.mk.injEq] at same
        obtain ⟨rfl, rfl⟩ := same
        simpa [known] using moved
      | signal _ _ sig p past =>
        have moved := @Move.signal b s h forks pc pc' sig p standing past
        have nothing : (Gateway.sendSignal s.gateway.world p sig).spawned.drop s.procs.length = [] := by
          rw [known]
          cases sig <;> exact List.drop_length
        simp only [handled, Gateway.Handlers.set_world, nothing, Prod.mk.injEq] at same
        obtain ⟨rfl, rfl⟩ := same
        simpa [signalled] using moved
      | other _ _ tap _ quiet past =>
        have moved := @Move.handler b s h forks pc pc' tap shown standing quiet past
        have nothing : s.gateway.world.spawned.drop s.procs.length = [] := by
          rw [known]
          exact List.drop_length
        simp only [handled, Gateway.Handlers.set_world, nothing, Prod.mk.injEq] at same
        obtain ⟨rfl, rfl⟩ := same
        simpa [signalled_none quiet] using moved
    · cases e
  | process p a =>
    simp only [step] at hs
    split at hs
    · cases hs
    · rename_i q there
      obtain ⟨⟨r, shown⟩, taken, same⟩ := Option.map_eq_some_iff.mp hs
      cases same
      exact .process p a q r shown there (Spawned.step_move taken)
  | cc channel message value opens => cases hs; exact .cc channel message value opens

/-! ## What the gateway knows of its processes -/

theorem Synced.bound {s : State} (h : Synced s) {p : Nat} (live : p ∈ s.gateway.world.live) :
    p < s.procs.length := by
  obtain ⟨q, there, -⟩ := (h.live p).mp live
  exact (List.getElem?_eq_some_iff.mp there).1

theorem synced_spawn {s : State} (h : Synced s) (cmd : List CStr) (g : Nat)
    (pc : Gateway.Handlers.Pc) :
    Synced ⟨s.gateway.set
      { s.gateway.world with
        spawned := s.gateway.world.spawned ++ [cmd]
        live := s.gateway.world.live ++ [s.procs.length] } g pc, s.procs ++ [spawn cmd]⟩ := by
  constructor
  · simp [h.known]
  · intro p
    simp only [Gateway.Handlers.set_world, List.mem_append, List.mem_singleton]
    by_cases new : p = s.procs.length
    · subst new
      simp [spawn, Process.over, Program.over]
    · by_cases old : p < s.procs.length
      · simp only [new, or_false, List.getElem?_append_left old]
        exact h.live p
      · have absent : (s.procs ++ [spawn cmd])[p]? = none := by
          rw [List.getElem?_eq_none_iff, List.length_append, List.length_singleton]
          omega
        simp only [new, or_false, absent, reduceCtorEq, false_and, exists_false, iff_false]
        exact fun live => old (h.bound live)

theorem synced_signal {s : State} (h : Synced s) (sig : Signal) (p g : Nat)
    (pc : Gateway.Handlers.Pc) :
    Synced ⟨s.gateway.set (Gateway.sendSignal s.gateway.world p sig) g pc,
      s.procs.modify p (·.send sig)⟩ := by
  constructor
  · cases sig <;> simpa [Gateway.sendSignal, World.ended] using h.known
  · intro r
    simp only [Gateway.Handlers.set_world]
    by_cases self : r = p
    · subst self
      rw [List.getElem?_modify_eq]
      cases there : s.procs[r]? with
      | none =>
        have dead : r ∉ s.gateway.world.live := by
          intro live
          obtain ⟨q, here, -⟩ := (h.live r).mp live
          rw [there] at here
          cases here
        cases sig <;> simp [Gateway.sendSignal, World.ended, dead]
      | some q =>
        have live := h.live r
        simp only [there, Option.some.injEq, exists_eq_left'] at live
        simp only [Option.map_eq_map, Option.map_some, Option.some.injEq, exists_eq_left',
          Spawned.send_over]
        by_cases alive : q.over = false
        · rw [Spawned.send_pending alive]
          cases sig <;> simp [Gateway.sendSignal, World.ended, live, alive]
        · have gone : r ∉ s.gateway.world.live := fun mem => alive (live.mp mem).1
          cases sig <;> simp [Gateway.sendSignal, World.ended, gone, alive]
    · rw [List.getElem?_modify_ne _ _ fun e => self e.symm]
      rw [← h.live r]
      cases sig <;> simp [Gateway.sendSignal, World.ended, self]

theorem synced_process {b : Build} {s : State} (h : Synced s) {p : Nat} {a : Spawned.Act}
    {q r : Process} {out : List Spawned.Event} (there : s.procs[p]? = some q)
    (move : Spawned.Move b q a r out) : Synced ⟨reaped s.gateway p r, s.procs.set p r⟩ := by
  have inside := (List.getElem?_eq_some_iff.mp there).1
  constructor
  · unfold reaped
    split <;> simpa [World.ended] using h.known
  · intro o
    have other (ne : o ≠ p) :
        o ∈ (reaped s.gateway p r).world.live ↔ o ∈ s.gateway.world.live := by
      unfold reaped
      split <;> simp [World.ended, ne]
    by_cases self : o = p
    · subst self
      have live := h.live o
      simp only [there, Option.some.injEq, exists_eq_left', Spawned.move_alive move,
        true_and] at live
      simp only [List.getElem?_set_self inside, Option.some.injEq, exists_eq_left']
      unfold reaped
      by_cases done : r.over = true
      · simp [done, World.ended]
      · rw [Bool.not_eq_true] at done
        simp [done, live, Spawned.move_pending move done]
    · rw [other self, h.live o]
      simp only [List.getElem?_set_ne fun e => self e.symm]

theorem synced_step {b : Build} {s t : State} {a : Act} {out : List Event} (h : Synced s)
    (hs : step b s a = some (t, out)) : Synced t := by
  cases step_move h hs with
  | arrive g r fresh => exact ⟨h.known, h.live⟩
  | spawn g forks channel message value bpm standing => exact synced_spawn h _ g _
  | signal g forks pc pc' sig p standing past => exact synced_signal h sig p g pc'
  | handler g forks pc pc' tap out standing quiet past => exact ⟨h.known, h.live⟩
  | process p a q r out there move => exact synced_process h there move
  | cc => exact h

/-- What an observer of the gateway alone sees. -/
def Event.gateway : Event → List Shown
  | .shown e => [e]
  | .arrived _ _ | .spawned _ _ | .process _ _ | .cc _ _ _ _ => []

theorem gateway_shown (h n k : Nat) (out : List Shown) :
    ((List.range n).map (fun i => Event.spawned h (k + i)) ++ out.map Event.shown).flatMap
      Event.gateway = out := by
  simp only [List.flatMap_append, List.flatMap_map, Event.gateway]
  simp

theorem ended_dead {w : World} {p : Nat} (dead : p ∉ w.live) : w.ended p = w := by
  have same : w.live.filter (· ≠ p) = w.live := by
    rw [List.filter_eq_self]
    intro q mem
    simp only [ne_eq, decide_not, Bool.not_eq_eq_eq_not, Bool.not_true, decide_eq_false_iff_not]
    rintro rfl
    exact dead mem
  simp only [World.ended, same]

/-- The system's steps are the handlers' own, and the ends of tappers. -/
theorem gateway_simulates (b : Build) :
    Runs.Simulates (step b) Gateway.Handlers.step Synced State.gateway Event.gateway where
  keep _ _ _ _ h hs := synced_step h hs
  follow s a t out _ hs := by
    cases a with
    | arrive h r =>
      obtain ⟨⟨g, shown⟩, taken, same⟩ := Option.map_eq_some_iff.mp hs
      cases same
      refine ⟨[.arrive h r], run_single.mpr ?_⟩
      rw [taken]
      have told := gateway_shown h 0 0 shown
      simpa [Event.gateway] using told.symm
    | run h forks =>
      obtain ⟨⟨g, shown⟩, taken, same⟩ := Option.map_eq_some_iff.mp hs
      cases same
      refine ⟨[.run h forks], run_single.mpr ?_⟩
      rw [taken, gateway_shown]
    | process p a =>
      simp only [step] at hs
      split at hs
      · cases hs
      · obtain ⟨⟨r, shown⟩, -, same⟩ := Option.map_eq_some_iff.mp hs
        cases same
        have told : (shown.map (.process p)).flatMap Event.gateway = [] := by
          simp [List.flatMap_map, Event.gateway]
        rw [told]
        unfold reaped
        split
        · by_cases live : p ∈ s.gateway.world.live
          · exact ⟨[.exit p], run_single.mpr (by simp [Gateway.Handlers.step, live])⟩
          · exact ⟨[], by rw [ended_dead live]; rfl⟩
        · exact ⟨[], rfl⟩
    | cc channel message value opens => cases hs; exact ⟨[], rfl⟩

theorem synced_init (serialDev tapProcCmd : CStr) : Synced (init serialDev tapProcCmd) :=
  ⟨rfl, fun p => by simp [init, Gateway.Handlers.init, launch]⟩

/-- **The gateway in the system.** Whatever the tappers do, the gateway's part
of a run is one of its handlers with tappers that end; and those it takes for
live are the processes that have not ended and have no SIGTERM under way. -/
theorem gateway_runs (b : Build) (serialDev tapProcCmd : CStr) {acts : List Act} {s : State}
    {tr : List Event} (h : run (step b) (init serialDev tapProcCmd) acts = some (s, tr)) :
    (∃ gacts, run Gateway.Handlers.step (Gateway.Handlers.init serialDev tapProcCmd) gacts =
      some (s.gateway, tr.flatMap Event.gateway)) ∧
    ∀ p, p ∈ s.gateway.world.live ↔
      ∃ q, s.procs[p]? = some q ∧ q.over = false ∧ .sigterm ∉ q.pending := by
  obtain ⟨synced, gacts, matched⟩ := (gateway_simulates b).run (synced_init serialDev tapProcCmd) h
  exact ⟨⟨gacts, matched⟩, synced.live⟩

/-- A start request is served, and its process accepts the command line. -/
def firstTapper : List Act :=
  [.arrive 0 (.start "0".toList "44".toList "0".toList "120".toList), .run 0 true, .run 0 true,
    .process 0 .parse]

theorem gateway_runs_first :
    ∃ s tr gacts, run (step (Build.plain false))
        (init "/dev/serial0".toList "/usr/local/bin/midi-tapper".toList) firstTapper =
          some (s, tr) ∧
      run Gateway.Handlers.step
        (Gateway.Handlers.init "/dev/serial0".toList "/usr/local/bin/midi-tapper".toList) gacts =
          some (s.gateway, tr.flatMap Event.gateway) ∧ 0 ∈ s.gateway.world.live := by
  obtain ⟨s, tr, ran, live⟩ : ∃ s tr, run (step (Build.plain false))
      (init "/dev/serial0".toList "/usr/local/bin/midi-tapper".toList) firstTapper =
        some (s, tr) ∧ 0 ∈ s.gateway.world.live := ⟨_, _, rfl, List.mem_singleton.mpr rfl⟩
  obtain ⟨⟨gacts, matched⟩, -⟩ := gateway_runs _ _ _ ran
  exact ⟨s, tr, gacts, ran, matched, live⟩

end MidiGw.System
