import MidiGw.System

/-!
# Where a tapper comes from

Each process of the system is followed back: to the run of the tapper that it
went through, to the command line that it was given, and to the one request
that it was spawned for.
-/

namespace MidiGw.System

open C (CStr)
open Cmdline (startArgs startNumbers)
open Gateway (World launch tapCmd)
open Gateway.Handlers (Request Shown)
open Runs (run run_invariant_reached)
open Spawned (Came Process spawn tapperTrace)
open Tapper (Build)

/-! ## The part of one process -/

def Event.of (p : Nat) : Event → Option Spawned.Event
  | .process q e => if q = p then some e else none
  | .arrived _ _ | .spawned _ _ | .shown _ | .cc _ _ _ _ => none

/-- What process `p` has shown. -/
def processTrace (p : Nat) (tr : List Event) : List Spawned.Event := tr.filterMap (Event.of p)

/-- What the tapper in process `p` has shown. -/
def tapperEvents (p : Nat) (tr : List Event) : List Tapper.Event :=
  tapperTrace (processTrace p tr)

@[simp] theorem processTrace_append (p : Nat) (a b : List Event) :
    processTrace p (a ++ b) = processTrace p a ++ processTrace p b := List.filterMap_append

@[simp] theorem tapperEvents_append (p : Nat) (a b : List Event) :
    tapperEvents p (a ++ b) = tapperEvents p a ++ tapperEvents p b := by
  simp only [tapperEvents, processTrace_append, Spawned.tapperTrace_append]

@[simp] theorem processTrace_own (p : Nat) (out : List Spawned.Event) :
    processTrace p (out.map (.process p)) = out := by
  have own : Event.of p ∘ Event.process p = some := by
    funext e
    simp [Event.of]
  rw [processTrace, List.filterMap_map, own, List.filterMap_some]

@[simp] theorem processTrace_other {p q : Nat} (ne : q ≠ p) (out : List Spawned.Event) :
    processTrace p (out.map (.process q)) = [] := by
  simp [processTrace, Event.of, ne]

@[simp] theorem processTrace_shown (p : Nat) (out : List Shown) :
    processTrace p (out.map .shown) = [] := by
  simp [processTrace, Event.of]

theorem tapperEvents_quiet {p : Nat} {out : List Event} (quiet : processTrace p out = [])
    (tr : List Event) : tapperEvents p (tr ++ out) = tapperEvents p tr := by
  rw [tapperEvents, processTrace_append, quiet, List.append_nil, ← tapperEvents]

/-! ## Histories -/

/-- Every process has run its program on the command line it was spawned with. -/
structure Histories (b : Build) (s : State) (tr : List Event) : Prop where
  fresh : ∀ p, s.procs.length ≤ p → processTrace p tr = []
  came : ∀ p q cmd, s.procs[p]? = some q → s.gateway.world.spawned[p]? = some cmd →
    Came b cmd q.program (tapperEvents p tr)

/-- A step that no process takes. -/
theorem Histories.idle {b : Build} {s t : State} {tr out : List Event} (h : Histories b s tr)
    (procs : t.procs = s.procs) (spawned : t.gateway.world.spawned = s.gateway.world.spawned)
    (quiet : ∀ p, processTrace p out = []) : Histories b t (tr ++ out) := by
  constructor
  · intro p beyond
    rw [procs] at beyond
    rw [processTrace_append, h.fresh p beyond, quiet]
    rfl
  · intro p q cmd there given
    rw [procs] at there
    rw [spawned] at given
    rw [tapperEvents_quiet (quiet p)]
    exact h.came p q cmd there given

theorem histories_step {b : Build} {s t : State} {tr out : List Event} {a : Act}
    (synced : Synced s) (h : Histories b s tr) (hs : step b s a = some (t, out)) :
    Histories b t (tr ++ out) := by
  cases step_move synced hs with
  | arrive g r fresh => exact h.idle rfl rfl fun p => rfl
  | handler g forks pc pc' tap out standing quiet past =>
    exact h.idle rfl rfl fun p => processTrace_shown p out
  | cc => exact h.idle rfl rfl fun p => rfl
  | spawn g forks channel message value bpm standing =>
    have silent (p : Nat) : processTrace p [.spawned g s.procs.length] = [] := rfl
    constructor
    · intro p beyond
      simp only [List.length_append, List.length_singleton] at beyond
      rw [processTrace_append, h.fresh p (by omega), silent]
      rfl
    · intro p q cmd there given
      rw [tapperEvents_quiet (silent p)]
      by_cases old : p < s.procs.length
      · rw [List.getElem?_append_left old] at there
        simp only [Gateway.Handlers.set_world] at given
        rw [List.getElem?_append_left (synced.known ▸ old)] at given
        exact h.came p q cmd there given
      · have here := (List.getElem?_eq_some_iff.mp there).1
        simp only [List.length_append, List.length_singleton] at here
        have last : p = s.procs.length := by omega
        subst last
        simp only [Gateway.Handlers.set_world] at given
        rw [synced.known, List.getElem?_concat_length] at given
        rw [List.getElem?_concat_length] at there
        cases there
        cases given
        rw [tapperEvents, h.fresh _ (Nat.le_refl _)]
        exact .parsing
  | signal g forks pc pc' sig p standing past =>
    have spawned : (Gateway.sendSignal s.gateway.world p sig).spawned =
        s.gateway.world.spawned := by cases sig <;> rfl
    have silent (q : Nat) : processTrace q [.shown (.signalled g sig p)] = [] := rfl
    constructor
    · intro q beyond
      rw [List.length_modify] at beyond
      rw [processTrace_append, h.fresh q beyond, silent]
      rfl
    · intro q r cmd there given
      rw [Gateway.Handlers.set_world, spawned] at given
      rw [List.getElem?_modify] at there
      obtain ⟨r', here, same⟩ := Option.map_eq_some_iff.mp there
      have program : r.program = r'.program := by
        rw [← same]
        split
        · exact Spawned.send_program r' sig
        · rfl
      rw [program, tapperEvents_quiet (silent q)]
      exact h.came q r' cmd here given
  | process p a q r out there move =>
    have spawned : (reaped s.gateway p r).world.spawned = s.gateway.world.spawned := by
      unfold reaped
      split <;> rfl
    have inside := (List.getElem?_eq_some_iff.mp there).1
    constructor
    · intro o beyond
      rw [List.length_set] at beyond
      rw [processTrace_append, h.fresh o beyond, processTrace_other (by omega)]
      rfl
    · intro o r' cmd here given
      rw [spawned] at given
      by_cases self : o = p
      · subst self
        rw [List.getElem?_set_self inside, Option.some.injEq] at here
        subst here
        rw [tapperEvents_append, tapperEvents, tapperEvents, processTrace_own]
        exact Spawned.came_step (h.came o q cmd there given) move
      · rw [List.getElem?_set_ne fun e => self e.symm] at here
        rw [tapperEvents_quiet (processTrace_other (fun e => self e.symm) out)]
        exact h.came o r' cmd here given

theorem reachable_synced {b : Build} {serialDev tapProcCmd : CStr} {acts : List Act} {s : State}
    {tr : List Event} (h : run (step b) (init serialDev tapProcCmd) acts = some (s, tr)) :
    Synced s :=
  ((gateway_simulates b).run (synced_init serialDev tapProcCmd) h).1

theorem reachable_histories {b : Build} {serialDev tapProcCmd : CStr} {acts : List Act}
    {s : State} {tr : List Event}
    (h : run (step b) (init serialDev tapProcCmd) acts = some (s, tr)) : Histories b s tr :=
  run_invariant_reached (Histories b)
    ⟨fun _ _ => rfl, fun p q cmd there _ => (by simp [init] at there)⟩ h
    fun _ _ _ _ _ _ hu inv hs => histories_step (reachable_synced hu) inv hs

/-! ## Origins -/

/-- Every process was spawned for one start request, and no request for two. -/
structure Origins (serialDev tapProcCmd : CStr) (s : State) (tr : List Event) : Prop where
  serial : s.gateway.world.serialDev = serialDev
  program : s.gateway.world.tapProcCmd = tapProcCmd
  request : ∀ p, p < s.procs.length → ∃ h channel message value bpm,
    .spawned h p ∈ tr ∧ .arrived h (.start channel message value bpm) ∈ tr ∧
    s.gateway.world.spawned[p]? =
      some (tapCmd (launch serialDev tapProcCmd) channel message value bpm)
  popens : ∀ h channel message value bpm,
    s.gateway.pcs h = some (.popen channel message value bpm) →
    .arrived h (.start channel message value bpm) ∈ tr ∧ ∀ p, .spawned h p ∉ tr
  known : ∀ h p, .spawned h p ∈ tr → s.gateway.pcs h ≠ none ∧ p < s.procs.length
  once : ∀ h p p', .spawned h p ∈ tr → .spawned h p' ∈ tr → p = p'
  single : ∀ h h' p, .spawned h p ∈ tr → .spawned h' p ∈ tr → h = h'

/-- A step that neither spawns nor lets a request arrive. -/
theorem Origins.keep {serialDev tapProcCmd : CStr} {s t : State} {tr out : List Event}
    (h : Origins serialDev tapProcCmd s tr)
    (serial : t.gateway.world.serialDev = s.gateway.world.serialDev)
    (program : t.gateway.world.tapProcCmd = s.gateway.world.tapProcCmd)
    (spawned : t.gateway.world.spawned = s.gateway.world.spawned)
    (length : t.procs.length = s.procs.length)
    (here : ∀ g, s.gateway.pcs g ≠ none → t.gateway.pcs g ≠ none)
    (popen : ∀ g (r : Request), t.gateway.pcs g = some r.entry → s.gateway.pcs g = some r.entry)
    (quiet : ∀ g p, .spawned g p ∉ out) : Origins serialDev tapProcCmd t (tr ++ out) := by
  have old {g p : Nat} (mem : .spawned g p ∈ tr ++ out) : .spawned g p ∈ tr :=
    (List.mem_append.mp mem).resolve_right (quiet g p)
  refine ⟨serial.trans h.serial, program.trans h.program, fun p inside => ?_,
    fun g channel message value bpm standing => ?_, fun g p mem => ?_,
    fun g p p' mem mem' => h.once g p p' (old mem) (old mem'),
    fun g g' p mem mem' => h.single g g' p (old mem) (old mem')⟩
  · obtain ⟨g, channel, message, value, bpm, origin, asked, given⟩ := h.request p (length ▸ inside)
    exact ⟨g, channel, message, value, bpm, List.mem_append_left out origin,
      List.mem_append_left out asked, spawned ▸ given⟩
  · obtain ⟨asked, unspawned⟩ := h.popens g channel message value bpm
      (popen g (.start channel message value bpm) standing)
    exact ⟨List.mem_append_left out asked, fun p mem => unspawned p (old mem)⟩
  · obtain ⟨present, inside⟩ := h.known g p (old mem)
    exact ⟨here g present, length ▸ inside⟩

/-- A handler that stands behind a step is there, and where a request enters
only if it stood there before. -/
theorem handler_moved {s : Gateway.Handlers.State} {w : World} {h : Nat}
    {pc' : Gateway.Handlers.Pc} (past : ∀ r : Request, pc' ≠ r.entry) :
    (∀ g, s.pcs g ≠ none → (s.set w h pc').pcs g ≠ none) ∧
    ∀ g (r : Request), (s.set w h pc').pcs g = some r.entry → s.pcs g = some r.entry := by
  constructor
  · intro g present
    by_cases self : g = h
    · subst self
      rw [Gateway.Handlers.set_same]
      exact Option.some_ne_none pc'
    · rwa [Gateway.Handlers.set_other _ _ _ self]
  · intro g r there
    obtain ⟨-, here⟩ | ⟨-, was⟩ := Gateway.Handlers.set_pcs there
    · exact absurd here.symm (past r)
    · exact was

theorem origins_step {b : Build} {serialDev tapProcCmd : CStr} {s t : State}
    {tr out : List Event} {a : Act} (synced : Synced s) (h : Origins serialDev tapProcCmd s tr)
    (hs : step b s a = some (t, out)) : Origins serialDev tapProcCmd t (tr ++ out) := by
  cases step_move synced hs with
  | handler g forks pc pc' tap out standing quiet past =>
    obtain ⟨here, popen⟩ := handler_moved (s := s.gateway) past
    exact h.keep rfl rfl rfl rfl here popen (by simp)
  | signal g forks pc pc' sig p standing past =>
    obtain ⟨here, popen⟩ := handler_moved (s := s.gateway) past
    apply h.keep _ _ _ (List.length_modify _ _ _) here popen (by simp)
    all_goals cases sig <;> rfl
  | process p a q r out there move =>
    apply h.keep _ _ _ (List.length_set ..) _ _ (by simp)
    all_goals unfold reaped; split
    all_goals first | rfl | exact fun _ => id | exact fun _ _ => id
  | cc => exact h.keep rfl rfl rfl rfl (fun _ => id) (fun _ _ => id) (by simp)
  | arrive g r fresh =>
    have old {g' p : Nat} (mem : .spawned g' p ∈ tr ++ [.arrived g r]) : .spawned g' p ∈ tr := by
      simpa using mem
    refine ⟨h.serial, h.program, fun p inside => ?_, fun g' channel message value bpm there => ?_,
      fun g' p mem => ?_, fun g' p p' mem mem' => h.once g' p p' (old mem) (old mem'),
      fun g' g'' p mem mem' => h.single g' g'' p (old mem) (old mem')⟩
    · obtain ⟨g', channel, message, value, bpm, origin, asked, given⟩ := h.request p inside
      exact ⟨g', channel, message, value, bpm, List.mem_append_left _ origin,
        List.mem_append_left _ asked, given⟩
    · obtain ⟨rfl, entry⟩ | ⟨-, was⟩ := Gateway.Handlers.set_pcs there
      · cases r with
        | stop => cases entry
        | start =>
          cases entry
          exact ⟨by simp, fun p mem => (h.known g' p (old mem)).1 fresh⟩
      · obtain ⟨asked, unspawned⟩ := h.popens g' channel message value bpm was
        exact ⟨List.mem_append_left _ asked, fun p mem => unspawned p (old mem)⟩
    · obtain ⟨present, inside⟩ := h.known g' p (old mem)
      refine ⟨?_, inside⟩
      have apart : g' ≠ g := by
        rintro rfl
        exact present fresh
      rwa [Gateway.Handlers.set_other _ _ _ apart]
  | spawn g forks channel message value bpm standing =>
    obtain ⟨asked, unspawned⟩ := h.popens g channel message value bpm standing
    have cmd : tapCmd s.gateway.world channel message value bpm =
        tapCmd (launch serialDev tapProcCmd) channel message value bpm := by
      simp only [tapCmd, launch, h.serial, h.program]
    have either {g' p : Nat} (mem : .spawned g' p ∈ tr ++ [.spawned g s.procs.length]) :
        .spawned g' p ∈ tr ∨ g' = g ∧ p = s.procs.length := by
      simpa using mem
    refine ⟨h.serial, h.program, fun p inside => ?_, fun g' channel message value bpm there => ?_,
      fun g' p mem => ?_, fun g' p p' mem mem' => ?_, fun g' g'' p mem mem' => ?_⟩
    · simp only [List.length_append, List.length_singleton] at inside
      by_cases last : p = s.procs.length
      · subst last
        refine ⟨g, channel, message, value, bpm, by simp, List.mem_append_left _ asked, ?_⟩
        rw [Gateway.Handlers.set_world, synced.known, List.getElem?_concat_length, cmd]
      · obtain ⟨g', c, m, v, t, origin, asked', given⟩ := h.request p (by omega)
        refine ⟨g', c, m, v, t, List.mem_append_left _ origin, List.mem_append_left _ asked', ?_⟩
        have old : p < s.gateway.world.spawned.length := by
          have := synced.known
          omega
        rw [Gateway.Handlers.set_world, List.getElem?_append_left old]
        exact given
    · obtain ⟨-, entry⟩ | ⟨apart, was⟩ := Gateway.Handlers.set_pcs there
      · cases entry
      · obtain ⟨asked', unspawned'⟩ := h.popens g' channel message value bpm was
        refine ⟨List.mem_append_left _ asked', fun p mem => ?_⟩
        rcases either mem with old | ⟨same, -⟩
        · exact unspawned' p old
        · exact apart same
    · simp only [List.length_append, List.length_singleton]
      rcases either mem with old | ⟨rfl, rfl⟩
      · obtain ⟨present, inside⟩ := h.known g' p old
        refine ⟨?_, by omega⟩
        by_cases self : g' = g
        · rw [self, Gateway.Handlers.set_same]
          simp
        · rwa [Gateway.Handlers.set_other _ _ _ self]
      · exact ⟨by rw [Gateway.Handlers.set_same]; simp, by omega⟩
    · rcases either mem with old | ⟨rfl, rfl⟩ <;> rcases either mem' with old' | ⟨self, last⟩
      · exact h.once g' p p' old old'
      · rw [self] at old
        exact absurd old (unspawned p)
      · exact absurd old' (unspawned p')
      · exact last.symm
    · rcases either mem with old | ⟨rfl, rfl⟩ <;> rcases either mem' with old' | ⟨self, last⟩
      · exact h.single g' g'' p old old'
      · have := (h.known g' p old).2
        omega
      · have := (h.known g'' s.procs.length old').2
        omega
      · exact self.symm

theorem reachable_origins {b : Build} {serialDev tapProcCmd : CStr} {acts : List Act}
    {s : State} {tr : List Event}
    (h : run (step b) (init serialDev tapProcCmd) acts = some (s, tr)) :
    Origins serialDev tapProcCmd s tr :=
  run_invariant_reached (Origins serialDev tapProcCmd)
    ⟨rfl, rfl, fun p inside => (by simp [init] at inside),
      fun g _ _ _ _ standing => (by simp [init, Gateway.Handlers.init] at standing), by simp, by simp,
      by simp⟩ h
    fun _ _ _ _ _ _ hu inv hs => origins_step (reachable_synced hu) inv hs

/-- The arguments are those of a start request that has arrived: its strings,
and the gateway's serial device. -/
def Started (b : Build) (serialDev tapProcCmd : CStr) (tr : List Event) (g : Nat)
    (args : Cmdline.ArgsInfo) : Prop :=
  ∃ channel message value bpm numbers,
    .arrived g (.start channel message value bpm) ∈ tr ∧
    startNumbers b.longBits tapProcCmd channel message value bpm = .ok numbers ∧
    args = startArgs serialDev channel message value bpm numbers

theorem tapper_started {b : Build} {serialDev tapProcCmd : CStr} {acts : List Act} {s : State}
    {tr : List Event} (h : run (step b) (init serialDev tapProcCmd) acts = some (s, tr)) {p : Nat}
    {q : Process} {args : Cmdline.ArgsInfo} {u : Tapper.State} (there : s.procs[p]? = some q)
    (taps : q.program = .tapping args u) :
    ∃ g, .spawned g p ∈ tr ∧ Started b serialDev tapProcCmd tr g args ∧
      ∃ tacts, run (Tapper.step b args) Tapper.start tacts = some (u, tapperEvents p tr) := by
  have inside := (List.getElem?_eq_some_iff.mp there).1
  obtain ⟨g, channel, message, value, bpm, origin, asked, given⟩ :=
    (reachable_origins h).request p inside
  have came := (reachable_histories h).came p q _ there given
  rw [taps] at came
  cases came with
  | tapping accepted ran =>
    refine ⟨g, origin, ⟨channel, message, value, bpm, ?_⟩, _, ran⟩
    rw [Gateway.tapCmd_options, List.headD_cons, List.tail_cons] at accepted
    simp only [launch] at accepted
    rw [Cmdline.cmdlineParser_start] at accepted
    split at accepted
    · cases accepted
    · rename_i numbers read
      exact ⟨numbers, asked, read, (Cmdline.Parsed.ok.inj accepted).symm⟩

/-- **Where a tapper comes from.** In any run of the system each tapper serves
one start request that arrived, on exactly that request's strings and the
gateway's serial device, and all that it has shown is one run of the tapper. No
request has two tappers, and none serves two requests. -/
theorem tapper_of_request (b : Build) (serialDev tapProcCmd : CStr) {acts : List Act} {s : State}
    {tr : List Event} (h : run (step b) (init serialDev tapProcCmd) acts = some (s, tr)) :
    (∀ (p : Nat) (q : Process) (args : Cmdline.ArgsInfo) (u : Tapper.State),
      s.procs[p]? = some q → q.program = .tapping args u →
      ∃ g, .spawned g p ∈ tr ∧ Started b serialDev tapProcCmd tr g args ∧
        ∃ tacts, run (Tapper.step b args) Tapper.start tacts = some (u, tapperEvents p tr)) ∧
    (∀ g p p', .spawned g p ∈ tr → .spawned g p' ∈ tr → p = p') ∧
    ∀ g g' p, .spawned g p ∈ tr → .spawned g' p ∈ tr → g = g' := by
  have origins := reachable_origins h
  exact ⟨fun p q args u there taps => tapper_started h there taps, origins.once, origins.single⟩

theorem tapper_of_request_first :
    ∃ s tr q args u, run (step (Build.plain false))
        (init "/dev/serial0".toList "/usr/local/bin/midi-tapper".toList) firstTapper =
          some (s, tr) ∧
      s.procs[0]? = some q ∧ q.program = .tapping args u ∧
      ∃ g, .spawned g 0 ∈ tr ∧ Started (Build.plain false) "/dev/serial0".toList
        "/usr/local/bin/midi-tapper".toList tr g args := by
  obtain ⟨s, tr, q, args, u, ran, there, taps⟩ : ∃ s tr q args u,
      run (step (Build.plain false))
        (init "/dev/serial0".toList "/usr/local/bin/midi-tapper".toList) firstTapper =
          some (s, tr) ∧ s.procs[0]? = some q ∧ q.program = .tapping args u :=
    ⟨_, _, _, _, _, rfl, rfl, rfl⟩
  obtain ⟨g, origin, started, -⟩ := (tapper_of_request _ _ _ ran).1 0 q args u there taps
  exact ⟨s, tr, q, args, u, ran, there, taps, g, origin, started⟩

end MidiGw.System
