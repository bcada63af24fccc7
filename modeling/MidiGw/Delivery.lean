import MidiGw.Lineage

/-!
# Signals on their way

A stop handler sends its signals to a process, and each of them is delivered at
some later point. No signal is lost, and what a tapper still does behind one.
-/

namespace MidiGw.System

open C (CStr)
open Gateway.Handlers (Shown)
open Runs (run run_append run_single run_invariant_reached)
open Spawned (Process)
open Tapper (Build Signal)

/-! ## One process in a step of the system -/

/-- A process takes the step, or at most gets a signal sent. -/
theorem process_step {b : Build} {s t : State} {a : Act} {out : List Event} {p : Nat}
    {q : Process} (synced : Synced s) (there : s.procs[p]? = some q)
    (hs : step b s a = some (t, out)) :
    ∃ r, t.procs[p]? = some r ∧
      ((∃ own shown, Spawned.Move b q own r shown ∧ out = shown.map (.process p)) ∨
        (∀ e, .process p e ∉ out) ∧ (r = q ∨ ∃ sig, r = q.send sig)) := by
  have inside := (List.getElem?_eq_some_iff.mp there).1
  cases step_move synced hs with
  | arrive | handler | cc => exact ⟨q, there, .inr ⟨by simp, .inl rfl⟩⟩
  | spawn g forks channel message value bpm standing =>
    exact ⟨q, (List.getElem?_append_left inside).trans there, .inr ⟨by simp, .inl rfl⟩⟩
  | signal g forks pc pc' sig o standing past =>
    by_cases self : o = p
    · subst self
      exact ⟨q.send sig, by rw [List.getElem?_modify_eq, there]; rfl, .inr ⟨by simp, .inr ⟨sig, rfl⟩⟩⟩
    · exact ⟨q, (List.getElem?_modify_ne _ _ self).trans there, .inr ⟨by simp, .inl rfl⟩⟩
  | process o own q' r shown there' move =>
    by_cases self : o = p
    · subst self
      rw [there, Option.some.injEq] at there'
      subst there'
      exact ⟨r, List.getElem?_set_self inside, .inl ⟨own, shown, move, rfl⟩⟩
    · exact ⟨q, (List.getElem?_set_ne self).trans there, .inr ⟨by simp [self], .inl rfl⟩⟩

theorem processTrace_nil {p : Nat} {out : List Event} (silent : ∀ e, .process p e ∉ out) :
    processTrace p out = [] := by
  rw [processTrace, List.filterMap_eq_nil_iff]
  intro e mem
  cases e with
  | process q e =>
    by_cases self : q = p
    · subst self
      exact absurd mem (silent e)
    · simp [Event.of, self]
  | arrived | spawned | shown | cc => rfl

/-! ## Behind a delivered signal -/

/-- The signal has had its effect on the process. -/
def Struck (q : Process) : Signal → Prop
  | .sigterm => q.over = true
  | .sigint => q.program.interrupted
  | .sigrtmin => True

theorem Struck.send {q : Process} {sig : Signal} (h : Struck q sig) (sig' : Signal) :
    Struck (q.send sig') sig := by
  cases sig with
  | sigterm => exact (Spawned.send_over q sig').trans h
  | sigint => simpa only [Struck, Spawned.send_program] using h
  | sigrtmin => trivial

theorem Struck.move {b : Build} {q r : Process} {sig : Signal} {a : Spawned.Act}
    {out : List Spawned.Event} (h : Struck q sig) (move : Spawned.Move b q a r out) :
    Struck r sig := by
  cases sig with
  | sigterm =>
    have alive := Spawned.move_alive move
    rw [h] at alive
    cases alive
  | sigint => exact (Spawned.interrupted_move h move).1
  | sigrtmin => trivial

theorem struck_step {b : Build} {s t : State} {a : Act} {out : List Event} {p : Nat}
    {q : Process} {sig : Signal} (synced : Synced s) (there : s.procs[p]? = some q)
    (h : Struck q sig) (hs : step b s a = some (t, out)) :
    ∃ r, t.procs[p]? = some r ∧ Struck r sig := by
  obtain ⟨r, here, ⟨own, shown, move, -⟩ | ⟨-, rfl | ⟨sig', rfl⟩⟩⟩ := process_step synced there hs
  · exact ⟨r, here, h.move move⟩
  · exact ⟨r, here, h⟩
  · exact ⟨_, here, h.send sig'⟩

theorem delivered_struck {b : Build} {serialDev tapProcCmd : CStr} {acts : List Act} {s : State}
    {tr : List Event} (h : run (step b) (init serialDev tapProcCmd) acts = some (s, tr))
    {p : Nat} {sig : Signal} :
    .process p (.delivered sig) ∈ tr → ∃ q, s.procs[p]? = some q ∧ Struck q sig := by
  refine run_invariant_reached
    (fun s tr => .process p (.delivered sig) ∈ tr → ∃ q, s.procs[p]? = some q ∧ Struck q sig)
    (by simp) h fun pre u seen a v out hu inv hs mem => ?_
  have synced := reachable_synced hu
  cases List.mem_append.mp mem with
  | inl old =>
    obtain ⟨q, there, struck⟩ := inv old
    exact struck_step synced there struck hs
  | inr new =>
    cases step_move synced hs with
    | process o own q r shown there move =>
      simp only [List.mem_map, Event.process.injEq, exists_eq_right_right] at new
      obtain ⟨now, rfl⟩ := new
      have inside := (List.getElem?_eq_some_iff.mp there).1
      refine ⟨r, List.getElem?_set_self inside, ?_⟩
      have own := Spawned.move_delivered move now
      subst own
      obtain ⟨-, term, int⟩ := Spawned.deliver_move move
      cases sig with
      | sigterm => exact term rfl
      | sigint => exact int rfl
      | sigrtmin => trivial
    | arrive | spawn | signal | handler | cc => simp at new

/-- The messages that may follow a signal. -/
def allowance (q : Process) : Signal → Nat
  | .sigterm => 0
  | .sigint => q.program.remaining
  | .sigrtmin => 0

theorem struck_sends {b : Build} {s t : State} {acts : List Act} {tr : List Event} {p : Nat}
    {q : Process} {sig : Signal} (synced : Synced s) (there : s.procs[p]? = some q)
    (h : Struck q sig) (listens : sig ≠ .sigrtmin) (hr : run (step b) s acts = some (t, tr)) :
    Tapper.sent (tapperEvents p tr) ≤ allowance q sig := by
  suffices inv : ∃ r, t.procs[p]? = some r ∧ Struck r sig ∧
      Tapper.sent (tapperEvents p tr) + allowance r sig ≤ allowance q sig by
    obtain ⟨r, -, -, bound⟩ := inv
    omega
  have nothing : Tapper.sent (tapperEvents p []) + allowance q sig ≤ allowance q sig :=
    Nat.le_of_eq (Nat.zero_add _)
  have both := Runs.run_invariant (fun u seen => Synced u ∧ ∃ r, u.procs[p]? = some r ∧
      Struck r sig ∧ Tapper.sent (tapperEvents p seen) + allowance r sig ≤ allowance q sig)
    ⟨synced, q, there, h, nothing⟩
    hr fun u seen a v out hi hs => by
      obtain ⟨synced, r, there, struck, bound⟩ := hi
      refine ⟨synced_step synced hs, ?_⟩
      obtain ⟨r', here, ⟨own, shown, move, rfl⟩ | ⟨silent, same⟩⟩ := process_step synced there hs
      · refine ⟨r', here, struck.move move, ?_⟩
        rw [tapperEvents_append, Tapper.sent_append]
        simp only [tapperEvents, processTrace_own] at bound ⊢
        cases sig with
        | sigterm =>
          have alive := Spawned.move_alive move
          rw [struck] at alive
          cases alive
        | sigint =>
          have less := (Spawned.interrupted_move struck move).2
          simp only [allowance] at bound ⊢
          omega
        | sigrtmin => exact absurd rfl listens
      · rw [tapperEvents_quiet (processTrace_nil silent)]
        rcases same with rfl | ⟨sig', rfl⟩
        · exact ⟨r', here, struck, bound⟩
        · refine ⟨_, here, struck.send sig', ?_⟩
          cases sig <;> simpa [allowance] using bound
  simpa using both.2

/-! ## No signal is lost -/

/-- What a signal sent to a process comes to. -/
def Underway (q : Process) (sig : Signal) (p : Nat) (tr : List Event) : Prop :=
  q.over = true ∨ sig ∈ q.pending ∨ .process p (.delivered sig) ∈ tr

theorem underway_step {b : Build} {s t : State} {a : Act} {tr out : List Event} {p : Nat}
    {q : Process} {sig : Signal} (synced : Synced s) (there : s.procs[p]? = some q)
    (h : Underway q sig p tr) (hs : step b s a = some (t, out)) :
    ∃ r, t.procs[p]? = some r ∧ Underway r sig p (tr ++ out) := by
  obtain ⟨r, here, ⟨own, shown, move, rfl⟩ | ⟨-, same⟩⟩ := process_step synced there hs
  · refine ⟨r, here, ?_⟩
    rcases h with done | queued | delivered
    · rw [Spawned.move_alive move] at done
      cases done
    · rcases Spawned.move_queue move queued with still | now
      · exact .inr (.inl still)
      · exact .inr (.inr (by simp [now]))
    · exact .inr (.inr (List.mem_append_left _ delivered))
  · rcases same with rfl | ⟨sig', rfl⟩
    · exact ⟨_, here, h.imp id (.imp id (List.mem_append_left out))⟩
    · refine ⟨_, here, ?_⟩
      rw [Underway, Spawned.send_over]
      by_cases done : q.over = true
      · exact .inl done
      · rw [Bool.not_eq_true] at done
        rw [Spawned.send_pending done]
        rcases h with gone | queued | delivered
        · exact .inl gone
        · exact .inr (.inl (.inr queued))
        · exact .inr (.inr (List.mem_append_left out delivered))

/-- A handler's signal goes to a process that exists, and is under way then. -/
theorem signalled_step {b : Build} {serialDev tapProcCmd : CStr} {acts : List Act} {s t : State}
    {tr out : List Event} {a : Act} {g p : Nat} {sig : Signal}
    (h : run (step b) (init serialDev tapProcCmd) acts = some (s, tr))
    (hs : step b s a = some (t, out)) (sent : .shown (.signalled g sig p) ∈ out) :
    ∃ q, t.procs[p]? = some q ∧ Underway q sig p [] := by
  have synced := reachable_synced h
  have after := run_append.mpr ⟨s, tr, out, h, run_single.mpr hs, rfl⟩
  obtain ⟨-, gacts, gateway⟩ := (gateway_simulates b).run (synced_init serialDev tapProcCmd) after
  have refers : Gateway.Handlers.Refers t.gateway ((tr ++ out).flatMap Event.gateway) p := by
    refine .inr (.inr ⟨g, sig, ?_⟩)
    exact List.mem_flatMap.mpr ⟨_, List.mem_append_right tr sent, List.mem_singleton.mpr rfl⟩
  have known := (Gateway.Handlers.reachable_pending gateway).known p refers
  rw [← (synced_step synced hs).known] at known
  cases step_move synced hs with
  | signal g' forks pc pc' sig' p' standing past =>
    simp only [List.mem_singleton, Event.shown.injEq, Shown.signalled.injEq] at sent
    obtain ⟨-, rfl, rfl⟩ := sent
    rw [List.length_modify] at known
    obtain ⟨q, there⟩ : ∃ q, s.procs[p]? = some q := ⟨_, List.getElem?_eq_getElem known⟩
    refine ⟨q.send sig, by rw [List.getElem?_modify_eq, there]; rfl, ?_⟩
    rw [Underway, Spawned.send_over]
    by_cases done : q.over = true
    · exact .inl done
    · rw [Bool.not_eq_true] at done
      rw [Spawned.send_pending done]
      exact .inr (.inl (.inl rfl))
  | handler g' forks pc pc' tap shown standing quiet past =>
    simp only [List.mem_map, Event.shown.injEq, exists_eq_right] at sent
    exact absurd sent (quiet g sig p)
  | arrive | spawn | process | cc => simp at sent

theorem underway_run {b : Build} {s t : State} {acts : List Act} {tr : List Event} {p : Nat}
    {q : Process} {sig : Signal} (synced : Synced s) (there : s.procs[p]? = some q)
    (h : Underway q sig p []) (hr : run (step b) s acts = some (t, tr)) :
    ∃ r, t.procs[p]? = some r ∧ Underway r sig p tr := by
  have both := Runs.run_invariant
    (fun u seen => Synced u ∧ ∃ r, u.procs[p]? = some r ∧ Underway r sig p seen)
    ⟨synced, q, there, h⟩ hr fun u seen a v out hi hs => by
      obtain ⟨synced, r, there, underway⟩ := hi
      exact ⟨synced_step synced hs, underway_step synced there underway hs⟩
  simpa using both.2

/-- **Signals reach their tapper.** A signal that a handler sends is under way
from then on until it is delivered or the process is over. Behind a delivered
SIGTERM a tapper sends nothing more, and behind a delivered SIGINT at most what
is left of its current iteration, which is one message or none. -/
theorem signals_arrive (b : Build) (serialDev tapProcCmd : CStr) {acts : List Act} {s : State}
    {tr : List Event} (h : run (step b) (init serialDev tapProcCmd) acts = some (s, tr)) :
    (∀ g sig p a t out, step b s a = some (t, out) → .shown (.signalled g sig p) ∈ out →
      ∀ later u tr', run (step b) t later = some (u, tr') →
        ∃ q, u.procs[p]? = some q ∧
          (q.over = true ∨ sig ∈ q.pending ∨ .process p (.delivered sig) ∈ tr')) ∧
    ∀ p later u tr', run (step b) s later = some (u, tr') →
      (.process p (.delivered .sigterm) ∈ tr → Tapper.sent (tapperEvents p tr') = 0) ∧
      (.process p (.delivered .sigint) ∈ tr → ∃ q, s.procs[p]? = some q ∧
        Tapper.sent (tapperEvents p tr') ≤ q.program.remaining ∧ q.program.remaining ≤ 1) := by
  have synced := reachable_synced h
  constructor
  · intro g sig p a t out hs sent later u tr' hr
    obtain ⟨q, there, underway⟩ := signalled_step h hs sent
    exact underway_run (synced_step synced hs) there underway hr
  · intro p later u tr' hr
    constructor
    · intro delivered
      obtain ⟨q, there, struck⟩ := delivered_struck h delivered
      have bound := struck_sends synced there struck (by decide) hr
      exact Nat.le_zero.mp bound
    · intro delivered
      obtain ⟨q, there, struck⟩ := delivered_struck h delivered
      exact ⟨q, there, struck_sends synced there struck (by decide) hr, q.program.remaining_le⟩

/-- A stop handler sends SIGINT, and it is delivered. -/
def interruptedTapper : List Act :=
  firstTapper ++
    [.arrive 1 .stop, .run 1 true, .run 1 true, .run 1 true, .process 0 (.deliver .sigint)]

theorem signals_arrive_interrupted :
    ∃ s tr, run (step (Build.plain false))
        (init "/dev/serial0".toList "/usr/local/bin/midi-tapper".toList) interruptedTapper =
          some (s, tr) ∧
      ∀ later u tr', run (step (Build.plain false)) s later = some (u, tr') →
        Tapper.sent (tapperEvents 0 tr') = 0 := by
  obtain ⟨s, tr, q, ran, delivered, there, quiet⟩ : ∃ s tr q, run (step (Build.plain false))
      (init "/dev/serial0".toList "/usr/local/bin/midi-tapper".toList) interruptedTapper =
        some (s, tr) ∧ .process 0 (.delivered .sigint) ∈ tr ∧ s.procs[0]? = some q ∧
      q.program.remaining = 0 := ⟨_, _, _, rfl, by decide, rfl, rfl⟩
  refine ⟨s, tr, ran, fun later u tr' hr => ?_⟩
  obtain ⟨q', there', bound, -⟩ := ((signals_arrive _ _ _ ran).2 0 later u tr' hr).2 delivered
  cases there.symm.trans there'
  omega

end MidiGw.System
