import MidiGw.TapLoop

/-!
# Stopping the tapper

What SIGINT does to a tapper, and what happens on every way out of its loop:
`running` stays clear, at most the message of the current iteration is still
sent, and `close_serial` runs once, with no write behind it.
-/

namespace MidiGw.Tapper

open Cmdline (ArgsInfo)
open Runs (run run_append run_invariant run_cons)

/-- In an iteration of the loop that has not written yet. -/
def Pc.inIteration : Pc → Bool
  | .usleep | .testTrigger | .clearTrigger | .now0 | .write => true
  | _ => false

/-! ## After SIGINT -/

/-- `running` is clear, and no more messages follow than the budget, the one
of the current iteration included. -/
structure Stopped (budget : Nat) (s : State) (tr : List Event) : Prop where
  off : s.running = false
  bound : sent tr + s.pc.inIteration.toNat ≤ budget

/-- With `running` clear `main` starts no iteration. -/
theorem iteration_step {b : Build} {args : ArgsInfo} {s t : State} {a : Act} {out : List Event}
    (off : s.running = false) (hs : step b args s a = some (t, out)) :
    t.pc.inIteration.toNat ≤ s.pc.inIteration.toNat := by
  cases step_move hs with
  | call c r pc =>
    have outside := callStep_pc (fun pc => pc.inIteration = false)
      (by intro c; cases c <;> rfl) rfl b args s r c
    rw [outside]
    exact Nat.zero_le _
  | stay r pc on => rw [off] at on; cases on
  | slept r pc | fired r pc | clear r pc | now0 r pc | write r pc =>
    rw [pc]
    exact Bool.toNat_le _
  | encode | leave | quiet | now1 | uncounted | counted | «break» | close => exact Nat.zero_le _
  | enter | kill | tick | interrupt => exact Nat.le_refl _

theorem stopped_step {b : Build} {args : ArgsInfo} {budget : Nat} {s t : State}
    {tr out : List Event} {a : Act} (h : Stopped budget s tr)
    (hs : step b args s a = some (t, out)) : Stopped budget t (tr ++ out) := by
  obtain ⟨off, bound⟩ := h
  have back := iteration_step off hs
  constructor
  · cases step_move hs with
    | call c r pc => exact (callStep_setup b args s r c).running.trans off
    | interrupt => rfl
    | _ => exact off
  · rw [sent_append]
    rcases step_sends hs with ⟨r, pc, rfl, rfl⟩ | unsent
    · have wrote : sent [.wrote s.midiMsg r] = 1 := rfl
      have behind : (if b.debug then Pc.now1 else .checkRepeats).inIteration = false := by
        split <;> rfl
      simp only [pc, Pc.inIteration, Bool.toNat_true] at bound
      simp only [wrote, behind, Bool.toNat_false]
      omega
    · rw [unsent]
      omega

theorem stopped_run {b : Build} {args : ArgsInfo} {s t : State} {acts : List Act}
    {tr : List Event} (off : s.running = false)
    (h : run (step b args) s acts = some (t, tr)) :
    t.running = false ∧ sent tr ≤ s.pc.inIteration.toNat := by
  have h0 : Stopped s.pc.inIteration.toNat s [] := ⟨off, by simp [sent]⟩
  have last := run_invariant (Stopped s.pc.inIteration.toNat) h0 h
    fun _ _ _ _ _ hi hs => stopped_step hi hs
  rw [List.nil_append] at last
  exact ⟨last.off, by have := last.bound; omega⟩

/-! ## The ways out -/

/-- How often the port has been closed, by where `main` stands. -/
structure CloseInv (s : State) (tr : List Event) : Prop where
  before : s.pc ≠ .exited exitSuccess → closes tr = 0
  after : s.pc = .exited exitSuccess → closes tr = 1

theorem closeInv_step {b : Build} {args : ArgsInfo} {s t : State} {tr out : List Event} {a : Act}
    (h : CloseInv s tr) (hs : step b args s a = some (t, out)) : CloseInv t (tr ++ out) := by
  have going := step_going hs
  have notClosed : s.pc ≠ .exited exitSuccess := by
    intro done
    rw [done] at going
    cases going
  have zero := h.before notClosed
  have stays (unclosed : closes out = 0) (going : t.pc ≠ .exited exitSuccess) :
      CloseInv t (tr ++ out) :=
    ⟨fun _ => by rw [closes_append, zero, unclosed], fun done => absurd done going⟩
  cases step_move hs with
  | call c r pc =>
    have setup := callStep_setup b args s r c
    have going := callStep_pc (fun pc => pc ≠ .exited exitSuccess)
      (by intro c; cases c <;> decide) (by decide) b args s r c
    exact stays setup.silent.closes going
  | encode r pc => exact stays (encodeEvents_silent b args).closes (fun e => by cases e)
  | now1 r pc => exact stays (tookEvents_silent b s.t0 r.out).closes (fun e => by cases e)
  | clear r pc | write r pc =>
    exact stays rfl (by intro e; dsimp only at e; split at e <;> cases e)
  | close r pc =>
    refine ⟨fun other => absurd rfl other, fun _ => ?_⟩
    rw [closes_append, zero, (closeEvents_counts b s.serialFd r).2.2.2.2]
  | stay | leave | slept | fired | quiet | now0 | uncounted | counted | «break» =>
    exact stays rfl (fun e => by cases e)
  | enter | kill | tick | interrupt => exact stays rfl notClosed

theorem reachable_closeInv {b : Build} {args : ArgsInfo} {acts : List Act} {s : State}
    {tr : List Event} (h : run (step b args) start acts = some (s, tr)) : CloseInv s tr := by
  have h0 : CloseInv start [] := ⟨fun _ => rfl, fun done => by cases done⟩
  simpa using run_invariant CloseInv h0 h fun _ _ _ _ _ hi hs => closeInv_step hi hs

/-- The only way out of the loop is towards `close_serial`. -/
theorem loop_exit {b : Build} {args : ArgsInfo} {s t : State} {a : Act} {out : List Event}
    (inside : s.pc.inLoop = true) (hs : step b args s a = some (t, out)) :
    t.pc.inLoop = true ∨ t.pc = .closeSerial := by
  cases step_move hs with
  | call c r pc | encode r pc | close r pc => rw [pc] at inside; cases inside
  | leave | «break» => exact .inr rfl
  | clear r pc | write r pc => left; dsimp only; split <;> rfl
  | stay | slept | fired | quiet | now0 | now1 | uncounted | counted => exact .inl rfl
  | enter | kill | tick | interrupt => exact .inl inside

/-- From `close_serial` on: nothing is written, and an exit is behind the close. -/
structure Closing (s : State) (tr : List Event) : Prop where
  pc : s.pc = .closeSerial ∧ closes tr = 0 ∨ s.pc = .exited exitSuccess ∧ closes tr = 1
  silent : sent tr = 0

theorem closing_step {b : Build} {args : ArgsInfo} {s t : State} {tr out : List Event} {a : Act}
    (h : Closing s tr) (hs : step b args s a = some (t, out)) : Closing t (tr ++ out) := by
  have going := step_going hs
  obtain ⟨pc, zero⟩ : s.pc = .closeSerial ∧ closes tr = 0 := by
    apply h.pc.resolve_right
    rintro ⟨done, -⟩
    rw [done] at going
    cases going
  have silent := h.silent
  cases step_move hs with
  | close r _ =>
    obtain ⟨-, -, -, unsent, one⟩ := closeEvents_counts b s.serialFd r
    exact ⟨.inr ⟨rfl, by rw [closes_append, zero, one]⟩, by rw [sent_append, silent, unsent]⟩
  | enter | kill | tick | interrupt =>
    exact ⟨.inl ⟨pc, by rw [closes_append, zero]; rfl⟩, by rw [sent_append, silent]; rfl⟩
  | call c r standing | encode r standing | stay r standing | leave r standing
  | slept r standing | fired r standing | quiet r standing | clear r standing
  | now0 r standing | write r standing | now1 r standing | uncounted r standing
  | counted r standing | «break» r standing => rw [pc] at standing; cases standing

theorem closing_run {b : Build} {args : ArgsInfo} {s t : State} {acts : List Act}
    {tr : List Event} (out : s.pc = .closeSerial)
    (h : run (step b args) s acts = some (t, tr)) : Closing t tr := by
  simpa using run_invariant Closing (⟨.inl ⟨out, rfl⟩, rfl⟩ : Closing s []) h
    fun _ _ _ _ _ hi hs => closing_step hi hs

/-- Nothing follows the end of the process. -/
theorem exited_run {b : Build} {args : ArgsInfo} {s t : State} {acts : List Act}
    {tr : List Event} (done : s.pc.exits = true)
    (h : run (step b args) s acts = some (t, tr)) : tr = [] := by
  cases acts with
  | nil => cases h; rfl
  | cons a acts =>
    obtain ⟨u, out, rest, hu, -, -⟩ := run_cons.mp h
    rw [step_going hu] at done
    cases done

/-- SIGTERM has no handler: it ends the tapper wherever that stands. -/
theorem sigterm_ends {b : Build} {args : ArgsInfo} {s : State} (alive : s.over = false) :
    ∃ t, step b args s (.signal .sigterm) = some (t, []) ∧ t.over = true :=
  ⟨{ s with killedBy := some .sigterm }, by simp [step, alive, State.handlerFor],
    by simp [State.over]⟩

/-- **Prompt, clean stop.** After a run of `handler_int` the flag stays clear
and at most one message follows, none if it ran in front of the loop or behind
the write of its iteration. The loop is left only towards `close_serial`,
which is then executed exactly once, with no write from there on. -/
theorem prompt_stop (b : Build) (args : ArgsInfo) {acts : List Act} {s : State}
    {tr : List Event} (h : run (step b args) start acts = some (s, tr)) :
    (∀ t, step b args s .handler = some (t, [.interrupt]) →
      ∀ later u tr', run (step b args) t later = some (u, tr') →
        u.running = false ∧ sent tr' ≤ 1 ∧ (s.pc.inIteration = false → sent tr' = 0)) ∧
    (∀ a t out, s.pc.inLoop = true → step b args s a = some (t, out) →
      t.pc.inLoop = true ∨ t.pc = .closeSerial) ∧
    (s.pc = .closeSerial → closes tr = 0 ∧
      ∀ later u tr', run (step b args) s later = some (u, tr') →
        sent tr' = 0 ∧ (u.pc = .closeSerial ∨ u.pc = .exited exitSuccess ∧ closes tr' = 1)) ∧
    (s.pc = .closeSerial → s.frames = [] → s.killedBy = none → ∀ r, ∃ t out,
      step b args s (.main r) = some (t, out) ∧ t.pc = .exited exitSuccess) ∧
    (0 < closes tr → closes tr = 1 ∧
      ∀ later u tr', run (step b args) s later = some (u, tr') → sent tr' = 0) := by
  have inv := reachable_closeInv h
  refine ⟨?_, fun a t out inside hs => loop_exit inside hs, ?_, ?_, ?_⟩
  · intro t hs later u tr' hr
    generalize hout : [Event.interrupt] = out at hs
    cases step_move hs with
    | tick rest top => cases hout
    | interrupt rest top =>
      obtain ⟨off, bound⟩ := stopped_run rfl hr
      have one := s.pc.inIteration.toNat_le
      exact ⟨off, Nat.le_trans bound one, fun outside => by simpa [outside] using bound⟩
  · intro leaving
    refine ⟨inv.before (by rw [leaving]; exact fun e => by cases e), fun later u tr' hr => ?_⟩
    have closing := closing_run leaving hr
    exact ⟨closing.silent, closing.pc.imp And.left id⟩
  · intro leaving frames killed r
    exact ⟨_, _, by
      simp only [step, State.over, leaving, Pc.exits, killed, Option.isSome_none, Bool.or_self,
        frames, and_self, ↓reduceIte, mainStep]; rfl, rfl⟩
  · intro closed
    have done : s.pc = .exited exitSuccess := by
      by_contra going
      have := inv.before going
      omega
    refine ⟨inv.after done, fun later u tr' hr => ?_⟩
    rw [exited_run (by rw [done]; rfl) hr]
    rfl

/-- SIGINT in front of the first loop test: no message is sent at all. -/
theorem prompt_stop_boot :
    ∃ s t tr, run (step (Build.plain false) Cmdline.cmdlineParserInit) start
        (boot ++ [.signal .sigint]) = some (s, tr) ∧
      step (Build.plain false) Cmdline.cmdlineParserInit s .handler =
        some (t, [.interrupt]) ∧
      ∀ later u tr', run (step (Build.plain false) Cmdline.cmdlineParserInit) t later =
        some (u, tr') → sent tr' = 0 := by
  have booted := boot_run (Build.plain false) Cmdline.cmdlineParserInit (by decide)
  have entered : run (step (Build.plain false) Cmdline.cmdlineParserInit)
      (loopHead Cmdline.cmdlineParserInit) [.signal .sigint] =
        some ({ loopHead Cmdline.cmdlineParserInit with frames := [.int] }, []) := rfl
  have both := run_append.mpr ⟨_, _, _, booted, entered, rfl⟩
  refine ⟨_, _, _, both, rfl, fun later u tr' hr => ?_⟩
  exact ((prompt_stop _ _ both).1 _ rfl later u tr' hr).2.2 rfl

end MidiGw.Tapper
