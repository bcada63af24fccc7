import MidiGw.Repeats
import MidiGw.Setup
import MidiGw.Stop

/-!
# How a tapper ends

A tapper leaves through `close_serial`, through a check that fails, or through
a signal without a handler. What each of the three ways says about the messages
sent and the port, and what a tapper still does once SIGINT was delivered.
-/

namespace MidiGw.Tapper

open Cmdline (ArgsInfo)
open Runs (Along run run_append run_invariant run_invariant_reached run_invariant_along_reached)

/-! ## Behind a delivered SIGINT -/

/-- `handler_int` was entered, or has run. -/
def State.interrupted (s : State) : Prop := .int ∈ s.frames ∨ s.running = false

/-- `main` only runs while no handler does. -/
theorem main_unframed {b : Build} {args : ArgsInfo} {s t : State} {r : Sys} {out : List Event}
    (hs : step b args s (.main r) = some (t, out)) : s.frames = [] := by
  simp only [step] at hs
  split at hs
  · rename_i free; exact free.2
  · cases hs

/-- A signal runs its handler or kills. -/
theorem signal_step {b : Build} {args : ArgsInfo} {s t : State} {sig : Signal} {out : List Event}
    (hs : step b args s (.signal sig) = some (t, out)) :
    out = [] ∧ ((∃ hd, s.handlerFor sig = some hd ∧ t = { s with frames := hd :: s.frames }) ∨
      t = { s with killedBy := some sig }) := by
  simp only [step] at hs
  split at hs
  · cases hs
  · split at hs
    · rename_i hd installed
      cases hs
      exact ⟨rfl, .inl ⟨hd, installed, rfl⟩⟩
    · cases hs
      exact ⟨rfl, .inr rfl⟩

/-- SIGTERM ends a tapper at once, SIGINT interrupts it. -/
theorem signal_effect {b : Build} {args : ArgsInfo} {s t : State} {sig : Signal}
    {out : List Event} (hs : step b args s (.signal sig) = some (t, out)) :
    (sig = .sigterm → t.over = true) ∧ (sig = .sigint → t.over = true ∨ t.interrupted) := by
  have killed (sig : Signal) : State.over { s with killedBy := some sig } = true := by
    simp [State.over]
  obtain ⟨-, ⟨hd, installed, rfl⟩ | rfl⟩ := signal_step hs
  · cases sig with
    | sigterm => cases installed
    | sigrtmin => exact ⟨fun e => (by cases e), fun e => (by cases e)⟩
    | sigint =>
      refine ⟨fun e => (by cases e), fun _ => .inr (.inl ?_)⟩
      simp only [State.handlerFor] at installed
      split at installed <;> cases installed
      exact List.mem_cons_self
  · exact ⟨fun _ => killed sig, fun _ => .inl (killed sig)⟩

/-- A step of an interrupted tapper: it stays interrupted, and what it sends is
the message of the iteration it was in. -/
theorem interrupted_step {b : Build} {args : ArgsInfo} {s t : State} {a : Act} {out : List Event}
    (h : s.interrupted) (hs : step b args s a = some (t, out)) :
    t.interrupted ∧ sent out + t.pc.inIteration.toNat ≤ s.pc.inIteration.toNat := by
  cases a with
  | main r =>
    have off : s.running = false := by
      apply h.resolve_left
      rw [main_unframed hs]
      exact List.not_mem_nil
    have start : Stopped s.pc.inIteration.toNat s [] := ⟨off, by simp [sent]⟩
    have next := stopped_step start hs
    exact ⟨.inr next.off, next.bound⟩
  | signal sig =>
    have unsent : sent ([] : List Event) = 0 := rfl
    cases step_move hs with
    | enter _ hd => exact ⟨h.imp (List.mem_cons_of_mem hd) id, by simp [unsent]⟩
    | kill _ bare => exact ⟨h, by simp [unsent]⟩
  | handler =>
    cases step_move hs with
    | tick rest top =>
      refine ⟨h.imp (fun mem => ?_) id, by simp [sent, Event.isWrote]⟩
      rw [top] at mem
      simpa using mem
    | interrupt rest top => exact ⟨.inr rfl, by simp [sent, Event.isWrote]⟩

/-- Once SIGINT was delivered, at most the message of the current iteration
follows. -/
theorem interrupted_run {b : Build} {args : ArgsInfo} {s t : State} {acts : List Act}
    {tr : List Event} (h : s.interrupted) (hr : run (step b args) s acts = some (t, tr)) :
    t.interrupted ∧ sent tr + t.pc.inIteration.toNat ≤ s.pc.inIteration.toNat := by
  have h0 : s.interrupted ∧ sent [] + s.pc.inIteration.toNat ≤ s.pc.inIteration.toNat :=
    ⟨h, by simp [sent]⟩
  simpa using run_invariant
    (fun u seen => u.interrupted ∧ sent seen + u.pc.inIteration.toNat ≤ s.pc.inIteration.toNat)
    h0 hr fun u seen a v out hi hs => by
      obtain ⟨still, bound⟩ := interrupted_step hi.1 hs
      have before := hi.2
      rw [sent_append]
      exact ⟨still, by omega⟩

/-! ## Installed handlers -/

theorem callStep_killedBy (b : Build) (args : ArgsInfo) (s : State) (r : Sys) (c : Call) :
    (callStep b args s r c).1.killedBy = s.killedBy := by
  cases c <;> simp only [callStep, orFail, fail] <;> split <;> rfl

/-- A call takes no handler away, and the two `sigaction`s that lead on have
installed theirs. -/
theorem callStep_installed (b : Build) (args : ArgsInfo) (s : State) (r : Sys) (c : Call) :
    (s.timerInstalled = true ∨ c = .sigactionTimer →
      (callStep b args s r c).1.pc.exits = true ∨
        (callStep b args s r c).1.timerInstalled = true) ∧
    (s.intInstalled = true ∨ c = .sigactionInt →
      (callStep b args s r c).1.pc.exits = true ∨ (callStep b args s r c).1.intInstalled = true) := by
  cases c <;> simp only [callStep, orFail, fail]
  case cfsetispeed | cfsetospeed => simp +contextual
  all_goals split <;> simp +contextual [Pc.exits]

/-! ## The ways to end -/

structure EndInv (args : ArgsInfo) (s : State) (tr : List Event) : Prop where
  killed : ∀ sig, s.killedBy = some sig → s.pc.exits = false ∧ s.handlerFor sig = none
  timer : s.pc.exits = false → 8 < s.pc.behind → s.timerInstalled = true
  int : s.pc.exits = false → 9 < s.pc.behind → s.intInstalled = true
  status : ∀ n, s.pc = .exited n → n = exitSuccess ∨
    n = exitFailure ∧ ∃ c : Call, c.inInitSerial = false ∧ .called c false ∈ tr
  left : s.pc = .closeSerial ∨ s.pc = .exited exitSuccess →
    .interrupt ∈ tr ∨ args.repeats.given ≠ 0 ∧ args.repeats.arg.toInt ≤ sent tr

/-- A signal kills only where it has no handler, and a step kills in no other way. -/
theorem killed_step {b : Build} {args : ArgsInfo} {s t : State} {a : Act} {out : List Event}
    (hs : step b args s a = some (t, out)) :
    t.killedBy = none ∨
      ∃ sig, s.handlerFor sig = none ∧ t = { s with killedBy := some sig } := by
  have alive := step_alive hs
  simp only [State.over, Bool.or_eq_false_iff, Option.isSome_eq_false_iff,
    Option.isNone_iff_eq_none] at alive
  cases step_move hs with
  | kill sig bare => exact .inr ⟨sig, bare, rfl⟩
  | call c r pc => exact .inl ((callStep_killedBy b args s r c).trans alive.2)
  | encode | stay | leave | slept | fired | quiet | clear | now0 | write | now1 | uncounted
  | counted | «break» | close | enter | tick | interrupt => exact .inl alive.2

/-- Behind its `sigaction` a handler stays installed. -/
theorem installed_step {b : Build} {args : ArgsInfo} {s t : State} {tr out : List Event} {a : Act}
    (h : EndInv args s tr) (hs : step b args s a = some (t, out)) (on : t.pc.exits = false) :
    (8 < t.pc.behind → t.timerInstalled = true) ∧ (9 < t.pc.behind → t.intInstalled = true) := by
  have going := step_going hs
  have timer := h.timer going
  have int := h.int going
  cases step_move hs with
  | call c r pc =>
    obtain ⟨timerSet, intSet⟩ := callStep_installed b args s r c
    rw [pc] at timer int
    have next : (callStep b args s r c).1.pc.behind = c.place + 1 := by
      cases callStep_next b args s r c with
      | inl led => rw [led, next_behind_succ]
      | inr gone => rw [gone] at on; cases on
    have places : c.place = 8 → c = .sigactionTimer := fun e => place_inj (d := .sigactionTimer) e
    have places' : c.place = 9 → c = .sigactionInt := fun e => place_inj (d := .sigactionInt) e
    simp only [Pc.behind] at timer int
    rw [next, on] at *
    constructor
    · intro late
      apply (timerSet _).resolve_left (by decide)
      by_cases self : c.place = 8
      · exact .inr (places self)
      · exact .inl (timer (by omega))
    · intro late
      apply (intSet _).resolve_left (by decide)
      by_cases self : c.place = 9
      · exact .inr (places' self)
      · exact .inl (int (by omega))
  | encode r pc =>
    simp only [Pc.behind, Call.place]
    omega
  | clear r pc | write r pc | stay r pc | leave r pc | slept r pc | fired r pc | quiet r pc
  | now0 r pc | now1 r pc | uncounted r pc | counted r pc | «break» r pc =>
    rw [pc] at timer int
    exact ⟨fun _ => timer (by decide), fun _ => int (by decide)⟩
  | close r pc => cases on
  | enter | kill | tick | interrupt => exact ⟨timer, int⟩

/-- A call that ends the process has failed. -/
theorem exited_call {b : Build} {args : ArgsInfo} {s : State} {r : Sys} {c : Call} {n : Int}
    (gone : (callStep b args s r c).1.pc = .exited n) :
    n = exitFailure ∧ c.inInitSerial = false ∧ .called c false ∈ (callStep b args s r c).2 := by
  obtain ⟨ok, o⟩ := callStep_outcome b args s r c
  have stuck : ¬(ok = true ∨ c.inInitSerial = true) := by
    intro leads
    have on := next_going c
    rw [← o.next leads, gone] at on
    cases on
  obtain ⟨bad, stops⟩ := not_or.mp stuck
  rw [Bool.not_eq_true] at bad stops
  have status := o.gone bad stops
  rw [gone, Pc.exited.injEq] at status
  exact ⟨status, stops, (o.called c false).mpr ⟨rfl, bad.symm⟩⟩

/-- What leaves the loop, or is behind it, got there by SIGINT or by the count. -/
theorem left_step {b : Build} {args : ArgsInfo} {acts : List Act} {s t : State}
    {tr out : List Event} {a : Act} (h : run (step b args) start acts = some (s, tr))
    (inv : EndInv args s tr) (hs : step b args s a = some (t, out))
    (outOfLoop : t.pc = .closeSerial ∨ t.pc = .exited exitSuccess) :
    .interrupt ∈ tr ++ out ∨
      args.repeats.given ≠ 0 ∧ args.repeats.arg.toInt ≤ sent (tr ++ out) := by
  have more : sent tr ≤ sent (tr ++ out) := by
    rw [sent_append]
    exact Nat.le_add_right _ _
  have carry (was : s.pc = .closeSerial ∨ s.pc = .exited exitSuccess) :
      .interrupt ∈ tr ++ out ∨
        args.repeats.given ≠ 0 ∧ args.repeats.arg.toInt ≤ sent (tr ++ out) := by
    rcases inv.left was with sigint | ⟨given, reached⟩
    · exact .inl (List.mem_append_left out sigint)
    · exact .inr ⟨given, by omega⟩
  by_cases inside : s.pc.inLoop = true
  · have outside : t.pc.inLoop = false := by rcases outOfLoop with e | e <;> rw [e] <;> rfl
    obtain ⟨-, off⟩ | ⟨pc, given, reached⟩ := left_at hs inside outside
    · have sigint := reachable_running h
      rw [off] at sigint
      exact .inl (List.mem_append_left out (sigint.resolve_left (by decide)))
    · have count := (reachable_repeatInv given h).count
      simp only [State.counted, pc, Pc.uncounted] at count
      exact .inr ⟨given, by omega⟩
  · cases step_move hs with
    | call c r pc =>
      rcases outOfLoop with e | e
      · exact absurd e (callStep_pc (fun pc => pc ≠ .closeSerial)
          (by intro c; cases c <;> decide) (by decide) b args s r c)
      · exact absurd (exited_call e).1 (by decide)
    | close r pc => exact carry (.inl pc)
    | enter | kill | tick | interrupt => exact carry outOfLoop
    | encode => rcases outOfLoop with e | e <;> cases e
    | stay r pc | leave r pc | slept r pc | fired r pc | quiet r pc | clear r pc | now0 r pc
    | write r pc | now1 r pc | uncounted r pc | counted r pc | «break» r pc =>
      rw [pc] at inside
      exact absurd rfl inside

/-- `main` only returns behind `close_serial`, and `exit` only follows a failure. -/
theorem status_step {b : Build} {args : ArgsInfo} {s t : State} {tr out : List Event} {a : Act}
    {n : Int} (hs : step b args s a = some (t, out)) (done : t.pc = .exited n) :
    n = exitSuccess ∨
      n = exitFailure ∧ ∃ c : Call, c.inInitSerial = false ∧ .called c false ∈ tr ++ out := by
  have going := step_going hs
  cases step_move hs with
  | call c r pc =>
    obtain ⟨status, stops, failed⟩ := exited_call done
    exact .inr ⟨status, c, stops, List.mem_append_right tr failed⟩
  | close r pc => exact .inl (Pc.exited.inj done).symm
  | clear | write => dsimp only at done; split at done <;> cases done
  | enter | kill | tick | interrupt =>
    dsimp only at done
    rw [done] at going
    cases going
  | encode | stay | leave | slept | fired | quiet | now0 | now1 | uncounted | counted | «break» =>
    cases done

theorem endInv_step {b : Build} {args : ArgsInfo} {acts : List Act} {s t : State}
    {tr out : List Event} {a : Act} (h : run (step b args) start acts = some (s, tr))
    (inv : EndInv args s tr) (hs : step b args s a = some (t, out)) :
    EndInv args t (tr ++ out) := by
  refine ⟨fun sig dead => ?_, fun on => (installed_step inv hs on).1,
    fun on => (installed_step inv hs on).2, fun n done => status_step hs done,
    fun outOfLoop => left_step h inv hs outOfLoop⟩
  have going := step_going hs
  obtain alive | ⟨sig', bare, rfl⟩ := killed_step hs
  · rw [alive] at dead; cases dead
  · cases dead
    exact ⟨going, bare⟩

theorem reachable_endInv {b : Build} {args : ArgsInfo} {acts : List Act} {s : State}
    {tr : List Event} (h : run (step b args) start acts = some (s, tr)) : EndInv args s tr :=
  run_invariant_reached (EndInv args)
    ⟨fun _ e => (by cases e), fun _ late => absurd late (by decide),
      fun _ late => absurd late (by decide), fun _ e => (by cases e),
      fun e => (by rcases e with e | e <;> cases e)⟩
    h fun _ _ _ _ _ _ hu inv hs => endInv_step hu inv hs

/-- The ways to end, with what is then known of the messages and the port. -/
inductive Ending (args : ArgsInfo) (s : State) (tr : List Event) : Prop
  /-- through `close_serial`, behind a SIGINT or enough messages -/
  | closed (status : s.pc = .exited exitSuccess) (alive : s.killedBy = none)
      (once : closes tr = 1)
      (left : .interrupt ∈ tr ∨ args.repeats.given ≠ 0 ∧ args.repeats.arg.toInt ≤ sent tr)
  /-- by `exit`, in front of the loop -/
  | failed (c : Call) (status : s.pc = .exited exitFailure) (alive : s.killedBy = none)
      (called : .called c false ∈ tr) (stops : c.inInitSerial = false) (unsent : sent tr = 0)
      (never : closes tr = 0)
  /-- by a signal: SIGTERM, or one that came before its handler -/
  | killed (sig : Signal) (dead : s.killedBy = some sig) (never : closes tr = 0)
      (early : sig = .sigterm ∨ sent tr = 0)

/-- **How a tapper ends.** Every tapper that is over has closed its port once
and was asked to leave its loop, or has failed in front of the loop without a
message, or was killed with its port open: by SIGTERM, or before it had a
handler and so without a message. -/
theorem ending_of_over (b : Build) (args : ArgsInfo) {acts : List Act} {s : State}
    {tr : List Event} (h : run (step b args) start acts = some (s, tr)) (done : s.over = true) :
    Ending args s tr := by
  have inv := reachable_endInv h
  have close := reachable_closeInv h
  have calls := reachable_callInv h
  cases dead : s.killedBy with
  | none =>
    obtain ⟨n, status⟩ : ∃ n, s.pc = .exited n := by
      simp only [State.over, dead, Option.isSome_none, Bool.or_false] at done
      cases pc : s.pc with
      | exited n => exact ⟨n, rfl⟩
      | _ => rw [pc] at done; cases done
    obtain rfl | ⟨rfl, c, stops, failed⟩ := inv.status n status
    · exact .closed status dead (close.after status) (inv.left (.inr status))
    · have notClosed : s.pc ≠ .exited exitSuccess := by rw [status]; decide
      exact .failed c status dead failed stops (calls.failed c failed stops).2 (close.before notClosed)
  | some sig =>
    obtain ⟨going, bare⟩ := inv.killed sig dead
    have notClosed : s.pc ≠ .exited exitSuccess := by
      intro status
      rw [status] at going
      cases going
    have setup (front : s.pc.behind ≤ 9) : sent tr = 0 := by
      apply calls.unsent
      revert front
      cases s.pc <;> simp [Pc.behind, Pc.setup]
    refine .killed sig dead (close.before notClosed) ?_
    cases sig with
    | sigterm => exact .inl rfl
    | sigrtmin =>
      right
      apply setup
      by_contra late
      have installed := inv.timer going (by omega)
      simp [State.handlerFor, installed] at bare
    | sigint =>
      right
      apply setup
      by_contra late
      have installed := inv.int going (by omega)
      simp [State.handlerFor, installed] at bare

/-- SIGTERM behind the first message: the port is left open. -/
theorem ending_of_over_sigterm :
    ∃ s tr, run (step (Build.plain false) Cmdline.cmdlineParserInit) start
        (boot ++ [.signal .sigterm]) = some (s, tr) ∧ s.over = true ∧
      Ending Cmdline.cmdlineParserInit s tr := by
  have booted := boot_run (Build.plain false) Cmdline.cmdlineParserInit (by decide)
  have killed : run (step (Build.plain false) Cmdline.cmdlineParserInit)
      (loopHead Cmdline.cmdlineParserInit) [.signal .sigterm] =
        some ({ loopHead Cmdline.cmdlineParserInit with killedBy := some .sigterm }, []) := rfl
  have both := run_append.mpr ⟨_, _, _, booted, killed, rfl⟩
  exact ⟨_, _, both, rfl, ending_of_over _ _ both rfl⟩

/-! ## The timer's signal -/

/-- A timer that was started has its handler. -/
theorem settime_installed {b : Build} {args : ArgsInfo} {acts : List Act} {s : State}
    {tr : List Event} (h : run (step b args) start acts = some (s, tr)) :
    .called .timerSettime true ∈ tr → s.pc.exits = true ∨ s.timerInstalled = true := by
  refine run_invariant_reached
    (fun s tr => .called .timerSettime true ∈ tr → s.pc.exits = true ∨ s.timerInstalled = true)
    (by simp) h fun pre u seen a v out hu inv hs settime => ?_
  have going := step_going hs
  have installed : u.timerInstalled = true := by
    cases List.mem_append.mp settime with
    | inl old =>
      apply (inv old).resolve_left
      rw [going]
      decide
    | inr new =>
      have pc := (called_step hs new).1
      apply (reachable_endInv hu).timer going
      rw [pc]
      decide
  cases step_move hs with
  | call c r pc => exact (callStep_installed b args u r c).1 (.inl installed)
  | encode | stay | leave | slept | fired | quiet | clear | now0 | write | now1 | uncounted
  | counted | «break» | close | enter | kill | tick | interrupt => exact .inr installed

/-- **The timer never kills.** `handler_timer` is installed before the timer is
started: if SIGRTMIN only comes from the started timer, no expiration ends the
process. -/
theorem timer_never_kills (b : Build) (args : ArgsInfo) {acts : List Act} {s : State}
    {tr : List Event} (h : run (step b args) start acts = some (s, tr))
    (timer : Along (step b args)
      (fun _ seen a => a = .signal .sigrtmin → .called .timerSettime true ∈ seen) start [] acts) :
    s.killedBy ≠ some .sigrtmin := by
  refine run_invariant_along_reached (fun s _ => s.killedBy ≠ some .sigrtmin) (by decide) timer h
    fun pre u seen a v out hu inv started hs dead => ?_
  have going := step_going hs
  have alive := step_alive hs
  simp only [State.over, Bool.or_eq_false_iff, Option.isSome_eq_false_iff,
    Option.isNone_iff_eq_none] at alive
  cases step_move hs with
  | kill sig bare =>
    cases dead
    have installed := (settime_installed hu (started rfl)).resolve_left (by rw [going]; decide)
    simp [State.handlerFor, installed] at bare
  | call c r pc => exact inv ((callStep_killedBy b args u r c).symm.trans dead)
  | encode | stay | leave | slept | fired | quiet | clear | now0 | write | now1 | uncounted
  | counted | «break» | close | enter | tick | interrupt => exact inv dead

/-- One expiration of the started timer. -/
theorem timer_never_kills_tap :
    ∃ s tr, run (step (Build.plain false) Cmdline.cmdlineParserInit) start
        (boot ++ [.signal .sigrtmin]) = some (s, tr) ∧ s.killedBy ≠ some .sigrtmin := by
  have booted := boot_run (Build.plain false) Cmdline.cmdlineParserInit (by decide)
  have entered : run (step (Build.plain false) Cmdline.cmdlineParserInit)
      (loopHead Cmdline.cmdlineParserInit) [.signal .sigrtmin] =
        some ({ loopHead Cmdline.cmdlineParserInit with frames := [.timer] }, []) := rfl
  have both := run_append.mpr ⟨_, _, _, booted, entered, rfl⟩
  refine ⟨_, _, both, timer_never_kills _ _ both ?_⟩
  apply Along.concat (Runs.along_of_forall _ _ _) booted
  · exact ⟨fun _ => by simp [bootTrace], fun _ _ _ => trivial⟩
  · intro a mem _ _ signal
    rw [List.eq_of_mem_replicate mem] at signal
    cases signal

end MidiGw.Tapper
