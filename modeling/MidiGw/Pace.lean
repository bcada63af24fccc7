import MidiGw.Ends

/-!
# Ticks that the loop keeps up with

A tick is lost when it finds `trigger` still set. How far apart ticks have to be,
in steps of `main`, for none to be lost from the first instant on at which the
handler is installed.
-/

namespace MidiGw.Tapper

open Cmdline (ArgsInfo)
open Runs (Along run run_invariant_along stopwatch stopwatch_run stopwatch_step)

/-- Steps of `main` up to the end of the next `trigger = 0`, if `trigger` is set;
for the calls behind the timer's `sigaction`. -/
def Pc.toClear : Pc → Nat
  | .call c => 18 - c.place
  | .encode => 18
  | .now0 => 8
  | .write => 7
  | .now1 => 6
  | .checkRepeats => 5
  | .testRunning => 4
  | .usleep => 3
  | .testTrigger => 2
  | .clearTrigger | .closeSerial => 1
  | .exited _ => 0

/-- The tapper with a count of the steps that `main` has taken since a tick. -/
def paced (b : Build) (args : ArgsInfo) : Runs.Step (State × Nat) Act Event :=
  stopwatch (step b args) Act.isMain Event.isTick

/-- A tick comes when `main` has taken nine steps since the tick before. -/
def Spaced (x : State × Nat) (_ : List Event) : Act → Prop
  | .handler => x.1.frames.head? = some .timer → 9 ≤ x.2
  | .main _ | .signal _ => True

structure PaceInv (x : State × Nat) (tr : List Event) : Prop where
  bare : x.1.timerInstalled = false → x.1.trigger = false ∧ .timer ∉ x.1.frames
  late : x.1.timerInstalled = true → x.1.pc.toClear ≤ 9
  soon : x.1.trigger = true → x.2 + x.1.pc.toClear ≤ 9
  kept : merged tr = 0

theorem toClear_pos {pc : Pc} (on : pc.exits = false) : 0 < pc.toClear := by
  cases pc with
  | call c =>
    have := place_lt c
    simp only [Pc.toClear]
    omega
  | exited n => cases on
  | encode | testRunning | usleep | testTrigger | clearTrigger | now0 | write | now1 | checkRepeats
  | closeSerial => decide

theorem callStep_timer (b : Build) (args : ArgsInfo) (s : State) (r : Sys) (c : Call) :
    (callStep b args s r c).1.timerInstalled = s.timerInstalled ∨ c = .sigactionTimer := by
  cases c <;> simp only [callStep, orFail, fail]
  case sigactionTimer => exact .inr trivial
  case cfsetispeed | cfsetospeed => exact .inl trivial
  all_goals split <;> exact .inl rfl

theorem callStep_toClear (b : Build) (args : ArgsInfo) (s : State) (r : Sys) (c : Call) :
    c = .sigactionTimer ∨ 18 - c.place ≤ 9 →
      (callStep b args s r c).1.pc.toClear + 1 ≤ 18 - c.place ∧
        (callStep b args s r c).1.pc.toClear ≤ 9 := by
  intro late
  cases callStep_next b args s r c with
  | inl led =>
    rw [led]
    cases c <;> simp_all [Call.place, Call.next, Pc.toClear]
  | inr gone =>
    rw [gone]
    have := place_lt c
    simp only [Pc.toClear]
    omega

/-- A step of `main`: one more on the stopwatch, and one less up to the clear. -/
theorem PaceInv.main {s t : State} {k : Nat} {tr out : List Event} {r : Sys}
    (h : PaceInv (s, k) tr) (bare : t.timerInstalled = false → t.trigger = false ∧ .timer ∉ t.frames)
    (late : t.timerInstalled = true → t.pc.toClear ≤ 9)
    (nearer : t.trigger = true → s.trigger = true ∧ t.pc.toClear + 1 ≤ s.pc.toClear)
    (quiet : ticks out = 0 ∧ merged out = 0) :
    PaceInv (t, if out.any Event.isTick then 0 else if (Act.main r).isMain then k + 1 else k)
      (tr ++ out) := by
  have untimed : out.any Event.isTick = false := by
    rw [List.any_eq_false]
    exact List.countP_eq_zero.mp quiet.1
  refine ⟨bare, late, fun set => ?_, ?_⟩
  · obtain ⟨was, less⟩ := nearer set
    have soon := h.soon was
    dsimp only at soon
    simp only [untimed, Bool.false_eq_true, ↓reduceIte, Act.isMain]
    omega
  · rw [merged_append, h.kept, quiet.2]

theorem paceInv_step {b : Build} {args : ArgsInfo} {x y : State × Nat} {tr out : List Event} {a : Act}
    (h : PaceInv x tr) (spaced : Spaced x tr a)
    (hs : paced b args x a = some (y, out)) : PaceInv y (tr ++ out) := by
  obtain ⟨s, k⟩ := x
  obtain ⟨t, j⟩ := y
  obtain ⟨taken, rfl⟩ := stopwatch_step hs
  have bare := h.bare
  have late := h.late
  dsimp only at bare late
  cases step_move taken with
  | call c r pc =>
    have setup := callStep_setup b args s r c
    rw [pc] at late
    have place : s.timerInstalled = true → 18 - c.place ≤ 9 := late
    cases callStep_timer b args s r c with
    | inl same =>
      apply h.main _ _ _ ⟨setup.silent.ticks, setup.silent.merged⟩
      · rw [same, setup.trigger, setup.frames]
        exact bare
      · rw [same]
        exact fun on => (callStep_toClear b args s r c (.inr (place on))).2
      · rw [setup.trigger]
        intro set
        have on : s.timerInstalled = true := by
          by_contra off
          rw [(bare (by simpa using off)).1] at set
          cases set
        rw [pc]
        exact ⟨set, (callStep_toClear b args s r c (.inr (place on))).1⟩
    | inr first =>
      apply h.main _ _ _ ⟨setup.silent.ticks, setup.silent.merged⟩
      · intro _
        rw [setup.trigger, setup.frames]
        apply bare
        by_contra on
        have far := place (by simpa using on)
        rw [first] at far
        exact absurd far (by decide)
      · exact fun _ => (callStep_toClear b args s r c (.inl first)).2
      · rw [setup.trigger, pc]
        exact fun set => ⟨set, (callStep_toClear b args s r c (.inl first)).1⟩
  | encode r pc =>
    have off : s.timerInstalled = false := by
      by_contra on
      have far := late (by simpa using on)
      rw [pc] at far
      exact absurd far (by decide)
    have silent := encodeEvents_silent b args
    exact h.main (fun _ => bare off) (fun on => absurd (off.symm.trans on) (by decide))
      (fun set => absurd ((bare off).1.symm.trans set) (by decide)) ⟨silent.ticks, silent.merged⟩
  | stay r pc | leave r pc | slept r pc | fired r pc | now0 r pc | uncounted r pc | counted r pc
  | «break» r pc =>
    exact h.main bare (fun _ => by simp [Pc.toClear])
      (fun set => ⟨set, by simp [Pc.toClear, pc]⟩) ⟨rfl, rfl⟩
  | quiet r pc unset =>
    exact h.main bare (fun _ => by simp [Pc.toClear])
      (fun set => absurd (unset.symm.trans set) (by decide)) ⟨rfl, rfl⟩
  | clear r pc =>
    exact h.main (fun off => ⟨rfl, (bare off).2⟩) (fun _ => by cases b.debug <;> simp [Pc.toClear])
      (fun set => by cases set) ⟨rfl, rfl⟩
  | write r pc =>
    exact h.main bare (fun _ => by cases b.debug <;> simp [Pc.toClear])
      (fun set => ⟨set, by cases b.debug <;> simp [Pc.toClear, pc]⟩) ⟨rfl, rfl⟩
  | now1 r pc =>
    have silent := tookEvents_silent b s.t0 r.out
    exact h.main bare (fun _ => by simp [Pc.toClear])
      (fun set => ⟨set, by simp [Pc.toClear, pc]⟩) ⟨silent.ticks, silent.merged⟩
  | close r pc =>
    obtain ⟨zt, zm, -⟩ := closeEvents_counts b s.serialFd r
    exact h.main bare (fun _ => by simp [Pc.toClear])
      (fun set => ⟨set, by simp [Pc.toClear, pc]⟩) ⟨zt, zm⟩
  | enter sig hd =>
    rw [List.append_nil]
    refine ⟨fun off => ⟨(bare off).1, fun mem => ?_⟩, late, h.soon, h.kept⟩
    cases List.mem_cons.mp mem with
    | inr old => exact (bare off).2 old
    | inl new =>
      -- the timer's handler is entered only where it is installed
      obtain ⟨-, ⟨hd', installed, same⟩ | same⟩ := signal_step taken
      · simp only [State.mk.injEq, List.cons.injEq, and_true, true_and] at same
        rw [← same, ← new] at installed
        cases sig with
        | sigrtmin => simp [State.handlerFor, show s.timerInstalled = false from off] at installed
        | sigint => simp [State.handlerFor] at installed
        | sigterm => cases installed
      · simp at same
  | kill sig bare' =>
    rw [List.append_nil]
    exact ⟨bare, late, h.soon, h.kept⟩
  | tick rest top =>
    have installed : s.timerInstalled = true := by
      by_contra off
      apply (bare (by simpa using off)).2
      rw [top]
      exact List.mem_cons_self
    -- the tick before is nine steps back, and would have been taken by now
    have taken : s.trigger = false := by
      by_contra set
      have soon := h.soon (by simpa using set)
      have far : 9 ≤ k := spaced (by rw [top]; rfl)
      have left := toClear_pos (step_going taken)
      dsimp only at soon
      omega
    refine ⟨fun off => absurd (installed.symm.trans off) (by decide), late, fun _ => ?_, ?_⟩
    · simpa [Event.isTick] using late installed
    · rw [merged_append, h.kept, taken]
      rfl
  | interrupt rest top =>
    refine ⟨fun off => ⟨(bare off).1, fun mem => (bare off).2 ?_⟩, late, h.soon, ?_⟩
    · rw [top]
      exact List.mem_cons_of_mem _ mem
    · rw [merged_append, h.kept]
      rfl

/-- **No tick is lost.** Where `main` takes at least nine steps between any two
ticks, no tick of the run finds `trigger` still set, and every tick is a message
that is sent or still owed, however the steps and the signals fall otherwise. -/
theorem spaced_ticks_sent (b : Build) (args : ArgsInfo) {acts : List Act} {s : State} {k : Nat}
    {tr : List Event} (h : run (paced b args) (start, 9) acts = some ((s, k), tr))
    (spaced : Along (paced b args) Spaced (start, 9) [] acts) :
    merged tr = 0 ∧ ticks tr = sent tr + s.owed := by
  have h0 : PaceInv (start, 9) [] :=
    ⟨fun _ => ⟨rfl, List.not_mem_nil⟩, fun on => (by cases on), fun set => (by cases set), rfl⟩
  have pace : PaceInv (s, k) tr := by
    simpa using run_invariant_along PaceInv h0 spaced h
      fun _ _ _ _ _ inv spaced hs => paceInv_step inv spaced hs
  have loop := reachable_loopInv (stopwatch_run h)
  have conserved := Slot.conserved loop.slot
  have taken := loop.taken
  have kept := pace.kept
  simp only [slot, State.owed] at conserved ⊢
  exact ⟨kept, by omega⟩

/-- Two ticks, nine steps of `main` apart. -/
def twoTicks : List Act :=
  (boot ++ [.signal .sigrtmin]) ++
    .handler :: ((List.replicate 9 (.main ⟨3, 0, 0⟩) ++ [.signal .sigrtmin]) ++ [.handler])

theorem spaced_ticks_sent_two :
    ∃ s k tr, run (paced (Build.plain false) Cmdline.cmdlineParserInit) (start, 9) twoTicks =
        some ((s, k), tr) ∧ ticks tr = 2 ∧ merged tr = 0 ∧ ticks tr = sent tr + s.owed := by
  have free {acts : List Act} (calm : ∀ a ∈ acts, a ≠ .handler) (x : State × Nat)
      (seen : List Event) :
      Along (paced (Build.plain false) Cmdline.cmdlineParserInit) Spaced x seen acts := by
    apply Runs.along_of_forall
    intro a mem x seen
    cases a with
    | handler => exact absurd rfl (calm _ mem)
    | main | signal => trivial
  have spaced : Along (paced (Build.plain false) Cmdline.cmdlineParserInit) Spaced (start, 9) []
      twoTicks := by
    apply Along.concat (free (by decide) _ _) rfl
    apply Along.cons (fun _ => by decide) rfl
    apply Along.concat (free (by decide) _ _) rfl
    exact Along.cons (fun _ => by decide) rfl trivial
  obtain ⟨s, k, tr, ran, two⟩ : ∃ s k tr,
      run (paced (Build.plain false) Cmdline.cmdlineParserInit) (start, 9) twoTicks =
        some ((s, k), tr) ∧ ticks tr = 2 := ⟨_, _, _, rfl, rfl⟩
  exact ⟨s, k, tr, ran, two, spaced_ticks_sent _ _ ran spaced⟩

end MidiGw.Tapper
