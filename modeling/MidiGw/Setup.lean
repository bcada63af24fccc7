import MidiGw.TapLoop

/-!
# Initialisation and its failures

The fourteen calls and checks in front of the loop. Most of them end the
process when they fail. `init_serial` only reports its failures, or discards
them, and carries on: which runs are fail-stop all the same.
-/

namespace MidiGw.Tapper

open Cmdline (ArgsInfo)
open Runs (Along Always along_iff run run_append run_invariant run_invariant_along)

/-- The calls of `init_serial`. -/
def Call.inInitSerial : Call → Bool
  | .openSerial | .tcgetattr | .cfsetispeed | .cfsetospeed | .tcsetattr => true
  | _ => false

/-- The calls in front of it. -/
def Call.place : Call → Nat
  | .stat => 0
  | .sIsChr => 1
  | .checkChannel => 2
  | .openSerial => 3
  | .tcgetattr => 4
  | .cfsetispeed => 5
  | .cfsetospeed => 6
  | .tcsetattr => 7
  | .sigactionTimer => 8
  | .sigactionInt => 9
  | .sigprocmaskBlock => 10
  | .timerCreate => 11
  | .timerSettime => 12
  | .sigprocmaskUnblock => 13

/-- How many calls are behind `main`. -/
def Pc.behind : Pc → Nat
  | .call c => c.place
  | .encode => 3
  | _ => 14

theorem place_lt (c : Call) : c.place < 14 := by cases c <;> decide

theorem next_behind_succ (c : Call) : c.next.behind = c.place + 1 := by cases c <;> rfl

theorem place_inj {c d : Call} (same : c.place = d.place) : c = d := by
  have index (c : Call) : c.place = c.ctorIdx := by cases c <;> rfl
  rw [index, index] at same
  rw [← Call.ofNat_ctorIdx c, same, Call.ofNat_ctorIdx]

theorem next_going (c : Call) : c.next.exits = false := by cases c <;> rfl

/-! ## What a call does -/

/-- The events that only the calls show. -/
def Event.ofCall : Event → Bool
  | .called _ _ | .applied _ => true
  | _ => false

/-- A call shows its outcome. One that fails ends the process, unless it is
one of `init_serial`'s. -/
structure Outcome (s : State) (c : Call) (ok : Bool) (t : State) (out : List Event) : Prop where
  called : ∀ c' ok', .called c' ok' ∈ out ↔ c' = c ∧ ok' = ok
  applied : ∀ device, .applied device ∈ out → c = .tcsetattr ∧ device = s.ttyRead
  read : s.ttyRead = true ∨ c = .tcgetattr ∧ ok = true → t.ttyRead = true
  next : ok = true ∨ c.inInitSerial = true → t.pc = c.next
  gone : ok = false → c.inInitSerial = false → t.pc = .exited exitFailure

theorem ofCall_stdout (text : C.CStr) : ∀ e ∈ [Event.stdout text], e.ofCall = false := by
  simp [Event.ofCall]

section
variable {s t : State} {c : Call} {prints : List Event} (quiet : ∀ e ∈ prints, e.ofCall = false)
include quiet

/-- Behind its outcome a call at most prints. -/
theorem outcome_of_prints {ok : Bool}
    (read : s.ttyRead = true ∨ c = .tcgetattr ∧ ok = true → t.ttyRead = true)
    (next : ok = true ∨ c.inInitSerial = true → t.pc = c.next)
    (gone : ok = false → c.inInitSerial = false → t.pc = .exited exitFailure) :
    Outcome s c ok t (.called c ok :: prints) := by
  refine ⟨?_, ?_, read, next, gone⟩
  · intro c' ok'
    constructor
    · intro mem
      cases mem with
      | head => exact ⟨rfl, rfl⟩
      | tail _ mem => have := quiet _ mem; cases this
    · rintro ⟨rfl, rfl⟩
      exact List.mem_cons_self
  · intro device mem
    cases mem with
    | tail _ mem => have := quiet _ mem; cases this

theorem outcome_ok (other : c ≠ .tcgetattr) (tty : t.ttyRead = s.ttyRead) (pc : t.pc = c.next) :
    Outcome s c true t (.called c true :: prints) := by
  apply outcome_of_prints quiet
  · intro either
    rw [tty]
    exact either.resolve_right fun both => other both.1
  · exact fun _ => pc
  · intro e; cases e

theorem outcome_exits (stops : c.inInitSerial = false) (tty : t.ttyRead = s.ttyRead)
    (pc : t.pc = .exited exitFailure) : Outcome s c false t (.called c false :: prints) := by
  apply outcome_of_prints quiet
  · intro either
    rw [tty]
    exact either.resolve_right fun both => by have := both.2; cases this
  · simp [stops]
  · exact fun _ _ => pc

/-- A call of `init_serial` leads on, whatever its outcome. -/
theorem outcome_carries {ok : Bool} (serial : c.inInitSerial = true)
    (read : s.ttyRead = true ∨ c = .tcgetattr ∧ ok = true → t.ttyRead = true)
    (pc : t.pc = c.next) : Outcome s c ok t (.called c ok :: prints) := by
  apply outcome_of_prints quiet read
  · exact fun _ => pc
  · intro _ stops
    rw [serial] at stops
    cases stops

end

theorem fail_outcome (b : Build) (s : State) {c : Call} (what : C.CStr) (r : Sys)
    (stops : c.inInitSerial = false) :
    Outcome s c false (fail b s c what r).1 (fail b s c what r).2 :=
  outcome_exits (by simp [Event.ofCall]) stops rfl rfl

theorem orFail_outcome (b : Build) (s : State) {c : Call} (what : C.CStr) (r : Sys) (next : State)
    (stops : c.inInitSerial = false) (other : c ≠ .tcgetattr) (tty : next.ttyRead = s.ttyRead)
    (pc : next.pc = c.next) :
    ∃ ok, Outcome s c ok (orFail b s c what r next).1 (orFail b s c what r next).2 := by
  unfold orFail
  split
  · exact ⟨false, fail_outcome b s what r stops⟩
  · exact ⟨true, outcome_ok (by simp) other tty pc⟩

theorem callStep_outcome (b : Build) (args : ArgsInfo) (s : State) (r : Sys) (c : Call) :
    ∃ ok, Outcome s c ok (callStep b args s r c).1 (callStep b args s r c).2 := by
  cases c <;> simp only [callStep]
  case stat =>
    split
    · exact ⟨false, fail_outcome b s _ r rfl⟩
    · exact ⟨true, outcome_ok (by simp) (by decide) rfl rfl⟩
  case sIsChr =>
    split
    · exact ⟨true, outcome_ok (by simp) (by decide) rfl rfl⟩
    · exact ⟨false, outcome_exits (ofCall_stdout _) rfl rfl rfl⟩
  case checkChannel =>
    split
    · exact ⟨false, outcome_exits (ofCall_stdout _) rfl rfl rfl⟩
    · exact ⟨true, outcome_ok (by simp) (by decide) rfl rfl⟩
  case openSerial =>
    split
    · exact ⟨false, outcome_carries (ofCall_stdout _) rfl (by simp) rfl⟩
    · exact ⟨true, outcome_carries (ofCall_stdout _) rfl (by simp) rfl⟩
  case tcgetattr =>
    split
    · exact ⟨false, outcome_carries (ofCall_stdout _) rfl (by simp) rfl⟩
    · exact ⟨true, outcome_carries (by simp) rfl (fun _ => rfl) rfl⟩
  case cfsetispeed | cfsetospeed => exact ⟨_, outcome_carries (by simp) rfl (by simp) rfl⟩
  case tcsetattr =>
    split
    · exact ⟨false, outcome_carries (ofCall_stdout _) rfl (by simp) rfl⟩
    · refine ⟨true, ?_⟩
      constructor <;> simp [Call.next]
  case timerCreate =>
    split
    · exact ⟨false, fail_outcome b s _ r rfl⟩
    · exact ⟨true, outcome_ok (ofCall_stdout _) (by decide) rfl rfl⟩
  case sigactionTimer | sigactionInt | sigprocmaskBlock | timerSettime | sigprocmaskUnblock =>
    exact orFail_outcome b s _ r _ rfl (by decide) rfl rfl

/-! ## The calls behind a state -/

/-- The call was made, and has succeeded unless it may fail. -/
def Made (c : Call) (tr : List Event) : Prop :=
  .called c true ∈ tr ∨ .called c false ∈ tr ∧ c.inInitSerial = true

theorem Made.append {c : Call} {tr : List Event} (h : Made c tr) (out : List Event) :
    Made c (tr ++ out) :=
  h.imp (List.mem_append_left out) fun failed => ⟨List.mem_append_left out failed.1, failed.2⟩

structure CallInv (s : State) (tr : List Event) : Prop where
  passed : s.pc.exits = false → ∀ c, c.place < s.pc.behind → Made c tr
  written : 0 < sent tr → ∀ c, Made c tr
  failed : ∀ c, .called c false ∈ tr → c.inInitSerial = false →
    s.pc = .exited exitFailure ∧ sent tr = 0
  read : .called .tcgetattr true ∈ tr → s.ttyRead = true
  applied : .applied false ∈ tr → .called .tcgetattr false ∈ tr
  unsent : s.pc.setup = true → sent tr = 0

/-- While `main` runs, no call has failed that ends it. -/
theorem CallInv.alive {s : State} {tr : List Event} (h : CallInv s tr) (going : s.pc.exits = false)
    {c : Call} (failed : .called c false ∈ tr) : c.inInitSerial = true := by
  by_contra stops
  have gone := (h.failed c failed (by simpa using stops)).1
  rw [gone] at going
  cases going

theorem CallInv.call {s t : State} {tr out : List Event} {c : Call} {ok : Bool}
    (h : CallInv s tr) (pc : s.pc = .call c) (o : Outcome s c ok t out) (quiet : sent out = 0) :
    CallInv t (tr ++ out) := by
  have going : s.pc.exits = false := by rw [pc]; rfl
  have unsent : sent tr = 0 := h.unsent (by rw [pc]; rfl)
  have still : sent (tr ++ out) = 0 := by rw [sent_append, unsent, quiet]
  have here : .called c ok ∈ out := (o.called c ok).mpr ⟨rfl, rfl⟩
  constructor
  · intro on d before
    -- a call that has led on was made
    have made : Made c (tr ++ out) := by
      by_cases serial : c.inInitSerial = true
      · cases ok with
        | true => exact .inl (List.mem_append_right tr here)
        | false => exact .inr ⟨List.mem_append_right tr here, serial⟩
      · cases ok with
        | true => exact .inl (List.mem_append_right tr here)
        | false =>
          rw [o.gone rfl (by simpa using serial)] at on
          cases on
    have front := h.passed going d
    rw [pc] at front
    by_cases self : d = c
    · rw [self]; exact made
    · have apart : d.place ≠ c.place := fun same => self (place_inj same)
      have reached : t.pc = c.next := by
        apply o.next
        by_contra stopped
        obtain ⟨bad, stops⟩ := not_or.mp stopped
        rw [o.gone (by simpa using bad) (by simpa using stops)] at on
        cases on
      rw [reached, next_behind_succ] at before
      have less : d.place < c.place := by omega
      exact (front less).append out
  · intro sends
    omega
  · intro d failed stops
    cases List.mem_append.mp failed with
    | inl old =>
      have serial := h.alive going old
      rw [stops] at serial
      cases serial
    | inr new =>
      obtain ⟨rfl, rfl⟩ := (o.called d false).mp new
      exact ⟨o.gone rfl stops, still⟩
  · intro read
    cases List.mem_append.mp read with
    | inl old => exact o.read (.inl (h.read old))
    | inr new =>
      obtain ⟨rfl, rfl⟩ := (o.called .tcgetattr true).mp new
      exact o.read (.inr ⟨rfl, rfl⟩)
  · intro bad
    cases List.mem_append.mp bad with
    | inl old => exact List.mem_append_left out (h.applied old)
    | inr new =>
      obtain ⟨rfl, unread⟩ := o.applied false new
      have made := h.passed going .tcgetattr (by rw [pc]; decide)
      rcases made with read | ⟨failed, -⟩
      · rw [h.read read] at unread
        cases unread
      · exact List.mem_append_left out failed
  · exact fun _ => still

theorem dprint_ofCall (b : Build) (line : Nat) (text : C.CStr) :
    ∀ e ∈ b.dprint line text, e.ofCall = false := by
  intro e mem
  unfold Build.dprint at mem
  split at mem
  · rw [List.mem_singleton] at mem; subst mem; rfl
  · cases mem

theorem encodeEvents_ofCall (b : Build) (args : ArgsInfo) :
    ∀ e ∈ encodeEvents b args, e.ofCall = false :=
  List.forall_mem_append.mpr ⟨dprint_ofCall _ _ _, dprint_ofCall _ _ _⟩

theorem encodeEvents_uncalled (b : Build) (args : ArgsInfo) (c : Call) (ok : Bool) :
    .called c ok ∉ encodeEvents b args := by
  intro mem
  have := encodeEvents_ofCall b args _ mem
  cases this

theorem closeEvents_ofCall (b : Build) (fd : Int32) (r : Sys) :
    ∀ e ∈ closeEvents b fd r, e.ofCall = false := by
  unfold closeEvents
  split <;> simp [Event.ofCall]

/-- Any other step shows no call and leads behind none. -/
structure Uncalled (s t : State) (out : List Event) : Prop where
  quiet : ∀ e ∈ out, e.ofCall = false
  tty : t.ttyRead = s.ttyRead
  behind : t.pc.exits = false → t.pc.behind ≤ s.pc.behind
  setup : t.pc.setup = true → s.pc.setup = true

theorem step_calls {b : Build} {args : ArgsInfo} {s t : State} {out : List Event} {a : Act}
    (hs : step b args s a = some (t, out)) :
    (∃ c ok, s.pc = .call c ∧ Outcome s c ok t out) ∨ Uncalled s t out := by
  cases step_move hs with
  | call c r pc =>
    obtain ⟨ok, o⟩ := callStep_outcome b args s r c
    exact .inl ⟨c, ok, pc, o⟩
  | encode r pc =>
    refine .inr ⟨encodeEvents_ofCall b args, rfl, ?_, ?_⟩
    · intro _; rw [pc]; exact Nat.le_refl 3
    · intro _; rw [pc]; rfl
  | now1 r pc =>
    refine .inr ⟨dprint_ofCall _ _ _, rfl, ?_, ?_⟩
    · intro _; rw [pc]; exact Nat.le_refl 14
    · intro e; cases e
  | close r pc =>
    refine .inr ⟨closeEvents_ofCall b s.serialFd r, rfl, ?_, ?_⟩
    · intro e; cases e
    · intro e; cases e
  | clear r pc | write r pc =>
    refine .inr ⟨by simp [Event.ofCall], rfl, ?_, ?_⟩
    · intro _; rw [pc]; cases b.debug <;> exact Nat.le_refl 14
    · intro e; dsimp only at e; split at e <;> cases e
  | stay r pc | leave r pc | slept r pc | fired r pc | quiet r pc | now0 r pc | uncounted r pc
  | counted r pc | «break» r pc =>
    refine .inr ⟨by simp, rfl, ?_, ?_⟩
    · intro _; rw [pc]; exact Nat.le_refl 14
    · intro e; cases e
  | enter | kill | tick | interrupt =>
    exact .inr ⟨by simp [Event.ofCall], rfl, fun _ => Nat.le_refl _, id⟩

/-- Only a call shows an outcome, and its own. -/
theorem called_step {b : Build} {args : ArgsInfo} {s t : State} {out : List Event} {a : Act}
    {c : Call} {ok : Bool} (hs : step b args s a = some (t, out)) (mem : .called c ok ∈ out) :
    s.pc = .call c ∧ Outcome s c ok t out := by
  obtain ⟨d, ok', pc, o⟩ | other := step_calls hs
  · obtain ⟨rfl, rfl⟩ := (o.called c ok).mp mem
    exact ⟨pc, o⟩
  · have := other.quiet _ mem
    cases this

theorem CallInv.other {s t : State} {tr out : List Event} (h : CallInv s tr)
    (going : s.pc.exits = false) (u : Uncalled s t out)
    (written : sent out = 0 ∨ s.pc = .write) : CallInv t (tr ++ out) := by
  have old {e : Event} (mem : e ∈ tr ++ out) (call : e.ofCall = true) : e ∈ tr := by
    apply (List.mem_append.mp mem).resolve_right
    intro new
    rw [u.quiet e new] at call
    cases call
  constructor
  · intro on c before
    have bound := u.behind on
    exact (h.passed going c (by omega)).append out
  · intro sends c
    rw [sent_append] at sends
    cases written with
    | inl unsent => exact (h.written (by omega) c).append out
    | inr writing =>
      -- the write stands behind all calls
      have place := place_lt c
      exact (h.passed going c (by rw [writing]; exact place)).append out
  · intro c failed stops
    have serial := h.alive going (old failed rfl)
    rw [stops] at serial
    cases serial
  · intro read
    rw [u.tty]
    exact h.read (old read rfl)
  · intro bad
    exact List.mem_append_left out (h.applied (old bad rfl))
  · intro front
    have before := u.setup front
    cases written with
    | inl unsent => rw [sent_append, h.unsent before, unsent]
    | inr writing =>
      rw [writing] at before
      cases before

theorem callInv_step {b : Build} {args : ArgsInfo} {s t : State} {tr out : List Event} {a : Act}
    (h : CallInv s tr) (hs : step b args s a = some (t, out)) : CallInv t (tr ++ out) := by
  have written : sent out = 0 ∨ s.pc = .write :=
    (step_sends hs).symm.imp id fun ⟨_, pc, _⟩ => pc
  obtain ⟨c, ok, pc, o⟩ | other := step_calls hs
  · apply h.call pc o
    apply written.resolve_right
    rw [pc]
    intro e
    cases e
  · exact h.other (step_going hs) other written

theorem startCallInv : CallInv start [] :=
  ⟨fun _ c before => absurd before (Nat.not_lt_zero _), fun sends => absurd sends (by decide),
    by simp, by simp, by simp, fun _ => rfl⟩

theorem reachable_callInv {b : Build} {args : ArgsInfo} {acts : List Act} {s : State}
    {tr : List Event} (h : run (step b args) start acts = some (s, tr)) : CallInv s tr := by
  simpa using run_invariant CallInv startCallInv h fun _ _ _ _ _ hi hs => callInv_step hi hs

/-! ## Which runs are fail-stop -/

/-- A message is attempted only behind calls that have all succeeded. Behind
one that failed the process has exited with a failure, has written nothing,
and has applied no settings but those it read from the device. -/
structure FailStop (s : State) (tr : List Event) : Prop where
  written : 0 < sent tr → ∀ c, .called c true ∈ tr ∧ .called c false ∉ tr
  failed : ∀ c, .called c false ∈ tr →
    s.pc = .exited exitFailure ∧ sent tr = 0 ∧ .applied false ∉ tr

/-- No call of `init_serial` has failed. -/
def SerialOk (tr : List Event) : Prop :=
  ∀ c : Call, c.inInitSerial = true → .called c false ∉ tr

theorem failStop_of_serialOk {s : State} {tr : List Event} (h : CallInv s tr)
    (serial : SerialOk tr) : FailStop s tr := by
  have stops {c : Call} (failed : .called c false ∈ tr) : c.inInitSerial = false := by
    by_contra carries
    exact serial c (by simpa using carries) failed
  constructor
  · intro sends c
    constructor
    · exact (h.written sends c).resolve_right fun both => serial c both.2 both.1
    · intro failed
      have unsent := (h.failed c failed (stops failed)).2
      omega
  · intro c failed
    obtain ⟨gone, unsent⟩ := h.failed c failed (stops failed)
    exact ⟨gone, unsent, fun bad => serial .tcgetattr rfl (h.applied bad)⟩

/-- A step after which the run is still fail-stop is no failure of `init_serial`. -/
theorem serialOk_step {b : Build} {args : ArgsInfo} {s t : State} {tr out : List Event} {a : Act}
    (h : SerialOk tr) (stop : FailStop t (tr ++ out)) (hs : step b args s a = some (t, out)) :
    SerialOk (tr ++ out) := by
  intro c serial failed
  have gone := (stop.failed c failed).1
  have new := (List.mem_append.mp failed).resolve_left (h c serial)
  have on := next_going c
  rw [← (called_step hs new).2.next (.inr serial), gone] at on
  cases on

/-- Every call up to the loop succeeds but one. -/
def bootBut (c : Call) : List Act :=
  List.replicate (c.place + 1) (.main okSys) ++ [.main ⟨-1, 5, 0⟩] ++
    List.replicate (13 - c.place) (.main okSys)

/-- After a failure of `init_serial` the tapper gets to its loop as if nothing
had happened. -/
theorem bootBut_run (b : Build) (args : ArgsInfo) (ok : ChannelOk args) (c : Call)
    (serial : c.inInitSerial = true) :
    ∃ s tr, run (step b args) start (bootBut c) = some (s, tr) ∧ AtHead s ∧
      .called c false ∈ tr := by
  unfold ChannelOk at ok
  cases c with
  | openSerial | tcgetattr | cfsetispeed | cfsetospeed | tcsetattr =>
    simp [bootBut, Call.place, List.replicate, run, step, start, State.over, Pc.exits, mainStep,
      callStep, orFail, okSys, ok]
    constructor <;> rfl
  | _ => cases serial

/-- **Fail-stop initialisation.** Along a run the tapper is always fail-stop if
and only if no call of `init_serial` ever fails. Each of these five may fail
alone, and the tapper taps on. -/
theorem fail_stop_iff (b : Build) (args : ArgsInfo) :
    (∀ acts, Always (step b args) FailStop start acts ↔
      Always (step b args) (fun _ tr => SerialOk tr) start acts) ∧
    (ChannelOk args → ∀ c : Call, c.inInitSerial = true →
      ∃ acts s tr, run (step b args) start acts = some (s, tr) ∧ .called c false ∈ tr ∧
        0 < sent tr) := by
  constructor
  · intro acts
    constructor
    · intro stops pre hp t tr hr
      have along : Along (step b args)
          (fun s seen a => ∀ t out, step b args s a = some (t, out) → FailStop t (seen ++ out))
          start [] pre :=
        along_iff.mpr fun pre' a hp' s seen hs t out ht =>
          stops (pre' ++ [a]) (hp'.trans hp) t (seen ++ out)
            (run_append.mpr ⟨s, seen, out, hs, Runs.run_single.mpr ht, rfl⟩)
      have inv := run_invariant_along (fun _ tr => SerialOk tr)
        (by intro c _ mem; cases mem) along hr
        fun _ _ _ t out hi ok hs => serialOk_step hi (ok t out hs) hs
      simpa using inv
    · intro serial pre hp t tr hr
      exact failStop_of_serialOk (reachable_callInv hr) (serial pre hp t tr hr)
  · intro ok c serial
    obtain ⟨s, tr, booted, head, failed⟩ := bootBut_run b args ok c serial
    have tapped := tap_run b args head
    refine ⟨_, _, _, run_append.mpr ⟨_, _, _, booted, tapped, rfl⟩, ?_, ?_⟩
    · exact List.mem_append_left _ failed
    · have one : sent [.tick false, .cleared, .wrote s.midiMsg 3] = 1 := rfl
      rw [sent_append, one]
      exact Nat.succ_pos _

/-- A port that cannot be opened does not stop the tapper. -/
theorem not_fail_stop :
    ¬∀ (b : Build) (args : ArgsInfo) (acts : List Act),
      Always (step b args) FailStop start acts := by
  intro stops
  obtain ⟨s, tr, booted, head, failed⟩ := bootBut_run (Build.plain false)
    Cmdline.cmdlineParserInit (by decide) .openSerial rfl
  have gone := ((stops _ _ _ _ (List.prefix_refl _) s tr booted).failed .openSerial failed).1
  rw [head.pc] at gone
  cases gone

end MidiGw.Tapper
