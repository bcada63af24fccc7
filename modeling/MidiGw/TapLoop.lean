import MidiGw.Slot
import MidiGw.Tapper

/-!
# Ticks and messages

What the tap loop makes of the timer's ticks, over every schedule of the two
handlers. The flag `trigger` is a one-place mailbox: the handler posts, the
loop takes, and each take is followed by one message.
-/

namespace MidiGw.Tapper

open Cmdline (ArgsInfo)
open Runs (run run_append run_single run_invariant run_progress)

/-! ## Counting events -/

/-- The events of the loop and its handlers, not of the calls and prints. -/
def Event.ofLoop : Event → Bool
  | .tick _ | .interrupt | .cleared | .wrote _ _ | .closed => true
  | .called _ _ | .applied _ | .stdout _ | .stderr _ => false

def Event.isTick : Event → Bool
  | .tick _ => true
  | _ => false

def Event.isMerged : Event → Bool
  | .tick merged => merged
  | _ => false

def Event.isCleared : Event → Bool
  | .cleared => true
  | _ => false

def Event.isWrote : Event → Bool
  | .wrote _ _ => true
  | _ => false

def Event.isClosed : Event → Bool
  | .closed => true
  | _ => false

/-- Runs of `handler_timer`. -/
def ticks (tr : List Event) : Nat := tr.countP Event.isTick

/-- Runs of `handler_timer` that found `trigger` already set. -/
def merged (tr : List Event) : Nat := tr.countP Event.isMerged

def cleared (tr : List Event) : Nat := tr.countP Event.isCleared

/-- Messages sent: writes made by `sendCC`. -/
def sent (tr : List Event) : Nat := tr.countP Event.isWrote

def closes (tr : List Event) : Nat := tr.countP Event.isClosed

@[simp] theorem ticks_append (a b : List Event) : ticks (a ++ b) = ticks a + ticks b :=
  List.countP_append

@[simp] theorem merged_append (a b : List Event) : merged (a ++ b) = merged a + merged b :=
  List.countP_append

@[simp] theorem cleared_append (a b : List Event) : cleared (a ++ b) = cleared a + cleared b :=
  List.countP_append

@[simp] theorem sent_append (a b : List Event) : sent (a ++ b) = sent a + sent b :=
  List.countP_append

@[simp] theorem closes_append (a b : List Event) : closes (a ++ b) = closes a + closes b :=
  List.countP_append

/-- A step that only calls and prints. -/
def Silent (out : List Event) : Prop := ∀ e ∈ out, e.ofLoop = false

theorem Silent.count {out : List Event} (h : Silent out) {p : Event → Bool}
    (hp : ∀ e, p e = true → e.ofLoop = true) : out.countP p = 0 := by
  rw [List.countP_eq_zero]
  intro e he hpe
  have := hp e hpe
  rw [h e he] at this
  cases this

section
variable {out : List Event} (h : Silent out)
include h

theorem Silent.ticks : ticks out = 0 := h.count (by intro e; cases e <;> simp [Event.isTick, Event.ofLoop])
theorem Silent.merged : merged out = 0 := h.count (by intro e; cases e <;> simp [Event.isMerged, Event.ofLoop])
theorem Silent.cleared : cleared out = 0 := h.count (by intro e; cases e <;> simp [Event.isCleared, Event.ofLoop])
theorem Silent.sent : sent out = 0 := h.count (by intro e; cases e <;> simp [Event.isWrote, Event.ofLoop])
theorem Silent.closes : closes out = 0 := h.count (by intro e; cases e <;> simp [Event.isClosed, Event.ofLoop])

end

theorem silent_nil : Silent [] := by simp [Silent]

theorem Silent.append {a b : List Event} (ha : Silent a) (hb : Silent b) : Silent (a ++ b) :=
  fun e he => (List.mem_append.mp he).elim (ha e) (hb e)

theorem dprint_silent (b : Build) (line : Nat) (text : C.CStr) : Silent (b.dprint line text) := by
  intro e he
  unfold Build.dprint at he
  split at he
  · rw [List.mem_singleton] at he; subst he; rfl
  · cases he

theorem encodeEvents_silent (b : Build) (args : ArgsInfo) : Silent (encodeEvents b args) :=
  Silent.append (dprint_silent _ _ _) (dprint_silent _ _ _)

theorem tookEvents_silent (b : Build) (t0 t1 : Int) : Silent (tookEvents b t0 t1) :=
  dprint_silent b 266 _

/-! ## The parts of `main` -/

/-- Inside the tap loop. -/
def Pc.inLoop : Pc → Bool
  | .testRunning | .usleep | .testTrigger | .clearTrigger => true
  | .now0 | .write | .now1 | .checkRepeats => true
  | _ => false

/-- In front of the tap loop. -/
def Pc.setup : Pc → Bool
  | .call _ | .encode => true
  | _ => false

/-- Before the message is encoded. -/
def Pc.checking : Pc → Bool
  | .call .stat | .call .sIsChr | .call .checkChannel | .encode => true
  | _ => false

/-- Between `trigger = 0` and the write. -/
def Pc.committed : Pc → Bool
  | .now0 | .write => true
  | _ => false

/-- The calls before the loop leave the loop's variables alone. -/
structure SetupStep (s t : State) (out : List Event) : Prop where
  running : t.running = s.running
  trigger : t.trigger = s.trigger
  i : t.i = s.i
  msg : t.midiMsg = s.midiMsg
  frames : t.frames = s.frames
  silent : Silent out

theorem silent_called (c : Call) (ok : Bool) : Silent [.called c ok] := by
  simp [Silent, Event.ofLoop]

theorem silent_printed (c : Call) (ok : Bool) (text : C.CStr) :
    Silent [.called c ok, .stdout text] := by
  simp [Silent, Event.ofLoop]

theorem fail_setup (b : Build) (s : State) (c : Call) (what : C.CStr) (r : Sys) :
    SetupStep s (fail b s c what r).1 (fail b s c what r).2 :=
  ⟨rfl, rfl, rfl, rfl, rfl, by simp [Silent, fail, Event.ofLoop]⟩

theorem orFail_setup (b : Build) (s : State) (c : Call) (what : C.CStr) (r : Sys) (next : State)
    (h : SetupStep s next []) :
    SetupStep s (orFail b s c what r next).1 (orFail b s c what r next).2 := by
  unfold orFail
  split
  · exact fail_setup b s c what r
  · exact { h with silent := silent_called c true }

theorem callStep_setup (b : Build) (args : ArgsInfo) (s : State) (r : Sys) (c : Call) :
    SetupStep s (callStep b args s r c).1 (callStep b args s r c).2 := by
  cases c <;> simp only [callStep]
  case stat =>
    split
    · exact fail_setup b s _ _ r
    · exact ⟨rfl, rfl, rfl, rfl, rfl, silent_called _ _⟩
  case sIsChr =>
    split
    · exact ⟨rfl, rfl, rfl, rfl, rfl, silent_called _ _⟩
    · exact ⟨rfl, rfl, rfl, rfl, rfl, silent_printed _ _ _⟩
  case checkChannel | tcgetattr =>
    split
    · exact ⟨rfl, rfl, rfl, rfl, rfl, silent_printed _ _ _⟩
    · exact ⟨rfl, rfl, rfl, rfl, rfl, silent_called _ _⟩
  case openSerial =>
    split
    · exact ⟨rfl, rfl, rfl, rfl, rfl, silent_printed _ _ _⟩
    · exact ⟨rfl, rfl, rfl, rfl, rfl, silent_printed _ _ _⟩
  case tcsetattr =>
    split
    · exact ⟨rfl, rfl, rfl, rfl, rfl, silent_printed _ _ _⟩
    · exact ⟨rfl, rfl, rfl, rfl, rfl, by simp [Silent, Event.ofLoop]⟩
  case timerCreate =>
    split
    · exact fail_setup b s _ _ r
    · exact ⟨rfl, rfl, rfl, rfl, rfl, silent_printed _ _ _⟩
  case cfsetispeed | cfsetospeed => exact ⟨rfl, rfl, rfl, rfl, rfl, silent_called _ _⟩
  case sigactionTimer | sigactionInt | sigprocmaskBlock | timerSettime | sigprocmaskUnblock =>
    exact orFail_setup b s _ _ r _ ⟨rfl, rfl, rfl, rfl, rfl, silent_nil⟩

/-! ## Conservation of ticks -/

/-- The mailbox that `trigger` and the trace make up. -/
def slot (s : State) (tr : List Event) : Slot :=
  ⟨s.trigger, ticks tr, merged tr, cleared tr⟩

/-- The tick that `trigger` stands for: one that no `trigger = 0` has followed. -/
def Uncleared (tr : List Event) : Prop :=
  ∃ before m after, tr = before ++ .tick m :: after ∧ cleared after = 0

structure LoopInv (s : State) (tr : List Event) : Prop where
  slot : Slot.Reachable (slot s tr)
  armed : s.pc = .clearTrigger → s.trigger = true
  taken : cleared tr = sent tr + s.pc.committed.toNat
  uncleared : s.trigger = true → Uncleared tr

theorem Uncleared.append {tr out : List Event} (h : Uncleared tr) (uncleared : cleared out = 0) :
    Uncleared (tr ++ out) := by
  obtain ⟨before, m, after, rfl, ha⟩ := h
  exact ⟨before, m, after ++ out, by simp, by simp [ha, uncleared]⟩

/-- A step that touches neither flag nor message keeps the invariant, if it
stays on its side of the write and does not jump to the clear. -/
theorem LoopInv.silent {s t : State} {tr out : List Event} (h : LoopInv s tr)
    (quiet : Silent out) (trigger : t.trigger = s.trigger)
    (side : t.pc.committed = s.pc.committed) (armed : t.pc = .clearTrigger → t.trigger = true) :
    LoopInv t (tr ++ out) where
  slot := by
    have same : Tapper.slot t (tr ++ out) = Tapper.slot s tr := by
      simp [Tapper.slot, trigger, quiet.ticks, quiet.merged, quiet.cleared]
    exact same ▸ h.slot
  armed := armed
  taken := by simp [quiet.cleared, quiet.sent, side, h.taken]
  uncleared := fun set => (h.uncleared (trigger ▸ set)).append quiet.cleared

theorem closeEvents_counts (b : Build) (fd : Int32) (r : Sys) :
    ticks (closeEvents b fd r) = 0 ∧ merged (closeEvents b fd r) = 0 ∧
    cleared (closeEvents b fd r) = 0 ∧ sent (closeEvents b fd r) = 0 ∧
    closes (closeEvents b fd r) = 1 := by
  unfold closeEvents
  split <;> exact ⟨rfl, rfl, rfl, rfl, rfl⟩

/-- Only the write of `sendCC` sends. -/
theorem step_sends {b : Build} {args : ArgsInfo} {s t : State} {a : Act} {out : List Event}
    (hs : step b args s a = some (t, out)) :
    (∃ r, s.pc = .write ∧ t = { s with pc := if b.debug then .now1 else .checkRepeats } ∧
      out = [.wrote s.midiMsg r]) ∨ sent out = 0 := by
  cases step_move hs with
  | write r pc => exact .inl ⟨r.ret, pc, rfl, rfl⟩
  | call c r pc => exact .inr (callStep_setup b args s r c).silent.sent
  | encode => exact .inr (encodeEvents_silent b args).sent
  | now1 => exact .inr (tookEvents_silent _ _ _).sent
  | close => exact .inr (closeEvents_counts _ _ _).2.2.2.1
  | stay | leave | slept | fired | quiet | clear | now0 | uncounted | counted | «break» | enter
  | kill | tick | interrupt => exact .inr rfl

theorem loopInv_step {b : Build} {args : ArgsInfo} {s t : State} {tr out : List Event} {a : Act}
    (h : LoopInv s tr) (hs : step b args s a = some (t, out)) : LoopInv t (tr ++ out) := by
  cases step_move hs with
  | call c r pc =>
    have setup := callStep_setup b args s r c
    obtain ⟨side, clear⟩ := callStep_pc (fun pc => pc.committed = false ∧ pc ≠ .clearTrigger)
      (by intro c; cases c <;> decide) (by decide) b args s r c
    exact h.silent setup.silent setup.trigger (by rw [side, pc]; rfl) (fun e => absurd e clear)
  | encode r pc =>
    exact h.silent (encodeEvents_silent b args) rfl (by rw [pc]; rfl) (fun e => by cases e)
  | stay r pc | leave r pc | slept r pc | quiet r pc | now0 r pc | uncounted r pc | counted r pc
  | «break» r pc => exact h.silent silent_nil rfl (by rw [pc]; rfl) (fun e => by cases e)
  | fired r pc set => exact h.silent silent_nil rfl (by rw [pc]; rfl) (fun _ => set)
  | clear r pc =>
    -- the one take of the mailbox, from a full place
    have full := h.armed pc
    have taken := h.taken
    rw [pc] at taken
    refine ⟨?_, ?_, ?_, fun e => by cases e⟩
    · have step := Slot.Reachable.take h.slot full
      simpa [Slot.take, slot, ticks, merged, cleared, Event.isTick, Event.isMerged,
        Event.isCleared] using step
    · intro e; dsimp only at e; split at e <;> cases e
    · cases b.debug <;> simpa [cleared, sent, Event.isCleared, Event.isWrote, Pc.committed] using taken
  | write r pc =>
    have taken := h.taken
    rw [pc] at taken
    refine ⟨?_, ?_, ?_, fun set => (h.uncleared set).append rfl⟩
    · have same : slot { s with pc := if b.debug then .now1 else .checkRepeats }
          (tr ++ [.wrote s.midiMsg r.ret]) = slot s tr := by
        simp [slot, ticks, merged, cleared, Event.isTick, Event.isMerged, Event.isCleared]
      exact same ▸ h.slot
    · intro e; dsimp only at e; split at e <;> cases e
    · cases b.debug <;> simpa [cleared, sent, Event.isCleared, Event.isWrote, Pc.committed] using taken
  | now1 r pc =>
    exact h.silent (tookEvents_silent b s.t0 r.out) rfl (by rw [pc]; rfl) (fun e => by cases e)
  | close r pc =>
    obtain ⟨zt, zm, zc, zs, -⟩ := closeEvents_counts b s.serialFd r
    have taken := h.taken
    rw [pc] at taken
    refine ⟨?_, fun e => (by cases e), ?_, fun set => (h.uncleared set).append zc⟩
    · have same : slot { s with pc := .exited exitSuccess } (tr ++ closeEvents b s.serialFd r) =
          slot s tr := by simp [slot, zt, zm, zc]
      exact same ▸ h.slot
    · simpa [zc, zs, Pc.committed] using taken
  | enter sig hd => exact h.silent silent_nil rfl rfl h.armed
  | kill sig bare => exact h.silent silent_nil rfl rfl h.armed
  | tick rest top =>
    refine ⟨?_, fun _ => rfl, ?_, fun _ => ⟨tr, s.trigger, [], by simp, rfl⟩⟩
    · have step := Slot.Reachable.post h.slot
      cases set : s.trigger <;>
        simpa [Slot.post, slot, ticks, merged, cleared, Event.isTick, Event.isMerged,
          Event.isCleared, set] using step
    · simpa [cleared, sent, Event.isCleared, Event.isWrote] using h.taken
  | interrupt rest top =>
    refine ⟨?_, h.armed, ?_, fun set => (h.uncleared set).append rfl⟩
    · simpa [slot, ticks, merged, cleared, Event.isTick, Event.isMerged, Event.isCleared] using h.slot
    · simpa [cleared, sent, Event.isCleared, Event.isWrote] using h.taken

theorem reachable_loopInv {b : Build} {args : ArgsInfo} {acts : List Act} {s : State}
    {tr : List Event} (h : run (step b args) start acts = some (s, tr)) : LoopInv s tr := by
  have h0 : LoopInv start [] :=
    ⟨.empty, fun e => (by cases e), rfl, fun set => absurd set (by decide)⟩
  simpa using run_invariant LoopInv h0 h fun _ _ _ _ _ hi hs => loopInv_step hi hs

/-! ## No tick is left behind -/

def Act.isMain : Act → Bool
  | .main _ => true
  | _ => false

/-- Messages the loop still owes: one for a set flag, one behind a clear. -/
def State.owed (s : State) : Nat := s.trigger.toNat + s.pc.committed.toNat

/-- The loop keeps running. -/
def State.looping (s : State) : Prop := s.pc.inLoop = true ∧ s.killedBy = none

/-- Steps of `main` up to the end of the next write, provided the flag is set
when the loop comes to test it. -/
def Pc.toWrite : Pc → Nat
  | .write => 1
  | .now0 => 2
  | .clearTrigger => 3
  | .testTrigger => 4
  | .usleep => 5
  | .testRunning => 6
  | .checkRepeats => 7
  | .now1 => 8
  | _ => 0

/-- At least `target` messages are sent or owed. -/
structure OwedInv (target : Nat) (s : State) (tr : List Event) : Prop where
  setup : s.pc.setup = false
  armed : s.pc = .clearTrigger → s.trigger = true
  owed : target ≤ sent tr + s.owed

theorem owedInv_step {b : Build} {args : ArgsInfo} {target : Nat} {s t : State}
    {tr out : List Event} {a : Act} (h : OwedInv target s tr)
    (hs : step b args s a = some (t, out)) : OwedInv target t (tr ++ out) := by
  obtain ⟨setup, armed, owed⟩ := h
  have wrote (m : MidiMsg) (r : Int) : sent [.wrote m r] = 1 := rfl
  cases step_move hs with
  | call c r pc | encode r pc => rw [pc] at setup; cases setup
  | stay r pc on | leave r pc on | slept r pc | quiet r pc on | uncounted r pc on
  | counted r pc on more | «break» r pc on more =>
    refine ⟨rfl, fun e => (by cases e), ?_⟩
    simpa [State.owed, pc, Pc.committed] using owed
  | fired r pc set =>
    refine ⟨rfl, fun _ => set, ?_⟩
    simpa [State.owed, pc, Pc.committed] using owed
  | clear r pc =>
    have full := armed pc
    refine ⟨by dsimp only; split <;> rfl, fun e => ?_, ?_⟩
    · dsimp only at e; split at e <;> cases e
    · cases b.debug <;> simpa [State.owed, pc, Pc.committed, full, sent, Event.isWrote] using owed
  | now0 r pc =>
    refine ⟨rfl, fun e => (by cases e), ?_⟩
    simpa [State.owed, pc, Pc.committed] using owed
  | write r pc =>
    refine ⟨by dsimp only; split <;> rfl, fun e => ?_, ?_⟩
    · dsimp only at e; split at e <;> cases e
    · simp only [State.owed, pc, Pc.committed, Bool.toNat_true] at owed
      cases b.debug <;> simp only [sent_append, wrote, State.owed, Pc.committed, ↓reduceIte,
        Bool.false_eq_true, Bool.toNat_false] <;> omega
  | now1 r pc =>
    refine ⟨rfl, fun e => (by cases e), ?_⟩
    simpa [State.owed, pc, Pc.committed, (tookEvents_silent b s.t0 r.out).sent] using owed
  | close r pc =>
    refine ⟨rfl, fun e => (by cases e), ?_⟩
    simpa [State.owed, pc, Pc.committed, (closeEvents_counts b s.serialFd r).2.2.2.1] using owed
  | enter sig hd | kill sig bare => exact ⟨setup, armed, by simpa [State.owed] using owed⟩
  | tick rest top =>
    refine ⟨setup, fun _ => rfl, ?_⟩
    have := s.trigger.toNat_le
    simp only [State.owed, sent_append, Bool.toNat_true] at owed ⊢
    omega
  | interrupt rest top =>
    exact ⟨setup, armed, by simpa [State.owed, sent, Event.isWrote] using owed⟩

theorem looping_backwards {b : Build} {args : ArgsInfo} {s t : State} {out : List Event}
    {a : Act} (setup : s.pc.setup = false) (hs : step b args s a = some (t, out))
    (looping : t.looping) : s.looping := by
  have alive := step_alive hs
  simp only [State.over, Bool.or_eq_false_iff, Option.isSome_eq_false_iff,
    Option.isNone_iff_eq_none] at alive
  refine ⟨?_, alive.2⟩
  obtain ⟨inside, -⟩ := looping
  cases step_move hs with
  | call c r pc | encode r pc => rw [pc] at setup; cases setup
  | stay r pc | leave r pc | slept r pc | fired r pc | quiet r pc | clear r pc | now0 r pc
  | write r pc | now1 r pc | uncounted r pc | counted r pc | «break» r pc => rw [pc]; rfl
  | close r pc => cases inside
  | enter | kill | tick | interrupt => exact inside

/-- A step of `main` that neither sends what is owed nor leaves the loop brings
the next write nearer; the handlers push nothing back. -/
theorem rank_step {b : Build} {args : ArgsInfo} {target : Nat} {s t : State}
    {tr out : List Event} {a : Act} (h : OwedInv target s tr)
    (hs : step b args s a = some (t, out)) (looping : t.looping) :
    target ≤ sent (tr ++ out) ∨
      8 * (target - sent (tr ++ out) - 1) + t.pc.toWrite + (if a.isMain then 1 else 0) ≤
        8 * (target - sent tr - 1) + s.pc.toWrite := by
  obtain ⟨setup, armed, owed⟩ := h
  obtain ⟨inside, killed⟩ := looping
  have wrote (m : MidiMsg) (r : Int) : sent [.wrote m r] = 1 := rfl
  cases step_move hs with
  | call c r pc | encode r pc => rw [pc] at setup; cases setup
  | leave r pc | «break» r pc | close r pc => cases inside
  | quiet r pc unset =>
    -- a clear flag in front of the test: nothing is owed
    left
    simp only [State.owed, pc, unset, Pc.committed, Bool.toNat_false] at owed
    simp only [sent_append]
    omega
  | stay r pc | slept r pc | fired r pc | uncounted r pc | counted r pc | now0 r pc =>
    right; simp [pc, Pc.toWrite, Act.isMain]
  | clear r pc =>
    right
    cases b.debug <;> simp [pc, Pc.toWrite, Act.isMain, sent, Event.isWrote]
  | write r pc =>
    rw [sent_append, wrote]
    by_cases reached : target ≤ sent tr + 1
    · exact .inl reached
    · right
      cases b.debug <;> simp only [pc, Pc.toWrite, Act.isMain, ↓reduceIte, Bool.false_eq_true] <;>
        omega
  | now1 r pc =>
    right
    simp [pc, Pc.toWrite, Act.isMain, (tookEvents_silent b s.t0 r.out).sent]
  | enter | kill | tick | interrupt => right; simp [Act.isMain, sent, Event.isWrote]

/-- What the loop owes it sends: eight steps of `main` for each message are
enough, however the handlers run in between, unless the loop is left. -/
theorem owed_sent {b : Build} {args : ArgsInfo} {s t : State} {acts : List Act}
    {tr : List Event} (inside : s.pc.inLoop = true)
    (armed : s.pc = .clearTrigger → s.trigger = true)
    (h : run (step b args) s acts = some (t, tr)) (looping : t.looping)
    (enough : 8 * s.owed ≤ acts.countP Act.isMain) : s.owed ≤ sent tr := by
  by_cases owesNone : s.owed = 0
  · omega
  have h0 : OwedInv s.owed s [] :=
    ⟨by revert inside; cases s.pc <;> simp [Pc.inLoop, Pc.setup], armed, by simp [sent]⟩
  have near : s.pc.toWrite ≤ 8 := by cases s.pc <;> simp [Pc.toWrite]
  have start : 8 * (s.owed - sent [] - 1) + s.pc.toWrite ≤ acts.countP Act.isMain := by
    have : sent [] = 0 := rfl
    omega
  have progress := run_progress (OwedInv s.owed) (fun _ tr => s.owed ≤ sent tr) State.looping
    (fun u tr => 8 * (s.owed - sent tr - 1) + u.pc.toWrite) Act.isMain
    (fun _ _ _ _ _ hi hs => owedInv_step hi hs)
    (fun _ _ _ _ _ hi hs hl => looping_backwards hi.setup hs hl)
    (fun _ _ _ _ _ goal _ => by simp only [sent_append]; omega)
    (fun _ _ _ _ _ hi hs hl => rank_step hi hs hl)
    (fun u _ _ hl _ => by
      have inside := hl.1
      revert inside
      cases u.pc <;> simp [Pc.inLoop, Pc.toWrite])
    h0 h looping start
  simpa using progress

/-! ## A run into the loop -/

/-- The answer of a call that succeeds. -/
def okSys : Sys := ⟨0, 0, 1⟩

/-- Every call up to the loop succeeds and no signal arrives. -/
def boot : List Act := List.replicate 15 (.main okSys)

/-- The tapper in front of its first loop test, after `boot`. -/
def loopHead (args : ArgsInfo) : State :=
  { start with
    pc := .testRunning, serialFd := 0, midiMsg := midiMsg args, isChr := true, ttyRead := true
    timerInstalled := true, intInstalled := true }

/-- `main`'s check of the channel. -/
def ChannelOk (args : ArgsInfo) : Prop := ¬(args.channel.arg < 0 ∨ args.channel.arg > 15)

instance (args : ArgsInfo) : Decidable (ChannelOk args) := inferInstanceAs (Decidable (¬_))

/-- What `boot` shows. -/
def bootTrace (b : Build) (args : ArgsInfo) : List Event :=
  [.called .stat true, .called .sIsChr true, .called .checkChannel true] ++ encodeEvents b args ++
  [.called .openSerial true, .stdout ("Serial port is open (".toList ++ fmtInt 0 ++ ")\n".toList),
    .called .tcgetattr true, .called .cfsetispeed true, .called .cfsetospeed true,
    .called .tcsetattr true, .applied true, .called .sigactionTimer true,
    .called .sigactionInt true, .called .sigprocmaskBlock true, .called .timerCreate true,
    .stdout ("timer ID is 0x".toList ++ fmtHex (1 % 2 ^ b.longBits : Int).toNat ++ "\n".toList),
    .called .timerSettime true, .called .sigprocmaskUnblock true]

theorem bootTrace_silent (b : Build) (args : ArgsInfo) : Silent (bootTrace b args) := by
  apply Silent.append
  · apply Silent.append _ (encodeEvents_silent b args)
    simp [Silent, Event.ofLoop]
  · simp [Silent, Event.ofLoop]

theorem boot_run (b : Build) (args : ArgsInfo) (ok : ChannelOk args) :
    run (step b args) start boot = some (loopHead args, bootTrace b args) := by
  unfold ChannelOk at ok
  simp [boot, List.replicate, run, step, start, State.over, Pc.exits, mainStep, callStep, orFail,
    okSys, ok, loopHead, bootTrace]

/-- In front of the loop test, with nothing pending. -/
structure AtHead (s : State) : Prop where
  pc : s.pc = .testRunning
  running : s.running = true
  trigger : s.trigger = false
  frames : s.frames = []
  alive : s.killedBy = none
  installed : s.timerInstalled = true

theorem loopHead_atHead (args : ArgsInfo) : AtHead (loopHead args) :=
  ⟨rfl, rfl, rfl, rfl, rfl, rfl⟩

/-- One tick, and `main` up to the end of a write that takes all three bytes. -/
def tap (b : Build) : List Act :=
  [.signal .sigrtmin, .handler] ++ List.replicate (if b.debug then 6 else 5) (.main ⟨3, 0, 0⟩)

/-- The state that `tap` leads to. -/
def tapped (b : Build) (s : State) : State :=
  { s with
    pc := if b.debug then .now1 else .checkRepeats
    t0 := if b.debug then 0 else s.t0 }

theorem tap_run (b : Build) (args : ArgsInfo) {s : State} (h : AtHead s) :
    run (step b args) s (tap b) =
      some (tapped b s, [.tick false, .cleared, .wrote s.midiMsg 3]) := by
  obtain ⟨pc, running, trigger, frames, alive, installed⟩ := h
  cases debug : b.debug <;>
    simp [tap, tapped, debug, List.replicate, run, step, State.over, Pc.exits, alive, pc, frames,
      State.handlerFor, installed, handlerTimer, trigger, mainStep, running]

/-! ## The conservation law -/

/-- **Conservation of ticks.** Every run of `handler_timer` has led to a
message, was merged with a tick not cleared yet, waits in `trigger`, or stands
between the clear and its write. A tick that arrives while the loop runs is
followed by a message of its own, and by the one under way as well, unless the
loop is left: at the latest sixteen steps of `main` later. -/
theorem ticks_conserved (b : Build) (args : ArgsInfo) {acts : List Act} {s : State}
    {tr : List Event} (h : run (step b args) start acts = some (s, tr)) :
    ticks tr = sent tr + merged tr + s.trigger.toNat + s.pc.committed.toNat ∧
    sent tr ≤ ticks tr ∧
    (∀ t out, step b args s .handler = some (t, out) → .tick true ∈ out → Uncleared tr) ∧
    (∀ t m, step b args s .handler = some (t, [.tick m]) → s.pc.inLoop = true →
      ∀ later u tr', run (step b args) t later = some (u, tr') → u.looping →
        16 ≤ later.countP Act.isMain → 1 + s.pc.committed.toNat ≤ sent tr') := by
  have inv := reachable_loopInv h
  have law := Slot.conserved inv.slot
  have taken := inv.taken
  simp only [slot] at law
  refine ⟨by omega, by omega, ?_, ?_⟩
  · intro t out hs mem
    cases step_move hs with
    | tick rest top =>
      rw [List.mem_singleton, Event.tick.injEq] at mem
      exact inv.uncleared mem.symm
    | interrupt rest top => simp at mem
  · intro t m hs inside later u tr' hr looping enough
    generalize hout : [Event.tick m] = out at hs
    cases step_move hs with
    | tick rest top =>
      have bound := s.pc.committed.toNat_le
      have owed : State.owed { s with frames := rest, trigger := true } =
          1 + s.pc.committed.toNat := rfl
      have reach : 8 * State.owed { s with frames := rest, trigger := true } ≤
          later.countP Act.isMain := by omega
      exact owed ▸ owed_sent inside (fun _ => rfl) hr looping reach
    | interrupt rest top => cases hout

/-- One tick on a fresh tapper, seen up to its write. -/
theorem ticks_conserved_tap :
    ∃ s tr, run (step (Build.plain false) Cmdline.cmdlineParserInit) start
        (boot ++ tap (Build.plain false)) = some (s, tr) ∧
      ticks tr = 1 ∧ ticks tr = sent tr + merged tr + s.trigger.toNat + s.pc.committed.toNat := by
  have booted := boot_run (Build.plain false) Cmdline.cmdlineParserInit (by decide)
  have tapped := tap_run (Build.plain false) Cmdline.cmdlineParserInit
    (loopHead_atHead Cmdline.cmdlineParserInit)
  have both := run_append.mpr ⟨_, _, _, booted, tapped, rfl⟩
  refine ⟨_, _, both, ?_, (ticks_conserved _ _ both).1⟩
  rw [ticks_append, (bootTrace_silent _ _).ticks]
  rfl

end MidiGw.Tapper
