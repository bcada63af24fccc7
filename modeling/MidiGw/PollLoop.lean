import Mathlib.Data.List.Chain
import MidiGw.Rollover
import MidiGw.Runs

/-!
# Tapping by the hardware counter

The polling loops of `ttt.c`, `old.midi.c` and the system timer part of
`tapper.c`. The counter counts on without end and is read as 32 bits; the
deadline `next` is computed in 32 bits, and the two are compared as they are.
-/

namespace MidiGw.PollLoop

open Rollover (mod_le_iff_period)
open Runs (run run_invariant)

/-- What tells the three loops apart. -/
structure Loop where
  delay : UInt32
  /-- `sendCC` stands in front of the new deadline, not behind it -/
  sendsFirst : Bool
  /-- the condition of `while` is `running`, not 1 -/
  stoppable : Bool
  deriving DecidableEq, Repr

/-- `ttt.c`; the delay is what `us_to_st` makes of 526316. -/
def ttt (delayTt : UInt32) : Loop := ⟨delayTt, false, false⟩

def oldMidi : Loop := ⟨526316, true, true⟩

/-- The system timer part of `tapper.c`. Its message is the line `Boom`; the
call of `sendCC` behind it is commented out. -/
def tapperSystemTimer : Loop := ⟨526316, true, true⟩

inductive Pc where
  | arm | whileTest | ifTest | send | rearm | closeSerial
  deriving DecidableEq, Repr

structure State where
  pc : Pc
  running : Bool
  next : UInt32
  /-- the count at the reading that `next` was computed from; no step reads it -/
  armed : Nat
  deriving DecidableEq, Repr

def start : State := ⟨.arm, true, 0, 0⟩

inductive Event where
  /-- a reading that `next` was computed from -/
  | armed (count : Nat)
  /-- a reading in `if (counter >= next)`, with the count behind `next` -/
  | tested (armed count : Nat) (fires : Bool)
  | sent
  deriving DecidableEq, Repr

inductive Act where
  /-- the next step of `main`; where it reads the counter, that is at `count` -/
  | main (count : Nat)
  | interrupt
  deriving DecidableEq, Repr

/-- `counter + delay` in 32 bits. -/
def deadline (l : Loop) (s : State) (count : Nat) : State :=
  { s with next := UInt32.ofNat count + l.delay, armed := count }

def mainStep (l : Loop) (s : State) (count : Nat) : Option (State × List Event) :=
  match s.pc with
  | .arm => some ({ deadline l s count with pc := .whileTest }, [.armed count])
  | .whileTest =>
    some ({ s with pc := if s.running then .ifTest else .closeSerial }, [])
  | .ifTest =>
    if UInt32.ofNat count ≥ s.next then
      some ({ s with pc := if l.sendsFirst then .send else .rearm },
        [.tested s.armed count true])
    else some ({ s with pc := .whileTest }, [.tested s.armed count false])
  | .send => some ({ s with pc := if l.sendsFirst then .rearm else .whileTest }, [.sent])
  | .rearm =>
    some ({ deadline l s count with pc := if l.sendsFirst then .whileTest else .send },
      [.armed count])
  | .closeSerial => none

/-- One atomic step; `int_handler` is installed where `running` is watched. -/
def step (l : Loop) : Runs.Step State Act Event
  | s, .main count => mainStep l s count
  | s, .interrupt => if l.stoppable then some ({ s with running := false }, []) else none

/-! ## Readings and messages -/

def Event.reading : Event → Option Nat
  | .armed count => some count
  | .tested _ count _ => some count
  | .sent => none

/-- The counts at which the counter was read. -/
def readings (tr : List Event) : List Nat := tr.filterMap Event.reading

@[simp] theorem readings_append (a b : List Event) :
    readings (a ++ b) = readings a ++ readings b := List.filterMap_append

/-- The counter never goes back, and is read again before half a period is over. -/
def Paced (tr : List Event) : Prop :=
  (readings tr).IsChain fun a b => a ≤ b ∧ b < a + 2 ^ 31

theorem Paced.forward {tr : List Event} (h : Paced tr) : (readings tr).Pairwise (· ≤ ·) :=
  List.isChain_iff_pairwise.mp (h.imp fun _ _ both => both.1)

def Event.isSent : Event → Bool
  | .sent => true
  | _ => false

def Event.fires : Event → Bool
  | .tested _ _ fires => fires
  | _ => false

def sent (tr : List Event) : Nat := tr.countP Event.isSent

/-- Tests that let a message through. -/
def fired (tr : List Event) : Nat := tr.countP Event.fires

/-- Behind a test that has fired, with its message still to be sent. -/
def owed (l : Loop) : Pc → Nat
  | .send => 1
  | .rearm => if l.sendsFirst then 0 else 1
  | _ => 0

/-- No message comes early, and none is left out at a reading that is late by
less than half a period. -/
def Punctual (l : Loop) (tr : List Event) : Prop :=
  ∀ armed count fires, .tested armed count fires ∈ tr →
    (count < armed + l.delay.toNat → fires = false) ∧
    (armed + l.delay.toNat ≤ count → count < armed + l.delay.toNat + 2 ^ 31 → fires = true)

/-- No rollover of the counter lies between a test and its deadline. -/
def InPeriod (l : Loop) (tr : List Event) : Prop :=
  ∀ armed count fires, .tested armed count fires ∈ tr →
    count < armed + l.delay.toNat + 2 ^ 31 →
      (armed + l.delay.toNat) / 2 ^ 32 = count / 2 ^ 32

/-! ## What the tests decide -/

structure LoopInv (l : Loop) (s : State) (tr : List Event) : Prop where
  next : s.pc ≠ .arm → s.next.toNat = (s.armed + l.delay.toNat) % 2 ^ 32
  tests : ∀ armed count fires, .tested armed count fires ∈ tr →
    (fires = true ↔ (armed + l.delay.toNat) % 2 ^ 32 ≤ count % 2 ^ 32)
  read : s.armed = 0 ∨ s.armed ∈ readings tr
  forward : (readings tr).Pairwise (· ≤ ·) → ∀ armed count fires,
    .tested armed count fires ∈ tr → armed ≤ count
  messages : sent tr + owed l s.pc = fired tr

/-- A step that reads nothing. -/
theorem LoopInv.quiet {l : Loop} {s t : State} {tr out : List Event} (h : LoopInv l s tr)
    (unread : ∀ e ∈ out, e = .sent) (began : s.pc ≠ .arm) (next : t.next = s.next)
    (armed : t.armed = s.armed)
    (messages : sent (tr ++ out) + owed l t.pc = fired (tr ++ out)) : LoopInv l t (tr ++ out) := by
  have without : readings out = [] := by
    rw [readings, List.filterMap_eq_nil_iff]
    intro e mem
    rw [unread e mem]
    rfl
  have old {e : Event} (mem : e ∈ tr ++ out) (other : e ≠ .sent) : e ∈ tr :=
    (List.mem_append.mp mem).resolve_right fun new => other (unread e new)
  constructor
  · intro _
    rw [next, armed]
    exact h.next began
  · intro armed count fires mem
    exact h.tests armed count fires (old mem (by intro e; cases e))
  · rw [readings_append, without, List.append_nil, armed]
    exact h.read
  · intro fwd armed count fires mem
    rw [readings_append, without, List.append_nil] at fwd
    exact h.forward fwd armed count fires (old mem (by intro e; cases e))
  · exact messages

/-- A step that computes `next` anew. -/
theorem LoopInv.rearmed {l : Loop} {s : State} {tr : List Event} {count : Nat} (h : LoopInv l s tr)
    (pc : Pc) (same : owed l pc = owed l s.pc) :
    LoopInv l { deadline l s count with pc := pc } (tr ++ [.armed count]) := by
  have old {armed c : Nat} {fires : Bool} (mem : .tested armed c fires ∈ tr ++ [.armed count]) :
      .tested armed c fires ∈ tr := by simpa using mem
  constructor
  · intro _
    simp only [deadline, UInt32.toNat_add, UInt32.toNat_ofNat', Nat.mod_add_mod]
  · intro armed c fires mem
    exact h.tests armed c fires (old mem)
  · right
    simp [deadline, readings, Event.reading]
  · intro fwd armed c fires mem
    rw [readings_append] at fwd
    exact h.forward (List.pairwise_append.mp fwd).1 armed c fires (old mem)
  · have messages := h.messages
    simp only [sent, fired, List.countP_append] at messages ⊢
    rw [same]
    exact messages

/-- A test at a reading. -/
theorem LoopInv.tested {l : Loop} {s : State} {tr : List Event} {count : Nat} {fires : Bool}
    (h : LoopInv l s tr) (here : s.pc = .ifTest)
    (decides : fires = true ↔ UInt32.ofNat count ≥ s.next) (pc : Pc)
    (owes : owed l pc = fires.toNat) :
    LoopInv l { s with pc := pc } (tr ++ [.tested s.armed count fires]) := by
  have began : s.pc ≠ .arm := by rw [here]; intro e; cases e
  have deadline := h.next began
  constructor
  · intro _
    exact deadline
  · intro armed c f mem
    cases List.mem_append.mp mem with
    | inl mem => exact h.tests armed c f mem
    | inr mem =>
      rw [List.mem_singleton, Event.tested.injEq] at mem
      obtain ⟨rfl, rfl, rfl⟩ := mem
      rw [decides, ge_iff_le, UInt32.le_iff_toNat_le, deadline, UInt32.toNat_ofNat']
  · exact h.read.imp id fun mem => by rw [readings_append]; exact List.mem_append_left _ mem
  · intro fwd armed c f mem
    rw [readings_append] at fwd
    obtain ⟨before, -, last⟩ := List.pairwise_append.mp fwd
    cases List.mem_append.mp mem with
    | inl mem => exact h.forward before armed c f mem
    | inr mem =>
      rw [List.mem_singleton, Event.tested.injEq] at mem
      obtain ⟨rfl, rfl, rfl⟩ := mem
      cases h.read with
      | inl zero => omega
      | inr mem => exact last s.armed mem c (by simp [readings, Event.reading])
  · have messages := h.messages
    rw [here] at messages
    simp only [sent, fired, List.countP_append] at messages ⊢
    rw [owes]
    cases fires <;> simpa [Event.isSent, Event.fires, owed] using messages

theorem loopInv_step {l : Loop} {s t : State} {tr out : List Event} {a : Act}
    (h : LoopInv l s tr) (hs : step l s a = some (t, out)) : LoopInv l t (tr ++ out) := by
  cases a with
  | interrupt =>
    simp only [step] at hs
    split at hs
    · cases hs
      exact ⟨h.next, by simpa using h.tests, by simpa using h.read, by simpa using h.forward,
        by simpa using h.messages⟩
    · cases hs
  | main count =>
    have messages := h.messages
    simp only [step, mainStep] at hs
    split at hs
    case h_1 pc => cases hs; exact h.rearmed .whileTest (by rw [pc]; rfl)
    case h_2 pc =>
      cases hs
      refine h.quiet (by simp) (by rw [pc]; intro e; cases e) rfl rfl ?_
      rw [pc] at messages
      cases s.running <;> simpa [owed] using messages
    case h_3 pc =>
      split at hs
      · rename_i due
        cases hs
        apply h.tested pc (by simp [due])
        cases order : l.sendsFirst <;> simp [owed, order]
      · rename_i early
        cases hs
        exact h.tested pc (by simp only [Bool.false_eq_true, early]) .whileTest rfl
    case h_4 pc =>
      cases hs
      refine h.quiet (by simp) (by rw [pc]; intro e; cases e) rfl rfl ?_
      rw [pc] at messages
      cases order : l.sendsFirst <;>
        simpa [sent, fired, Event.isSent, Event.fires, owed, order] using messages
    case h_5 pc =>
      cases hs
      apply h.rearmed
      rw [pc]
      cases order : l.sendsFirst <;> simp [owed, order]
    case h_6 => cases hs

theorem reachable_loopInv {l : Loop} {acts : List Act} {s : State} {tr : List Event}
    (h : run (step l) start acts = some (s, tr)) : LoopInv l s tr := by
  have h0 : LoopInv l start [] :=
    ⟨fun began => absurd rfl began, by simp, .inl rfl, by simp, rfl⟩
  simpa using run_invariant (LoopInv l) h0 h fun _ _ _ _ _ hi hs => loopInv_step hi hs

/-! ## When the taps are punctual -/

/-- **The counter's wrap.** Every test that fires is followed by its message.
The messages of a run are punctual if and only if the counter never rolls over
between a test and the deadline it is held against. -/
theorem punctual_iff (l : Loop) {acts : List Act} {s : State} {tr : List Event}
    (h : run (step l) start acts = some (s, tr)) (paced : Paced tr) :
    sent tr + owed l s.pc = fired tr ∧ (Punctual l tr ↔ InPeriod l tr) := by
  have inv := reachable_loopInv h
  have delay := l.delay.toNat_lt
  refine ⟨inv.messages, ?_⟩
  -- a test and its deadline are less than a period apart
  have decided (armed count : Nat) (fires : Bool) (mem : .tested armed count fires ∈ tr)
      (near : count < armed + l.delay.toNat + 2 ^ 31) :
      (fires = true ↔ armed + l.delay.toNat ≤ count) ↔
        (armed + l.delay.toNat) / 2 ^ 32 = count / 2 ^ 32 := by
    have fwd := inv.forward paced.forward armed count fires mem
    rw [inv.tests armed count fires mem]
    exact mod_le_iff_period (by omega) (by omega)
  constructor
  · intro punctual armed count fires mem near
    obtain ⟨early, late⟩ := punctual armed count fires mem
    apply (decided armed count fires mem near).mp
    constructor
    · intro fire
      by_contra before
      rw [early (Nat.lt_of_not_le before)] at fire
      cases fire
    · exact fun due => late due near
  · intro period armed count fires mem
    constructor
    · intro before
      have near : count < armed + l.delay.toNat + 2 ^ 31 := by omega
      have right := (decided armed count fires mem near).mpr (period armed count fires mem near)
      rw [Bool.eq_false_iff, Ne, right]
      omega
    · intro due near
      exact ((decided armed count fires mem near).mpr (period armed count fires mem near)).mpr due

/-- A poll too early, and one in time. -/
def inTime : List Act :=
  [.main 1000, .main 0, .main 1500, .main 0, .main 527316, .main 0]

theorem punctual_inTime :
    ∃ s, run (step oldMidi) start inTime =
        some (s, [.armed 1000, .tested 1000 1500 false, .tested 1000 527316 true, .sent]) ∧
      Punctual oldMidi
        [.armed 1000, .tested 1000 1500 false, .tested 1000 527316 true, .sent] := by
  have h : ∃ s, run (step oldMidi) start inTime =
      some (s, [.armed 1000, .tested 1000 1500 false, .tested 1000 527316 true, .sent]) :=
    ⟨_, rfl⟩
  obtain ⟨s, h⟩ := h
  refine ⟨s, h, (punctual_iff oldMidi h ?_).2.mpr ?_⟩
  · show [1000, 1500, 527316].IsChain fun a b => a ≤ b ∧ b < a + 2 ^ 31
    simp
  · intro armed count fires mem near
    simp only [List.mem_cons, reduceCtorEq, Event.tested.injEq, List.not_mem_nil, or_false,
      false_or] at mem
    obtain ⟨rfl, rfl, -⟩ | ⟨rfl, rfl, -⟩ := mem
    · rfl
    · rfl

/-- A deadline behind the wrap: the next poll, one tick later, sends already. -/
theorem not_punctual :
    ¬∀ (l : Loop) (acts : List Act) (s : State) (tr : List Event),
      1 ≤ l.delay.toNat → l.delay.toNat < 2 ^ 31 →
      run (step l) start acts = some (s, tr) → Paced tr → Punctual l tr := by
  intro punctual
  have early := punctual oldMidi [.main 4294967000, .main 0, .main 4294967001] _ _ (by decide)
    (by decide) rfl (by simp [Paced, readings, Event.reading])
  have fires := (early 4294967000 4294967001 true (by decide)).1 (by decide)
  cases fires

end MidiGw.PollLoop
