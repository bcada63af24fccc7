import MidiGw.Drift
import MidiGw.Runs

/-!
# Tapping by the clock's nanoseconds

The polling loops of `clock.c` and of the clock part of `tapper.c`: a message is
due when the nanoseconds of the clock, without its seconds, are far enough from
those of the message before. How fast and how slow such a loop can tap.
-/

namespace MidiGw.ClockLoop

open Drift (getNowNs waited waited_eq)
open Runs (Along run run_invariant_along)

/-- What tells the two loops apart. -/
structure Loop where
  delay : Nat
  /-- the condition of `while` is `running`, not 1 -/
  stoppable : Bool
  /-- `usleep` ends an iteration, and `sleep(5)` stands behind every eighth message -/
  backsOff : Bool
  deriving DecidableEq, Repr

/-- The clock part of `tapper.c`. -/
def tapperClock : Loop := ⟨526316000, true, true⟩

/-- `clock.c`; its message is the line `Boom`. `main` calls `peek` in front of
the loop, which only returns once its own loop is taken out. -/
def clock : Loop := ⟨526316000, false, false⟩

inductive Pc where
  | first | whileTest | ifTest | send | count | pause | usleep | closeSerial
  deriving DecidableEq, Repr

structure State where
  pc : Pc
  running : Bool
  last : ℤ
  i : Nat
  /-- when the latest step was taken, when the clock was read last, and when
  `last` was read; no step depends on them -/
  time : Nat
  read : Nat
  marked : Nat
  deriving DecidableEq, Repr

def start : State := ⟨.first, true, 0, 0, 0, 0, 0⟩

inductive Event where
  /-- the first reading of `last` -/
  | started (t : Nat)
  /-- a reading in `if (diff >= delay)`, with the reading that `last` holds -/
  | tested (marked t : Nat) (fires : Bool)
  | sent
  deriving DecidableEq, Repr

inductive Act where
  /-- the next step of `main`, at a time in nanoseconds; a sleep ends then -/
  | main (t : Nat)
  | interrupt
  deriving DecidableEq, Repr

def State.stepTo (s : State) (pc : Pc) (t : Nat) : State := { s with pc := pc, time := t }

/-- The clock is read, and `last` is that reading. -/
def State.mark (s : State) (pc : Pc) (t : Nat) : State :=
  { s with pc := pc, last := getNowNs t, time := t, read := t, marked := t }

def mainStep (l : Loop) (s : State) (t : Nat) : Option (State × List Event) :=
  match s.pc with
  | .first => some (s.mark .whileTest t, [.started t])
  | .whileTest => some (s.stepTo (if s.running then .ifTest else .closeSerial) t, [])
  | .ifTest =>
    if waited s.last (getNowNs t) ≥ l.delay then
      some (s.mark .send t, [.tested s.marked t true])
    else
      some ({ s.stepTo (if l.backsOff then .usleep else .whileTest) t with read := t },
        [.tested s.marked t false])
  | .send => some (s.stepTo (if l.backsOff then .count else .whileTest) t, [.sent])
  | .count =>
    if (s.i + 1) % 8 = 0 then some ({ s.stepTo .pause t with i := 0 }, [])
    else some ({ s.stepTo .usleep t with i := s.i + 1 }, [])
  | .pause => some (s.stepTo .usleep t, [])
  | .usleep => some (s.stepTo .whileTest t, [])
  | .closeSerial => none

/-- One atomic step; `int_handler` is installed where `running` is watched. -/
def step (l : Loop) : Runs.Step State Act Event
  | s, .main t => mainStep l s t
  | s, .interrupt => if l.stoppable then some ({ s with running := false }, []) else none

/-! ## Times -/

/-- Time goes on, and `sleep(5)` is cut short by the interrupt only. -/
def Timed (s : State) (_ : List Event) : Act → Prop
  | .main t =>
    s.time ≤ t ∧ (s.pc = .pause → s.running = true → s.time + 5000000000 ≤ t)
  | .interrupt => True

/-- As `Timed`, with every poll less than `g` behind the reading before it. -/
def Prompt (g : Nat) (s : State) (seen : List Event) : Act → Prop
  | .main t => Timed s seen (.main t) ∧ (s.pc = .ifTest → t < s.read + g)
  | .interrupt => True

theorem Prompt.timed {g : Nat} {s : State} {seen : List Event} {a : Act}
    (prompt : Prompt g s seen a) : Timed s seen a := by
  cases a with
  | main t => exact prompt.1
  | interrupt => trivial

/-- The readings that `last` was set to: the first one, and one for each message. -/
def Event.mark : Event → Option Nat
  | .started t => some t
  | .tested _ t true => some t
  | .tested _ _ false | .sent => none

def marks (tr : List Event) : List Nat := tr.filterMap Event.mark

@[simp] theorem marks_append (a b : List Event) : marks (a ++ b) = marks a ++ marks b :=
  List.filterMap_append

def Event.isSent : Event → Bool
  | .sent => true
  | _ => false

def sent (tr : List Event) : Nat := tr.countP Event.isSent

/-- A relation between each mark, by its position, and the one behind it. -/
def Gaps (ok : Nat → Nat → Nat → Prop) (ms : List Nat) : Prop :=
  ∀ n a b, ms[n]? = some a → ms[n + 1]? = some b → ok n a b

theorem Gaps.concat {ok : Nat → Nat → Nat → Prop} {ms : List Nat} {m t : Nat} (h : Gaps ok ms)
    (last : ms.getLast? = some m) (next : ok (ms.length - 1) m t) : Gaps ok (ms ++ [t]) := by
  intro n a b here there
  have ends : n + 1 < (ms ++ [t]).length := (List.getElem?_eq_some_iff.mp there).1
  simp only [List.length_append, List.length_singleton] at ends
  rw [List.getElem?_append_left (by omega)] at here
  by_cases inside : n + 1 < ms.length
  · rw [List.getElem?_append_left inside] at there
    exact h n a b here there
  · have bound : n = ms.length - 1 := by omega
    rw [List.getLast?_eq_getElem?, ← bound, here] at last
    have new : n + 1 = ms.length := by omega
    rw [new, List.getElem?_concat_length] at there
    cases last
    cases there
    rwa [bound]

/-- What holds of the first mark and is handed on along every gap. -/
theorem Gaps.reach {ok : Nat → Nat → Nat → Prop} {ms : List Nat} (h : Gaps ok ms)
    {P : Nat → Nat → Prop} (first : ∀ a, ms[0]? = some a → P 0 a)
    (next : ∀ n a b, P n a → ok n a b → P (n + 1) b) :
    ∀ n t, ms[n]? = some t → P n t := by
  intro n
  induction n with
  | zero => exact first
  | succ n ih =>
    intro t here
    have inside : n < ms.length := by
      have := (List.getElem?_eq_some_iff.mp here).1
      omega
    have before := List.getElem?_eq_getElem inside
    exact next n _ t (ih _ before) (h n _ t before here)

theorem gaps_single (ok : Nat → Nat → Nat → Prop) (t : Nat) : Gaps ok [t] := by
  intro n a b here there
  simp at there

/-! ## What a step can do -/

inductive Move (l : Loop) (s : State) : Act → State → List Event → Prop
  | first (t : Nat) (here : s.pc = .first) :
      Move l s (.main t) (s.mark .whileTest t) [.started t]
  | enter (t : Nat) (here : s.pc = .whileTest) (runs : s.running = true) :
      Move l s (.main t) (s.stepTo .ifTest t) []
  | leave (t : Nat) (here : s.pc = .whileTest) :
      Move l s (.main t) (s.stepTo .closeSerial t) []
  | fire (t : Nat) (here : s.pc = .ifTest) (due : waited s.last (getNowNs t) ≥ l.delay) :
      Move l s (.main t) (s.mark .send t) [.tested s.marked t true]
  | wait (t : Nat) (here : s.pc = .ifTest) (early : ¬waited s.last (getNowNs t) ≥ l.delay) :
      Move l s (.main t) { s.stepTo (if l.backsOff then .usleep else .whileTest) t with read := t }
        [.tested s.marked t false]
  | send (t : Nat) (here : s.pc = .send) :
      Move l s (.main t) (s.stepTo (if l.backsOff then .count else .whileTest) t) [.sent]
  | eighth (t : Nat) (here : s.pc = .count) (eight : (s.i + 1) % 8 = 0) :
      Move l s (.main t) { s.stepTo .pause t with i := 0 } []
  | count (t : Nat) (here : s.pc = .count) (fewer : (s.i + 1) % 8 ≠ 0) :
      Move l s (.main t) { s.stepTo .usleep t with i := s.i + 1 } []
  | pause (t : Nat) (here : s.pc = .pause) : Move l s (.main t) (s.stepTo .usleep t) []
  | usleep (t : Nat) (here : s.pc = .usleep) : Move l s (.main t) (s.stepTo .whileTest t) []
  | interrupt : Move l s .interrupt { s with running := false } []

theorem step_move {l : Loop} {s u : State} {a : Act} {out : List Event}
    (hs : step l s a = some (u, out)) : Move l s a u out := by
  cases a with
  | interrupt =>
    simp only [step] at hs
    split at hs
    · cases hs; exact .interrupt
    · cases hs
  | main t =>
    simp only [step, mainStep] at hs
    split at hs
    case h_1 here => cases hs; exact .first t here
    case h_2 here =>
      cases hs
      cases runs : s.running with
      | true => exact .enter t here runs
      | false => exact .leave t here
    case h_3 here =>
      split at hs
      · rename_i due; cases hs; exact .fire t here due
      · rename_i early; cases hs; exact .wait t here early
    case h_4 here => cases hs; exact .send t here
    case h_5 here =>
      split at hs
      · rename_i eight; cases hs; exact .eighth t here eight
      · rename_i fewer; cases hs; exact .count t here fewer
    case h_6 here => cases hs; exact .pause t here
    case h_7 here => cases hs; exact .usleep t here
    case h_8 => cases hs

/-! ## How fast the loop can be -/

/-- The time that a full pause puts behind the `n`-th message. -/
def rest (l : Loop) (n : Nat) : Nat := if l.backsOff = true ∧ 0 < n ∧ n % 8 = 0 then 5000000000 else 0

/-- A message that has been decided on and not been sent. -/
def owed : Pc → Nat
  | .send => 1
  | _ => 0

/-- A message that has been decided on and not been counted. -/
def uncounted : Pc → Nat
  | .send | .count => 1
  | _ => 0

/-- Between two messages, with no pause ahead. -/
def Rested (s : State) : Prop :=
  s.pc = .ifTest ∨ s.running = true ∧ (s.pc = .usleep ∨ s.pc = .whileTest)

structure LoopInv (l : Loop) (s : State) (tr : List Event) : Prop where
  unread : s.pc = .first → tr = []
  last : s.pc ≠ .first → s.last = getNowNs s.marked
  mark : s.pc ≠ .first → (marks tr).getLast? = some s.marked
  order : s.marked ≤ s.read ∧ s.read ≤ s.time
  messages : s.pc ≠ .first → sent tr + owed s.pc + 1 = (marks tr).length
  spaced : Gaps (fun n a b => a + l.delay + rest l n ≤ b) (marks tr)
  counted : l.backsOff = true → (s.i + uncounted s.pc) % 8 = ((marks tr).length - 1) % 8
  rested : Rested s → s.marked + rest l ((marks tr).length - 1) ≤ s.time

/-- The nanoseconds alone are far enough apart. -/
theorem due_iff {l : Loop} {marked t : Nat} (fwd : marked ≤ t) :
    waited (getNowNs marked) (getNowNs t) ≥ l.delay ↔ l.delay ≤ (t - marked) % 1000000000 := by
  rw [waited_eq]
  omega

/-- A step that leaves `last` as it is. -/
theorem LoopInv.quiet {l : Loop} {s u : State} {tr out : List Event} (h : LoopInv l s tr)
    (began : s.pc ≠ .first) (goes : u.pc ≠ .first) (last : u.last = s.last)
    (marked : u.marked = s.marked) (order : s.marked ≤ u.read ∧ u.read ≤ u.time)
    (unmarked : marks out = []) (messages : sent out + owed u.pc = owed s.pc)
    (counted : l.backsOff = true → (u.i + uncounted u.pc) % 8 = (s.i + uncounted s.pc) % 8)
    (rested : Rested u → s.marked + rest l ((marks tr).length - 1) ≤ u.time) :
    LoopInv l u (tr ++ out) := by
  have same : marks (tr ++ out) = marks tr := by rw [marks_append, unmarked, List.append_nil]
  constructor
  · exact fun first => absurd first goes
  · intro _
    rw [last, marked]
    exact h.last began
  · intro _
    rw [same, marked]
    exact h.mark began
  · rwa [marked]
  · intro _
    have before := h.messages began
    simp only [sent, List.countP_append] at before messages ⊢
    rw [same]
    omega
  · rw [same]
    exact h.spaced
  · intro backs
    rw [same, counted backs]
    exact h.counted backs
  · rw [same, marked]
    exact rested

theorem rest_cases (l : Loop) (n : Nat) : rest l n = 0 ∨ rest l n = 5000000000 := by
  unfold rest
  split
  · exact .inr rfl
  · exact .inl rfl

/-- Behind the first reading, or one that sends a message. -/
theorem marked_inv {l : Loop} {s : State} {tr : List Event} {e : Event} {t : Nat} {pc : Pc}
    (goes : pc ≠ .first) (mark : e.mark = some t)
    (messages : sent (tr ++ [e]) + owed pc = (marks tr).length)
    (spaced : Gaps (fun n a b => a + l.delay + rest l n ≤ b) (marks tr ++ [t]))
    (counted : l.backsOff = true → (s.i + uncounted pc) % 8 = (marks tr).length % 8)
    (rested : Rested (s.mark pc t) → rest l (marks tr).length = 0) :
    LoopInv l (s.mark pc t) (tr ++ [e]) := by
  have more : marks (tr ++ [e]) = marks tr ++ [t] := by
    rw [marks_append]
    simp [marks, mark]
  constructor
  · exact fun first => absurd first goes
  · exact fun _ => rfl
  · intro _
    rw [more, List.getLast?_concat]
    rfl
  · exact ⟨Nat.le_refl t, Nat.le_refl t⟩
  · intro _
    rw [more, List.length_append, List.length_singleton, ← messages]
    rfl
  · rw [more]
    exact spaced
  · intro backs
    rw [more, List.length_append, List.length_singleton, Nat.add_sub_cancel]
    exact counted backs
  · intro here
    rw [more, List.length_append, List.length_singleton, Nat.add_sub_cancel, rested here]
    exact Nat.le_refl t

theorem loopInv_step {l : Loop} {s u : State} {tr out : List Event} {a : Act} (h : LoopInv l s tr)
    (timed : Timed s tr a) (hs : step l s a = some (u, out)) : LoopInv l u (tr ++ out) := by
  obtain ⟨mr, rt⟩ := h.order
  have began {pc : Pc} (here : s.pc = pc) (ne : pc ≠ .first) : s.pc ≠ .first := by rwa [here]
  cases step_move hs with
  | first t here =>
    obtain rfl := h.unread here
    apply marked_inv (by decide) rfl rfl (gaps_single _ t)
    · intro backs
      have counted := h.counted backs
      rw [here] at counted
      exact counted
    · intro _
      simp [rest, marks]
  | fire t here due =>
    have here' := began here (by decide)
    have fwd : s.marked ≤ t := Nat.le_trans mr (Nat.le_trans rt timed.1)
    have rested := h.rested (.inl here)
    have messages := h.messages here'
    rw [here] at messages
    rw [h.last here', due_iff fwd] at due
    apply marked_inv (by decide) rfl
    · rw [← messages]
      simp [sent, Event.isSent, owed]
    · apply h.spaced.concat (h.mark here')
      have later := timed.1
      cases rest_cases l ((marks tr).length - 1) with
      | inl rested => rw [rested]; omega
      | inr full =>
        rw [full] at rested ⊢
        omega
    · intro backs
      have counted := h.counted backs
      rw [here] at counted
      simp only [uncounted] at counted ⊢
      omega
    · rintro (e | ⟨-, e | e⟩) <;> cases e
  | enter t here runs =>
    apply h.quiet (u := s.stepTo .ifTest t) (began here (by decide)) (by simp [State.stepTo]) rfl rfl
      ⟨mr, Nat.le_trans rt timed.1⟩ rfl
    · rw [here]; rfl
    · intro _
      rw [here]; rfl
    · intro _
      exact Nat.le_trans (h.rested (.inr ⟨runs, .inr here⟩)) timed.1
  | leave t here =>
    apply h.quiet (u := s.stepTo .closeSerial t) (began here (by decide)) (by simp [State.stepTo]) rfl rfl
      ⟨mr, Nat.le_trans rt timed.1⟩ rfl
    · rw [here]; rfl
    · intro _
      rw [here]; rfl
    · rintro (e | ⟨-, e | e⟩) <;> cases e
  | wait t here early =>
    have past : (if l.backsOff then Pc.usleep else .whileTest) ≠ .first := by split <;> decide
    apply h.quiet
      (u := { s.stepTo (if l.backsOff then .usleep else .whileTest) t with read := t })
      (began here (by decide)) past rfl rfl
      ⟨Nat.le_trans mr (Nat.le_trans rt timed.1), Nat.le_refl t⟩ rfl
    · rw [here]
      show 0 + owed (if l.backsOff then Pc.usleep else .whileTest) = 0
      split <;> rfl
    · intro backs
      rw [here]
      simp [State.stepTo, backs, uncounted]
    · intro _
      exact Nat.le_trans (h.rested (.inl here)) timed.1
  | send t here =>
    have past : (if l.backsOff then Pc.count else .whileTest) ≠ .first := by split <;> decide
    apply h.quiet (u := s.stepTo (if l.backsOff then .count else .whileTest) t)
      (began here (by decide)) past rfl rfl ⟨mr, Nat.le_trans rt timed.1⟩ rfl
    · rw [here]
      show 1 + owed (if l.backsOff then Pc.count else .whileTest) = 1
      split <;> rfl
    · intro backs
      rw [here]
      simp [State.stepTo, backs, uncounted]
    · intro rested
      have rested : rest l ((marks tr).length - 1) = 0 := by
        unfold rest
        apply if_neg
        rintro ⟨backs, -⟩
        simp [Rested, State.stepTo, backs] at rested
      rw [rested]
      exact Nat.le_trans mr (Nat.le_trans rt timed.1)
  | eighth t here eight =>
    apply h.quiet (u := { s.stepTo .pause t with i := 0 }) (began here (by decide))
      (by simp [State.stepTo]) rfl rfl ⟨mr, Nat.le_trans rt timed.1⟩ rfl
    · rw [here]; rfl
    · intro _
      rw [here]
      exact eight.symm
    · rintro (e | ⟨-, e | e⟩) <;> cases e
  | count t here fewer =>
    apply h.quiet (u := { s.stepTo .usleep t with i := s.i + 1 }) (began here (by decide))
      (by simp [State.stepTo]) rfl rfl ⟨mr, Nat.le_trans rt timed.1⟩ rfl
    · rw [here]; rfl
    · intro _
      rw [here]
      rfl
    · intro _
      have rested : rest l ((marks tr).length - 1) = 0 := by
        unfold rest
        apply if_neg
        rintro ⟨backs, -, eight⟩
        have counted := h.counted backs
        rw [here, eight] at counted
        exact fewer counted
      rw [rested]
      exact Nat.le_trans mr (Nat.le_trans rt timed.1)
  | pause t here =>
    apply h.quiet (u := s.stepTo .usleep t) (began here (by decide)) (by simp [State.stepTo]) rfl rfl
      ⟨mr, Nat.le_trans rt timed.1⟩ rfl
    · rw [here]; rfl
    · intro _
      rw [here]; rfl
    · rintro (e | ⟨runs, -⟩)
      · cases e
      · have slept := timed.2 here runs
        show _ ≤ t
        cases rest_cases l ((marks tr).length - 1) with
        | inl rested => omega
        | inr full => omega
  | usleep t here =>
    apply h.quiet (u := s.stepTo .whileTest t) (began here (by decide)) (by simp [State.stepTo]) rfl rfl
      ⟨mr, Nat.le_trans rt timed.1⟩ rfl
    · rw [here]; rfl
    · intro _
      rw [here]; rfl
    · rintro (e | ⟨runs, -⟩)
      · cases e
      · exact Nat.le_trans (h.rested (.inr ⟨runs, .inl here⟩)) timed.1
  | interrupt =>
    rw [List.append_nil]
    refine ⟨h.unread, h.last, h.mark, h.order, h.messages, h.spaced, h.counted, ?_⟩
    rintro (e | ⟨runs, -⟩)
    · exact h.rested (.inl e)
    · cases runs

theorem reachable_loopInv {l : Loop} {acts : List Act} {s : State} {tr : List Event}
    (h : run (step l) start acts = some (s, tr)) (timed : Along (step l) Timed start [] acts) :
    LoopInv l s tr := by
  have h0 : LoopInv l start [] := by
    refine ⟨fun _ => rfl, fun began => absurd rfl began, fun began => absurd rfl began,
      ⟨Nat.le_refl 0, Nat.le_refl 0⟩, fun began => absurd rfl began, fun n a b here => ?_,
      fun _ => rfl, ?_⟩
    · cases here
    · rintro (e | ⟨-, e | e⟩) <;> cases e
  simpa using run_invariant_along (LoopInv l) h0 timed h
    fun _ _ _ _ _ inv timed hs => loopInv_step inv timed hs

/-- Full pauses that lie between the first message and the `n`-th. -/
def pauses (l : Loop) (n : Nat) : Nat := if l.backsOff then (n - 1) / 8 else 0

theorem pauses_succ (l : Loop) (n : Nat) :
    pauses l (n + 1) * 5000000000 = pauses l n * 5000000000 + rest l n := by
  unfold pauses rest
  cases l.backsOff with
  | false => simp
  | true =>
    simp only [↓reduceIte, true_and, Nat.add_sub_cancel]
    split <;> omega

/-- **How fast the loop can be.** In any run the messages correspond to the
readings that were found due, and the `n`-th of these lies at least `n` delays
behind the first reading, with five seconds more for every eight messages that
a pause stands behind. The seconds that are never read make no message early. -/
theorem never_fast (l : Loop) {acts : List Act} {s : State} {tr : List Event}
    (h : run (step l) start acts = some (s, tr)) (timed : Along (step l) Timed start [] acts) :
    (s.pc ≠ .first → sent tr + owed s.pc + 1 = (marks tr).length) ∧
    ∀ n a t, (marks tr)[0]? = some a → (marks tr)[n]? = some t →
      a + n * l.delay + pauses l n * 5000000000 ≤ t := by
  have inv := reachable_loopInv h timed
  refine ⟨inv.messages, fun n a t first here => ?_⟩
  apply inv.spaced.reach (P := fun n t => a + n * l.delay + pauses l n * 5000000000 ≤ t) _ _ n t here
  · intro b here
    rw [first] at here
    cases here
    simp [pauses]
  · intro n b c sofar gap
    rw [pauses_succ, Nat.succ_mul]
    omega

/-- The first reading, a poll too early behind the turn of the second, and one
that is in time. -/
def oneMessage : List Act :=
  [.main 900000000, .main 900001000, .main 1000000000, .main 1000002000, .main 1000003000,
    .main 1430000000, .main 1430001000]

theorem prompt_oneMessage :
    Along (step tapperClock) (Prompt 473684000) start [] oneMessage := by
  iterate 7
    apply Along.cons ⟨⟨by decide, by decide⟩, by decide⟩ rfl
  trivial

theorem never_fast_oneMessage :
    ∃ s, run (step tapperClock) start oneMessage =
        some (s, [.started 900000000, .tested 900000000 1000000000 false,
          .tested 900000000 1430000000 true, .sent]) ∧
      900000000 + 1 * 526316000 + pauses tapperClock 1 * 5000000000 ≤ 1430000000 := by
  obtain ⟨s, h⟩ : ∃ s, run (step tapperClock) start oneMessage =
      some (s, [.started 900000000, .tested 900000000 1000000000 false,
        .tested 900000000 1430000000 true, .sent]) := ⟨_, rfl⟩
  have timed := prompt_oneMessage.imp fun _ _ _ => Prompt.timed
  exact ⟨s, h, (never_fast tapperClock h timed).2 1 _ _ rfl rfl⟩

/-! ## How slow it can be -/

/-- Every test so far was right, and no message was late by a whole poll. -/
structure PaceInv (l : Loop) (g : Nat) (s : State) (tr : List Event) : Prop where
  tests : ∀ m t fires, .tested m t fires ∈ tr → (fires = true ↔ m + l.delay ≤ t)
  close : Gaps (fun _ a b => b < a + l.delay + g) (marks tr)
  waiting : s.pc ≠ .first → s.read < s.marked + l.delay

/-- A step that reads nothing. -/
theorem PaceInv.quiet {l : Loop} {g : Nat} {s u : State} {tr out : List Event}
    (h : PaceInv l g s tr) (unread : ∀ e ∈ out, e = .sent) (goes : u.pc ≠ .first → s.pc ≠ .first)
    (read : u.read = s.read) (marked : u.marked = s.marked) : PaceInv l g u (tr ++ out) := by
  have unmarked : marks out = [] := by
    rw [marks, List.filterMap_eq_nil_iff]
    intro e mem
    rw [unread e mem]
    rfl
  constructor
  · intro m t fires mem
    cases List.mem_append.mp mem with
    | inl old => exact h.tests m t fires old
    | inr new => exact absurd (unread _ new) (by simp)
  · rw [marks_append, unmarked, List.append_nil]
    exact h.close
  · intro began
    rw [read, marked]
    exact h.waiting (goes began)

theorem paceInv_step {l : Loop} {g : Nat} (delays : 0 < l.delay) (fine : l.delay + g ≤ 1000000000)
    {s u : State} {tr out : List Event} {a : Act} (inv : LoopInv l s tr) (h : PaceInv l g s tr)
    (prompt : Prompt g s tr a) (hs : step l s a = some (u, out)) : PaceInv l g u (tr ++ out) := by
  have away {pc : Pc} (here : s.pc = pc) (ne : pc ≠ .first) : u.pc ≠ .first → s.pc ≠ .first :=
    fun _ => by rwa [here]
  cases step_move hs with
  | first t here =>
    obtain rfl := inv.unread here
    refine ⟨by simp, gaps_single _ t, fun _ => ?_⟩
    show t < t + l.delay
    omega
  | fire t here due =>
    have here' : s.pc ≠ .first := by rw [here]; decide
    have near := prompt.2 here
    have waiting := h.waiting here'
    have order := inv.order
    have later := prompt.1.1
    rw [inv.last here', due_iff (by omega)] at due
    refine ⟨fun m t' fires mem => ?_, ?_, fun _ => ?_⟩
    · cases List.mem_append.mp mem with
      | inl old => exact h.tests m t' fires old
      | inr new =>
        rw [List.mem_singleton, Event.tested.injEq] at new
        obtain ⟨rfl, rfl, rfl⟩ := new
        simp only [true_iff]
        omega
    · rw [marks_append]
      apply h.close.concat (inv.mark here')
      omega
    · show t < t + l.delay
      omega
  | wait t here early =>
    have here' : s.pc ≠ .first := by rw [here]; decide
    have near := prompt.2 here
    have waiting := h.waiting here'
    have order := inv.order
    have later := prompt.1.1
    rw [inv.last here', due_iff (by omega)] at early
    refine ⟨fun m t' fires mem => ?_, ?_, fun _ => ?_⟩
    · cases List.mem_append.mp mem with
      | inl old => exact h.tests m t' fires old
      | inr new =>
        rw [List.mem_singleton, Event.tested.injEq] at new
        obtain ⟨rfl, rfl, rfl⟩ := new
        simp only [Bool.false_eq_true, false_iff]
        omega
    · have same : marks (tr ++ [.tested s.marked t false]) = marks tr := by
        simp [marks, Event.mark]
      rw [same]
      exact h.close
    · show t < s.marked + l.delay
      omega
  | enter t here | leave t here | pause t here | usleep t here | eighth t here | count t here =>
    exact h.quiet (by simp) (away here (by decide)) rfl rfl
  | send t here => exact h.quiet (by simp) (away here (by decide)) rfl rfl
  | interrupt => exact h.quiet (by simp) id rfl rfl

/-- **How slow the loop can be.** Where every poll is less than `g` behind the
reading before it, and a delay and `g` make no second, every test is right: a
message is sent at the first poll that finds it due. The `n`-th message then
lies between `n` delays and `n` times a delay and `g` behind the first reading;
what is late once is never made up. -/
theorem keeps_pace (l : Loop) {g : Nat} (positive : 0 < l.delay)
    (fine : l.delay + g ≤ 1000000000) {acts : List Act} {s : State} {tr : List Event}
    (h : run (step l) start acts = some (s, tr)) (prompt : Along (step l) (Prompt g) start [] acts) :
    (∀ m t fires, .tested m t fires ∈ tr → (fires = true ↔ m + l.delay ≤ t)) ∧
    ∀ n a t, (marks tr)[0]? = some a → (marks tr)[n]? = some t →
      a + n * l.delay ≤ t ∧ t ≤ a + n * (l.delay + g) := by
  have inv := reachable_loopInv h (prompt.imp fun _ _ _ => Prompt.timed)
  have h0 : PaceInv l g start [] :=
    ⟨by simp, fun n a b here => (by cases here), fun began => absurd rfl began⟩
  have both := run_invariant_along (fun s seen => LoopInv l s seen ∧ PaceInv l g s seen)
    ⟨@reachable_loopInv l [] start [] rfl trivial, h0⟩ prompt h
    fun s seen a u out inv prompt hs => ⟨loopInv_step inv.1 prompt.timed hs,
      paceInv_step positive fine inv.1 inv.2 prompt hs⟩
  have pace : PaceInv l g s tr := by simpa using both.2
  have gaps : Gaps (fun _ a b => a + l.delay ≤ b ∧ b < a + l.delay + g) (marks tr) :=
    fun n a b here there =>
      ⟨Nat.le_trans (Nat.le_add_right _ _) (inv.spaced n a b here there), pace.close n a b here there⟩
  refine ⟨pace.tests, fun n a t first here => ?_⟩
  apply gaps.reach (P := fun n t => a + n * l.delay ≤ t ∧ t ≤ a + n * (l.delay + g)) _ _ n t here
  · intro b here
    rw [first] at here
    cases here
    simp
  · intro n b c sofar gap
    rw [Nat.succ_mul, Nat.succ_mul]
    omega

theorem keeps_pace_oneMessage :
    ∃ s, run (step tapperClock) start oneMessage =
        some (s, [.started 900000000, .tested 900000000 1000000000 false,
          .tested 900000000 1430000000 true, .sent]) ∧
      1430000000 ≤ 900000000 + 1 * (526316000 + 473684000) := by
  obtain ⟨s, h⟩ : ∃ s, run (step tapperClock) start oneMessage =
      some (s, [.started 900000000, .tested 900000000 1000000000 false,
        .tested 900000000 1430000000 true, .sent]) := ⟨_, rfl⟩
  have pace := keeps_pace tapperClock (by decide) (by decide) h prompt_oneMessage
  exact ⟨s, h, (pace.2 1 _ _ rfl rfl).2⟩

end MidiGw.ClockLoop
