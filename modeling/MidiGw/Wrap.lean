import MidiGw.PollLoop

/-!
# Around the counter's wrap

What the polling loops do where their deadline and the counter are not in the
same period: in front of a rollover every poll sends, and a loop that has missed
the rollover is silent for a whole period.
-/

namespace MidiGw.PollLoop

open Runs (run run_append run_cons run_invariant)

/-- `st.c`; its message is the line `Boom.`. -/
def st : Loop := ⟨526316, true, false⟩

/-- The next count, behind the one that `next` was computed from, at which the
counter rolls over. -/
def State.wrap (s : State) : Nat := (s.armed / 2 ^ 32 + 1) * 2 ^ 32

def Event.isTested : Event → Bool
  | .tested _ _ _ => true
  | _ => false

/-- The polls: readings in `if (counter >= next)`. -/
def polls (tr : List Event) : Nat := tr.countP Event.isTested

/-- Between an `if` and the next, with no message due. -/
def Pc.waits : Pc → Bool
  | .whileTest | .ifTest | .closeSerial => true
  | _ => false

theorem step_armed {l : Loop} {s u : State} {a : Act} {out : List Event}
    (hs : step l s a = some (u, out)) :
    (u.armed = s.armed ∨ u.armed ∈ readings out) ∧
      ∀ armed count fires, .tested armed count fires ∈ out → armed = s.armed := by
  cases a with
  | interrupt =>
    simp only [step] at hs
    split at hs
    · cases hs; exact ⟨.inl rfl, fun _ _ _ mem => by cases mem⟩
    · cases hs
  | main count =>
    simp only [step, mainStep] at hs
    split at hs
    case h_1 | h_5 =>
      cases hs
      exact ⟨.inr List.mem_cons_self, by simp⟩
    case h_2 | h_4 => cases hs; exact ⟨.inl rfl, by simp⟩
    case h_3 =>
      split at hs
      · cases hs; exact ⟨.inl rfl, by simp +contextual⟩
      · cases hs; exact ⟨.inl rfl, by simp +contextual⟩
    case h_6 => cases hs

/-- Deadlines come from the state at the start, or from a reading since. -/
structure Derived (s u : State) (seen : List Event) : Prop where
  armed : u.armed = s.armed ∨ u.armed ∈ readings seen
  tests : ∀ armed count fires, .tested armed count fires ∈ seen →
    armed = s.armed ∨ armed ∈ readings seen

theorem derived_step {l : Loop} {s u t : State} {seen out : List Event} {a : Act}
    (h : Derived s u seen) (hs : step l u a = some (t, out)) : Derived s t (seen ++ out) := by
  obtain ⟨same, tests⟩ := step_armed hs
  constructor
  all_goals simp only [readings_append, List.mem_append]
  · cases same with
    | inl same => rw [same]; exact h.armed.imp id .inl
    | inr new => exact .inr (.inr new)
  · rintro armed count fires (old | new)
    · exact (h.tests armed count fires old).imp id .inl
    · rw [tests armed count fires new]
      exact h.armed.imp id .inl

theorem run_armed {l : Loop} {s u : State} {acts : List Act} {tr : List Event}
    (hr : run (step l) s acts = some (u, tr)) : Derived s u tr := by
  have h0 : Derived s s [] := ⟨.inl rfl, fun _ _ _ mem => absurd mem List.not_mem_nil⟩
  simpa using run_invariant (Derived s) h0 hr fun _ _ _ _ _ hi hs => derived_step hi hs

/-- A reading below the deadline sends nothing and leaves the deadline as it is. -/
theorem silent_step {l : Loop} {s u : State} {a : Act} {out : List Event} (waits : s.pc.waits = true)
    (below : ∀ c ∈ readings out, ¬UInt32.ofNat c ≥ s.next) (hs : step l s a = some (u, out)) :
    u.pc.waits = true ∧ u.next = s.next ∧ u.armed = s.armed ∧ fired out = 0 ∧ sent out = 0 := by
  cases a with
  | interrupt =>
    simp only [step] at hs
    split at hs
    · cases hs; exact ⟨waits, rfl, rfl, rfl, rfl⟩
    · cases hs
  | main count =>
    simp only [step, mainStep] at hs
    split at hs
    case h_1 pc | h_4 pc | h_5 pc => rw [pc] at waits; cases waits
    case h_2 pc =>
      cases hs
      refine ⟨?_, rfl, rfl, rfl, rfl⟩
      cases s.running <;> rfl
    case h_3 pc =>
      split at hs
      · rename_i due
        cases hs
        exact absurd due (below count List.mem_cons_self)
      · cases hs
        exact ⟨rfl, rfl, rfl, rfl, rfl⟩
    case h_6 => cases hs

theorem silent_run {l : Loop} {s u : State} {acts : List Act} {tr : List Event}
    (waits : s.pc.waits = true) (hr : run (step l) s acts = some (u, tr))
    (below : ∀ c ∈ readings tr, ¬UInt32.ofNat c ≥ s.next) :
    u.next = s.next ∧ u.armed = s.armed ∧ fired tr = 0 ∧ sent tr = 0 := by
  induction acts generalizing s tr with
  | nil => cases hr; exact ⟨rfl, rfl, rfl, rfl⟩
  | cons a acts ih =>
    obtain ⟨t, out, rest, hs, htail, rfl⟩ := run_cons.mp hr
    rw [readings_append] at below
    obtain ⟨still, next, armed, unfired, unsent⟩ :=
      silent_step waits (fun c mem => below c (List.mem_append_left _ mem)) hs
    obtain ⟨next', armed', unfired', unsent'⟩ := ih still htail fun c mem => by
      rw [next]
      exact below c (List.mem_append_right _ mem)
    refine ⟨next'.trans next, armed'.trans armed, ?_, ?_⟩
    · simp only [fired, List.countP_append] at unfired unfired' ⊢
      omega
    · simp only [sent, List.countP_append] at unsent unsent' ⊢
      omega

/-- **Around the wrap.** Where the deadline lies behind the next rollover, every
poll in front of the rollover sends a message, however soon it comes. Where the
deadline lies in front of the rollover and is first polled behind it, nothing is
sent until the counter is a whole period behind the deadline. -/
theorem around_wrap (l : Loop) {before later : List Act} {s u : State} {tr tr' : List Event}
    (h : run (step l) start before = some (s, tr)) (hr : run (step l) s later = some (u, tr'))
    (began : s.pc ≠ .arm) (forward : (readings (tr ++ tr')).Pairwise (· ≤ ·)) :
    (s.wrap ≤ s.armed + l.delay.toNat → (∀ c ∈ readings tr', c < s.wrap) →
      sent tr' + owed l u.pc = polls tr' + owed l s.pc) ∧
    (s.armed + l.delay.toNat < s.wrap → s.pc.waits = true →
      (∀ c ∈ readings tr', s.wrap ≤ c ∧ c < s.armed + l.delay.toNat + 2 ^ 32) →
      sent tr' = 0 ∧ u.armed = s.armed) := by
  have inv := reachable_loopInv h
  have whole := reachable_loopInv (run_append.mpr ⟨s, tr, tr', h, hr, rfl⟩)
  have delay := l.delay.toNat_lt
  constructor
  · intro crosses front
    have since (c : Nat) (mem : c ∈ readings tr') : s.armed ≤ c := by
      rw [readings_append] at forward
      cases inv.read with
      | inl zero => omega
      | inr old => exact (List.pairwise_append.mp forward).2.2 s.armed old c mem
    have fires (e : Event) (mem : e ∈ tr') : e.fires = e.isTested := by
      cases e with
      | armed count | sent => rfl
      | tested armed count fires =>
        have all : .tested armed count fires ∈ tr ++ tr' := List.mem_append_right _ mem
        have here : count ∈ readings tr' := List.mem_filterMap.mpr ⟨_, mem, rfl⟩
        have inside := front count here
        have ordered := whole.forward forward armed count fires all
        have between : s.armed ≤ armed ∧ armed < s.wrap := by
          cases (run_armed hr).tests armed count fires mem with
          | inl same => exact ⟨same.ge, by omega⟩
          | inr read => exact ⟨since armed read, front armed read⟩
        simp only [Event.fires, Event.isTested]
        rw [whole.tests armed count fires all]
        unfold State.wrap at *
        omega
    have counts : fired tr' = polls tr' := List.countP_congr fun e mem => by rw [fires e mem]
    have now := inv.messages
    have held := whole.messages
    simp only [sent, fired, List.countP_append] at now held counts ⊢
    omega
  · intro stays waits behind
    have next := inv.next began
    obtain ⟨-, armed, -, unsent⟩ := silent_run waits hr fun c mem => by
      rw [ge_iff_le, UInt32.le_iff_toNat_le, next, UInt32.toNat_ofNat']
      have := behind c mem
      unfold State.wrap at *
      omega
    exact ⟨unsent, armed⟩

/-- Two polls two ticks apart, in front of the wrap: a message each. -/
theorem around_wrap_burst :
    ∃ s u tr', run (step st) start [.main 4294967000, .main 0] = some (s, [.armed 4294967000]) ∧
      run (step st) s [.main 4294967001, .main 0, .main 4294967002, .main 0, .main 4294967003,
        .main 0] = some (u, tr') ∧
      polls tr' = 2 ∧ owed st u.pc = 0 ∧ sent tr' + owed st u.pc = polls tr' := by
  obtain ⟨s, h, armed⟩ : ∃ s, run (step st) start [.main 4294967000, .main 0] =
      some (s, [.armed 4294967000]) ∧ s = ⟨.ifTest, true, 4294967000 + 526316, 4294967000⟩ :=
    ⟨_, rfl, rfl⟩
  obtain ⟨u, hr, paid⟩ : ∃ u, run (step st) s [.main 4294967001, .main 0, .main 4294967002, .main 0,
      .main 4294967003, .main 0] = some (u, [.tested 4294967000 4294967001 true, .sent,
        .armed 4294967002, .tested 4294967002 4294967003 true, .sent]) ∧ owed st u.pc = 0 := by
    subst armed
    exact ⟨_, rfl, rfl⟩
  have bursts := (around_wrap st h hr (by rw [armed]; decide) ?_).1
  · refine ⟨s, u, _, h, hr, rfl, paid, ?_⟩
    subst armed
    apply bursts (by decide)
    intro c mem
    simp only [readings, List.filterMap_cons, List.filterMap_nil, Event.reading, List.mem_cons,
      List.not_mem_nil, or_false] at mem
    show c < 4294967296
    omega
  · show [4294967000, 4294967001, 4294967002, 4294967003].Pairwise (· ≤ ·)
    decide

end MidiGw.PollLoop
