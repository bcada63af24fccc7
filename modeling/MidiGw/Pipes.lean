import MidiGw.Runs
import Mathlib.Data.List.Induction
import Mathlib.Logic.Function.Basic

/-!
# Prints into pipes that nobody reads

A program whose prints go to pipes of a fixed capacity that are never read,
made of the step function of the program alone. A print waits where its pipe
has no room for it. Signals and their handlers go on meanwhile, and a handler
that runs breaks the waiting call off: a call that has moved a part of its text
is made again for the rest, any other is given up with its text.

* `put`: texts written one after the other, as far as the pipes have room;
* `piped`: the program behind its pipes; `Move`: what one step of it can do;
* `piped_run`: as long as there is room the pipes change nothing;
* `crossing`: a run that prints more than the capacity has a step at which the
  pipe is full;
* `waits_step`: what waits goes on waiting, whatever comes but a handler;
* `prog_reached`: the program itself is where it could be without the pipes.
-/

namespace MidiGw.Pipes

open Runs (Step run run_cons run_append run_single)

variable {S A E P : Type}

/-- A program and the pipes it prints to. -/
structure Program (S A E P : Type) where
  step : Step S A E
  /-- a step of the program itself, not of a signal or its handler -/
  own : A → Bool
  /-- breaks off a call that waits -/
  breaks : A → Bool
  /-- the pipe a text is printed to and the length of the text -/
  text : E → Option (P × Nat)
  capacity : Nat
  /-- a text up to this length is written whole or not at all -/
  atomic : Nat

/-- A step of the program that waits in a print. -/
structure Waiting (A E : Type) where
  act : A
  /-- what the step has not shown yet, from the text that waits on -/
  rest : List E
  /-- a part of the text is in the pipe -/
  moved : Bool
  /-- a handler has run since -/
  broken : Bool

structure State (S A E P : Type) where
  prog : S
  /-- what each pipe holds -/
  held : P → Nat
  waiting : Option (Waiting A E)

/-- The program with its pipes empty. -/
def State.fresh (s : S) : State S A E P := ⟨s, fun _ => 0, none⟩

/-- What came of writing some texts. -/
structure Put (E P : Type) where
  held : P → Nat
  shown : List E
  rest : List E
  moved : Bool

def Put.showing (r : Put E P) (e : E) : Put E P := { r with shown := e :: r.shown }

@[simp] theorem Put.showing_held (r : Put E P) (e : E) : (r.showing e).held = r.held := rfl

@[simp] theorem Put.showing_shown (r : Put E P) (e : E) : (r.showing e).shown = e :: r.shown := rfl

/-- Behind its prints, or waiting in one of them. -/
def Put.settle (r : Put E P) (s t : S) (a : A) : State S A E P × List E :=
  match r.rest with
  | [] => (⟨t, r.held, none⟩, r.shown)
  | e :: es => (⟨s, r.held, some ⟨a, e :: es, r.moved, false⟩⟩, r.shown)

theorem Put.settle_full {r : Put E P} {e : E} {es : List E} (full : r.rest = e :: es) (s t : S)
    (a : A) :
    r.settle s t a = (⟨s, r.held, some ⟨a, e :: es, r.moved, false⟩⟩, r.shown) := by
  unfold Put.settle
  rw [full]

theorem Put.settle_prog (r : Put E P) (s t : S) (a : A) :
    (r.settle s t a).1.prog = t ∨ (r.settle s t a).1.prog = s := by
  unfold Put.settle
  split
  · exact .inl rfl
  · exact .inr rfl

variable [DecidableEq P] (M : Program S A E P)

def Program.put (held : P → Nat) : List E → Put E P
  | [] => ⟨held, [], [], false⟩
  | e :: es =>
    match M.text e with
    | none => (put held es).showing e
    | some (p, n) =>
      if held p + n ≤ M.capacity then
        (put (Function.update held p (held p + n)) es).showing e
      else if n ≤ M.atomic then ⟨held, [], e :: es, false⟩
      else ⟨Function.update held p M.capacity, [], e :: es, held p < M.capacity⟩

/-- The program behind its pipes. A step prints before it changes the state. -/
def Program.piped : Step (State S A E P) A E
  | s, a =>
    match s.waiting with
    | none =>
      match M.step s.prog a with
      | none => none
      | some (t, out) => some ((M.put s.held out).settle s.prog t a)
    | some w =>
      if M.own a then
        if w.broken then
          match M.step s.prog w.act with
          | none => none
          | some (t, _) =>
            if w.moved then
              some ({ s with waiting := some { w with moved := false, broken := false } }, [])
            else some ((M.put s.held w.rest.tail).settle s.prog t w.act)
        else none
      else
        match M.step s.prog a with
        | none => none
        | some (t, out) =>
          some ({ s with prog := t, waiting := some { w with broken := w.broken || M.breaks a } },
            out)

/-- Every step behind the pipes. -/
inductive Move (s : State S A E P) : A → State S A E P → List E → Prop
  | free (a : A) (t : S) (out : List E) (idle : s.waiting = none)
      (hs : M.step s.prog a = some (t, out)) :
      Move s a ((M.put s.held out).settle s.prog t a).1 ((M.put s.held out).settle s.prog t a).2
  | signal (a : A) (t : S) (out : List E) (w : Waiting A E) (waits : s.waiting = some w)
      (other : M.own a = false) (hs : M.step s.prog a = some (t, out)) :
      Move s a
        { s with prog := t, waiting := some { w with broken := w.broken || M.breaks a } } out
  | again (a : A) (w : Waiting A E) (waits : s.waiting = some w) (own : M.own a = true)
      (broken : w.broken = true) (moved : w.moved = true) :
      Move s a { s with waiting := some { w with moved := false, broken := false } } []
  | lost (a : A) (t : S) (out : List E) (w : Waiting A E) (waits : s.waiting = some w)
      (own : M.own a = true) (broken : w.broken = true) (moved : w.moved = false)
      (hs : M.step s.prog w.act = some (t, out)) :
      Move s a ((M.put s.held w.rest.tail).settle s.prog t w.act).1
        ((M.put s.held w.rest.tail).settle s.prog t w.act).2

variable {M}

theorem piped_move {s t : State S A E P} {a : A} {out : List E}
    (h : M.piped s a = some (t, out)) : Move M s a t out := by
  cases waits : s.waiting with
  | none =>
    simp only [Program.piped, waits] at h
    split at h
    · cases h
    · rename_i u shown hs
      have move := Move.free a u shown waits hs
      rwa [Option.some.inj h] at move
  | some w =>
    simp only [Program.piped, waits] at h
    split at h
    · rename_i own
      split at h
      · rename_i broken
        split at h
        · cases h
        · rename_i u shown hs
          split at h
          · rename_i moved
            cases h
            exact .again a w waits own broken moved
          · rename_i moved
            have move := Move.lost a u shown w waits own broken (by simpa using moved) hs
            rwa [Option.some.inj h] at move
      · cases h
    · rename_i other
      split at h
      · cases h
      · rename_i u shown hs
        cases h
        exact .signal a u out w waits (by simpa using other) hs

/-! ## What a list of events prints -/

variable (M) in
/-- What one event prints to a pipe. -/
def Program.length (p : P) (e : E) : Nat :=
  match M.text e with
  | none => 0
  | some (q, n) => if q = p then n else 0

variable (M) in
def Program.total (p : P) : List E → Nat
  | [] => 0
  | e :: es => M.length p e + total p es

@[simp] theorem total_nil (p : P) : M.total p [] = 0 := rfl

theorem total_cons (p : P) (e : E) (es : List E) :
    M.total p (e :: es) = M.length p e + M.total p es := rfl

@[simp] theorem total_append (p : P) (a b : List E) :
    M.total p (a ++ b) = M.total p a + M.total p b := by
  induction a with
  | nil => rw [List.nil_append, total_nil, Nat.zero_add]
  | cons e es ih => rw [List.cons_append, total_cons, total_cons, ih, Nat.add_assoc]

theorem total_replicate (p : P) (n : Nat) (tr : List E) :
    M.total p (List.replicate n tr).flatten = n * M.total p tr := by
  induction n with
  | zero => simp
  | succ n ih => rw [List.replicate_succ, List.flatten_cons, total_append, ih, Nat.succ_mul,
      Nat.add_comm]

/-- What is left of a pipe's room behind one text. -/
theorem update_length {held : P → Nat} {e : E} {p : P} {n : Nat} (text : M.text e = some (p, n))
    (q : P) : Function.update held p (held p + n) q = held q + M.length q e := by
  unfold Program.length
  rw [text]
  by_cases same : p = q
  · subst same; simp
  · simp [same, Function.update_of_ne (Ne.symm same)]

theorem put_fits {held : P → Nat} {out : List E}
    (fits : ∀ p, held p + M.total p out ≤ M.capacity) : (M.put held out).rest = [] := by
  induction out generalizing held with
  | nil => rfl
  | cons e es ih =>
    unfold Program.put
    split
    · apply ih
      intro p
      have := fits p
      rw [total_cons] at this
      omega
    · rename_i p n text
      have room : held p + n ≤ M.capacity := by
        have := fits p
        rw [total_cons, Program.length, text] at this
        simp only [↓reduceIte] at this
        omega
      rw [if_pos room]
      apply ih
      intro q
      have := fits q
      rw [total_cons] at this
      rw [update_length text]
      omega

/-- With nothing left to write all was written. -/
theorem put_whole {held : P → Nat} {out : List E} (done : (M.put held out).rest = []) :
    (M.put held out).held = (fun p => held p + M.total p out) ∧ (M.put held out).shown = out ∧
      ((∀ p, held p ≤ M.capacity) → ∀ p, held p + M.total p out ≤ M.capacity) := by
  induction out generalizing held with
  | nil => exact ⟨rfl, rfl, fun within p => within p⟩
  | cons e es ih =>
    unfold Program.put at done ⊢
    split at done
    · rename_i text
      have silent (p : P) : M.length p e = 0 := by rw [Program.length, text]
      obtain ⟨filled, shown, within⟩ := ih done
      simp only [total_cons, silent, Nat.zero_add]
      exact ⟨filled, by rw [Put.showing_shown, shown], within⟩
    · rename_i p n text
      split at done
      · rename_i room
        obtain ⟨filled, shown, within⟩ := ih done
        simp only [if_pos room, total_cons]
        refine ⟨?_, by rw [Put.showing_shown, shown], fun small q => ?_⟩
        · rw [Put.showing_held, filled]
          funext q
          rw [update_length text, Nat.add_assoc]
        · have small' : ∀ q, Function.update held p (held p + n) q ≤ M.capacity := by
            intro q
            by_cases same : q = p
            · subst same; simpa using room
            · simpa [Function.update_of_ne same] using small q
          have := within small' q
          rw [update_length text] at this
          omega
      · split at done <;> cases done

/-- Only the pipe without room is touched by a text that waits. -/
theorem put_full {held : P → Nat} {e : E} {es : List E} {p : P} {n : Nat}
    (text : M.text e = some (p, n)) (full : M.capacity < held p + n) :
    (M.put held (e :: es)).rest = e :: es ∧ (M.put held (e :: es)).shown = [] ∧
      ∀ q, q ≠ p → (M.put held (e :: es)).held q = held q := by
  have crowded : ¬held p + n ≤ M.capacity := by omega
  simp only [Program.put, text, if_neg crowded]
  split
  · exact ⟨rfl, rfl, fun _ _ => rfl⟩
  · exact ⟨rfl, rfl, fun q other => Function.update_of_ne other _ _⟩

/-- A pipe never holds more than its capacity. -/
theorem put_within {held : P → Nat} (within : ∀ p, held p ≤ M.capacity) (out : List E) (p : P) :
    (M.put held out).held p ≤ M.capacity := by
  have updated {held : P → Nat} (within : ∀ p, held p ≤ M.capacity) (p : P) {n : Nat}
      (small : n ≤ M.capacity) (q : P) : Function.update held p n q ≤ M.capacity := by
    by_cases same : q = p
    · subst same; simpa using small
    · simpa [Function.update_of_ne same] using within q
  induction out generalizing held with
  | nil => exact within p
  | cons e es ih =>
    unfold Program.put
    split
    · exact ih within
    · split
      · rename_i room
        exact ih (updated within _ room)
      · split
        · exact within p
        · exact updated within _ (Nat.le_refl _) p

theorem settle_whole {held : P → Nat} {out : List E} (done : (M.put held out).rest = []) (s t : S)
    (a : A) :
    (M.put held out).settle s t a = (⟨t, fun p => held p + M.total p out, none⟩, out) := by
  obtain ⟨filled, shown, -⟩ := put_whole done
  unfold Put.settle
  rw [done]
  simp only [filled, shown]

/-! ## Runs with room -/

/-- As long as there is room the pipes change nothing. -/
theorem piped_run {s t : S} {held : P → Nat} {as : List A} {tr : List E}
    (h : run M.step s as = some (t, tr)) (fits : ∀ p, held p + M.total p tr ≤ M.capacity) :
    run M.piped ⟨s, held, none⟩ as = some (⟨t, fun p => held p + M.total p tr, none⟩, tr) := by
  induction as generalizing s held tr with
  | nil => cases h; rfl
  | cons a as ih =>
    obtain ⟨u, out, rest, hs, htail, rfl⟩ := run_cons.mp h
    simp only [total_append] at fits ⊢
    have now := put_fits (fun p => (Nat.le_trans (by omega) (fits p) :
      held p + M.total p out ≤ M.capacity))
    have first : M.piped ⟨s, held, none⟩ a =
        some (⟨u, fun p => held p + M.total p out, none⟩, out) := by
      simp only [Program.piped, hs, settle_whole now]
    have later := ih htail (fun p => by rw [Nat.add_assoc]; exact fits p)
    simp only [Nat.add_assoc] at later
    exact run_cons.mpr ⟨_, out, rest, first, later, rfl⟩

/-- What is printed passes the capacity at one of the steps. -/
theorem crossing {s t : S} {as : List A} {tr : List E} (h : run M.step s as = some (t, tr))
    {p : P} (more : M.capacity < M.total p tr) :
    ∃ pre a u seen v out, run M.step s pre = some (u, seen) ∧ M.step u a = some (v, out) ∧
      seen ++ out <+: tr ∧ M.total p seen ≤ M.capacity ∧
      M.capacity < M.total p (seen ++ out) := by
  induction as using List.reverseRecOn generalizing t tr with
  | nil => cases h; exact absurd more (Nat.not_lt_zero _)
  | append_singleton as a ih =>
    obtain ⟨u, seen, out, hu, hs, rfl⟩ := run_append.mp h
    by_cases within : M.total p seen ≤ M.capacity
    · exact ⟨as, a, u, seen, t, out, hu, run_single.mp hs, List.prefix_refl _, within, more⟩
    · obtain ⟨pre, a', v, seen', x, out', hv, hx, inside, rest⟩ := ih hu (by omega)
      exact ⟨pre, a', v, seen', x, out', hv, hx, inside.trans (List.prefix_append _ _), rest⟩

/-- A step that finds no room waits, in the state it started from. -/
theorem piped_waits {s t : S} {held : P → Nat} {a : A} {out : List E}
    (hs : M.step s a = some (t, out)) (within : ∀ p, held p ≤ M.capacity) {p : P}
    (more : M.capacity < held p + M.total p out) :
    ∃ x shown w, M.piped ⟨s, held, none⟩ a = some (x, shown) ∧ x.prog = s ∧
      x.waiting = some w ∧ w.act = a ∧ w.broken = false := by
  cases full : (M.put held out).rest with
  | nil =>
    have := (put_whole full).2.2 within p
    omega
  | cons e es =>
    refine ⟨⟨s, (M.put held out).held, some ⟨a, e :: es, (M.put held out).moved, false⟩⟩,
      (M.put held out).shown, _, ?_, rfl, rfl, rfl, rfl⟩
    simp only [Program.piped, hs, Put.settle_full full]

/-! ## Waiting -/

/-- What waits goes on waiting until a handler has run. -/
theorem waits_step {s t : State S A E P} {a : A} {out : List E} {w : Waiting A E}
    (waits : s.waiting = some w) (unbroken : w.broken = false) (calm : M.breaks a = false)
    (h : M.piped s a = some (t, out)) :
    t.waiting = some w ∧ t.held = s.held ∧ M.own a = false ∧
      M.step s.prog a = some (t.prog, out) := by
  cases piped_move h with
  | free _ _ idle => rw [waits] at idle; cases idle
  | again w' waits' _ broken | lost _ _ w' waits' _ broken =>
    rw [waits] at waits'
    cases waits'
    rw [unbroken] at broken
    cases broken
  | signal v _ w' waits' other hs =>
    rw [waits] at waits'
    cases waits'
    have same : ({ w with broken := w.broken || M.breaks a } : Waiting A E) = w := by
      rw [calm, Bool.or_false]
    exact ⟨congrArg some same, rfl, other, hs⟩

/-- The pipes leave the program in a state it reaches without them. -/
theorem prog_reached {s t : State S A E P} {as : List A} {tr : List E}
    (h : run M.piped s as = some (t, tr)) :
    ∃ acts full, run M.step s.prog acts = some (t.prog, full) := by
  induction as generalizing s tr with
  | nil => cases h; exact ⟨[], [], rfl⟩
  | cons a as ih =>
    obtain ⟨u, out, rest, hs, htail, rfl⟩ := run_cons.mp h
    obtain ⟨acts, full, later⟩ := ih htail
    have step {b : A} {v : S} {shown : List E} (hs : M.step s.prog b = some (v, shown))
        (next : u.prog = v ∨ u.prog = s.prog) :
        ∃ acts full, run M.step s.prog acts = some (t.prog, full) := by
      cases next with
      | inl on =>
        rw [on] at later
        exact ⟨b :: acts, shown ++ full, run_cons.mpr ⟨v, shown, full, hs, later, rfl⟩⟩
      | inr still =>
        rw [still] at later
        exact ⟨acts, full, later⟩
    cases piped_move hs with
    | free v shown _ taken => exact step taken (Put.settle_prog _ s.prog v a)
    | signal v _ w _ _ taken => exact step taken (.inl rfl)
    | again w => exact ⟨acts, full, later⟩
    | lost v shown w _ _ _ _ taken => exact step taken (Put.settle_prog _ s.prog v w.act)

end MidiGw.Pipes
