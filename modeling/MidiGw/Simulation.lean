import MidiGw.Runs

/-!
# Simulation

When every step of one machine is matched by a run of another. `view` says what
a state of the lower machine is to the upper one, `shown` what its events are
there; an invariant of the lower machine may be assumed.

* `Simulates.run`: runs are matched by runs, with the events shown in order;
* `hide`: the machine with only what an observer is told of its events;
* `Shows`, `Simulates.shows`: what can be seen of the lower machine can be seen
  of the upper one, so that two simulations make two machines look alike.
-/

namespace MidiGw.Runs

variable {σ τ α β γ ε δ ω : Type}

/-- The lower machine keeps the invariant, and whatever it does in one step is
a run of the upper one. -/
structure Simulates (low : Step σ α ε) (high : Step τ β δ) (inv : σ → Prop) (view : σ → τ)
    (shown : ε → List δ) : Prop where
  keep : ∀ s a t out, inv s → low s a = some (t, out) → inv t
  follow : ∀ s a t out, inv s → low s a = some (t, out) →
    ∃ bs, run high (view s) bs = some (view t, out.flatMap shown)

/-- What the lower machine does in a run is a run of the upper one. -/
theorem Simulates.run {low : Step σ α ε} {high : Step τ β δ} {inv : σ → Prop} {view : σ → τ}
    {shown : ε → List δ} (sim : Simulates low high inv view shown) {s t : σ} {as : List α}
    {tr : List ε} (h0 : inv s) (hr : Runs.run low s as = some (t, tr)) :
    inv t ∧ ∃ bs, Runs.run high (view s) bs = some (view t, tr.flatMap shown) := by
  induction as generalizing s tr with
  | nil => cases hr; exact ⟨h0, [], rfl⟩
  | cons a as ih =>
    obtain ⟨u, out, rest, hu, htail, rfl⟩ := run_cons.mp hr
    obtain ⟨bs, front⟩ := sim.follow s a u out h0 hu
    obtain ⟨last, cs, back⟩ := ih (sim.keep s a u out h0 hu) htail
    refine ⟨last, bs ++ cs, ?_⟩
    rw [List.flatMap_append]
    exact run_append.mpr ⟨view u, _, _, front, back, rfl⟩

/-! ## What can be seen of a machine -/

/-- The machine with only what is told of each event. -/
def hide (told : ε → List δ) (step : Step σ α ε) : Step σ α δ := fun s a =>
  (step s a).map fun next => (next.1, next.2.flatMap told)

variable {step : Step σ α ε} {told : ε → List δ}

theorem hide_step {s t : σ} {a : α} {o : List δ} :
    hide told step s a = some (t, o) ↔ ∃ out, step s a = some (t, out) ∧ out.flatMap told = o := by
  simp only [hide, Option.map_eq_some_iff, Prod.mk.injEq]
  constructor
  · rintro ⟨⟨u, out⟩, hs, rfl, rfl⟩
    exact ⟨out, hs, rfl⟩
  · rintro ⟨out, hs, rfl⟩
    exact ⟨(t, out), hs, rfl, rfl⟩

theorem run_hide {s t : σ} {as : List α} {o : List δ} :
    run (hide told step) s as = some (t, o) ↔
      ∃ tr, run step s as = some (t, tr) ∧ tr.flatMap told = o := by
  induction as generalizing s o with
  | nil =>
    constructor
    · intro h; cases h; exact ⟨[], rfl, rfl⟩
    · rintro ⟨tr, h, rfl⟩; cases h; rfl
  | cons a as ih =>
    simp only [run_cons, hide_step, ih]
    constructor
    · rintro ⟨u, _, _, ⟨out, hs, rfl⟩, ⟨rest, htail, rfl⟩, rfl⟩
      exact ⟨out ++ rest, ⟨u, out, rest, hs, htail, rfl⟩, List.flatMap_append⟩
    · rintro ⟨_, ⟨u, out, rest, hs, htail, rfl⟩, rfl⟩
      exact ⟨u, _, _, ⟨out, hs, rfl⟩, ⟨rest, htail, rfl⟩, List.flatMap_append⟩

theorem run_hide_single {s t : σ} {a : α} {out : List ε} {o : List δ}
    (hs : step s a = some (t, out)) (same : out.flatMap told = o) :
    run (hide told step) s [a] = some (t, o) :=
  run_single.mpr (hide_step.mpr ⟨out, hs, same⟩)

theorem run_hide_pair {s t u : σ} {a b : α} {out rest : List ε} {o : List δ}
    (first : step s a = some (t, out)) (second : step t b = some (u, rest))
    (same : (out ++ rest).flatMap told = o) : run (hide told step) s [a, b] = some (u, o) :=
  run_hide.mpr ⟨out ++ rest, run_cons.mpr ⟨t, out, rest, first, run_single.mpr second, rfl⟩, same⟩

/-- Some run from the state shows these events and ends looking like this. -/
def Shows (step : Step σ α ε) (told : ε → List δ) (looks : σ → ω) (s : σ) (o : List δ)
    (e : ω) : Prop :=
  ∃ as t tr, run step s as = some (t, tr) ∧ tr.flatMap told = o ∧ looks t = e

theorem Simulates.shows {low : Step σ α ε} {high : Step τ β γ} {inv : σ → Prop} {view : σ → τ}
    {shown : ε → List δ} {told : γ → List δ} {looks : σ → ω} {looked : τ → ω}
    (sim : Simulates low (hide told high) inv view shown) (alike : ∀ s, looked (view s) = looks s)
    {s : σ} (h0 : inv s) {o : List δ} {e : ω} (h : Shows low shown looks s o e) :
    Shows high told looked (view s) o e := by
  obtain ⟨as, t, tr, hr, rfl, rfl⟩ := h
  obtain ⟨-, bs, hb⟩ := sim.run h0 hr
  obtain ⟨tr', hr', same⟩ := run_hide.mp hb
  exact ⟨bs, view t, tr', hr', same, alike t⟩

end MidiGw.Runs
