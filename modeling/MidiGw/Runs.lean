import Mathlib.Tactic.ByContra

/-!
# Runs of a system of atomic steps

Generic results about a machine given by a partial step function: from a state
and an action it yields the next state and the events the step shows, or
nothing where the action is not enabled.

* `run`: the state and the trace after a list of actions;
* `Along`: a condition on every step of a run; `Always`: a property of every
  state (with its trace) that a run passes through;
* `run_invariant_along`, `always_of_along`: an invariant kept by every step
  that meets a condition holds along every run whose steps all meet it;
* `run_progress`: a rank that falls at every counted action forces a goal once
  enough counted actions were taken;
* `guarded`: the machine without actions its surroundings never take.
-/

namespace MidiGw.Runs

variable {σ α ε : Type}

/-- One atomic step: the state after it and the events it shows, or `none`
where the action is not enabled. -/
abbrev Step (σ α ε : Type) := σ → α → Option (σ × List ε)

/-- The state and the whole trace after a list of actions. -/
def run (step : Step σ α ε) (s : σ) : List α → Option (σ × List ε)
  | [] => some (s, [])
  | a :: as =>
    match step s a with
    | none => none
    | some (t, out) =>
      match run step t as with
      | none => none
      | some (u, rest) => some (u, out ++ rest)

variable {step : Step σ α ε}

@[simp] theorem run_nil (s : σ) : run step s [] = some (s, []) := rfl

theorem run_cons {s u : σ} {a : α} {as : List α} {tr : List ε} :
    run step s (a :: as) = some (u, tr) ↔
      ∃ t out rest, step s a = some (t, out) ∧ run step t as = some (u, rest) ∧
        tr = out ++ rest := by
  constructor
  · intro h
    simp only [run] at h
    split at h
    · cases h
    · rename_i t out ht
      split at h
      · cases h
      · rename_i v rest hv
        cases h
        exact ⟨t, out, rest, ht, hv, rfl⟩
  · rintro ⟨t, out, rest, ht, hu, rfl⟩
    simp only [run, ht, hu]

theorem run_append {s u : σ} {as bs : List α} {tr : List ε} :
    run step s (as ++ bs) = some (u, tr) ↔
      ∃ t front back, run step s as = some (t, front) ∧ run step t bs = some (u, back) ∧
        tr = front ++ back := by
  induction as generalizing s tr with
  | nil =>
    constructor
    · intro h; exact ⟨s, [], tr, rfl, h, rfl⟩
    · rintro ⟨t, front, back, ht, hu, rfl⟩; cases ht; exact hu
  | cons a as ih =>
    simp only [List.cons_append, run_cons, ih]
    constructor
    · rintro ⟨t, out, _, ht, ⟨v, front, back, hv, hu, rfl⟩, rfl⟩
      exact ⟨v, out ++ front, back, ⟨t, out, front, ht, hv, rfl⟩, hu, by simp⟩
    · rintro ⟨v, _, back, ⟨t, out, front, ht, hv, rfl⟩, hu, rfl⟩
      exact ⟨t, out, front ++ back, ht, ⟨v, front, back, hv, hu, rfl⟩, by simp⟩

theorem run_single {s u : σ} {a : α} {tr : List ε} :
    run step s [a] = some (u, tr) ↔ step s a = some (u, tr) := by
  constructor
  · intro h
    obtain ⟨t, out, rest, ht, hn, rfl⟩ := run_cons.mp h
    cases hn
    simpa using ht
  · intro h
    exact run_cons.mpr ⟨u, tr, [], h, rfl, by simp⟩

/-- Every event of a run is shown by one of its steps. -/
theorem step_of_event {s t : σ} {as : List α} {tr : List ε} {e : ε}
    (hr : run step s as = some (t, tr)) (mem : e ∈ tr) :
    ∃ pre a, pre ++ [a] <+: as ∧ ∃ u seen v out,
      run step s pre = some (u, seen) ∧ step u a = some (v, out) ∧ e ∈ out := by
  induction as generalizing s tr with
  | nil => cases hr; cases mem
  | cons a as ih =>
    obtain ⟨v, out, rest, hs, htail, rfl⟩ := run_cons.mp hr
    cases List.mem_append.mp mem with
    | inl now => exact ⟨[], a, by simp, s, [], v, out, rfl, hs, now⟩
    | inr later =>
      obtain ⟨pre, a', inside, u, seen, w, out', hu, hs', mem'⟩ := ih htail later
      exact ⟨a :: pre, a', List.cons_prefix_cons.mpr ⟨rfl, inside⟩, u, out ++ seen, w, out',
        run_cons.mpr ⟨v, out, seen, hs, hu, rfl⟩, hs', mem'⟩

/-- Every step of the run meets the condition, judged in the state before the
step and on the trace up to there. -/
def Along (step : Step σ α ε) (ok : σ → List ε → α → Prop) :
    σ → List ε → List α → Prop
  | _, _, [] => True
  | s, seen, a :: as =>
    ok s seen a ∧ ∀ t out, step s a = some (t, out) → Along step ok t (seen ++ out) as

/-- Every state the run passes through, with its trace, has the property. -/
def Always (step : Step σ α ε) (good : σ → List ε → Prop) (s : σ) (as : List α) : Prop :=
  ∀ pre, pre <+: as → ∀ t tr, run step s pre = some (t, tr) → good t tr

theorem Along.append {ok : σ → List ε → α → Prop} {s t : σ} {seen tr : List ε}
    {as bs : List α} (h : Along step ok s seen (as ++ bs))
    (hr : run step s as = some (t, tr)) :
    Along step ok s seen as ∧ Along step ok t (seen ++ tr) bs := by
  induction as generalizing s seen tr with
  | nil => cases hr; exact ⟨trivial, by simpa using h⟩
  | cons a as ih =>
    obtain ⟨ha, hrest⟩ := h
    obtain ⟨u, out, rest, hu, htail, rfl⟩ := run_cons.mp hr
    have both := ih (hrest u out hu) htail
    refine ⟨⟨ha, fun v out' hv => ?_⟩, by simpa using both.2⟩
    rw [hu] at hv
    cases hv
    exact both.1

theorem Along.cons {ok : σ → List ε → α → Prop} {s t : σ} {seen out : List ε} {a : α} {as : List α}
    (now : ok s seen a) (hs : step s a = some (t, out)) (rest : Along step ok t (seen ++ out) as) :
    Along step ok s seen (a :: as) := by
  refine ⟨now, fun u out' hs' => ?_⟩
  rw [hs] at hs'
  cases hs'
  exact rest

theorem Along.concat {ok : σ → List ε → α → Prop} {s t : σ} {seen tr : List ε} {as bs : List α}
    (front : Along step ok s seen as) (hr : run step s as = some (t, tr))
    (back : Along step ok t (seen ++ tr) bs) : Along step ok s seen (as ++ bs) := by
  induction as generalizing s seen tr with
  | nil => cases hr; simpa using back
  | cons a as ih =>
    obtain ⟨u, out, rest, hu, htail, rfl⟩ := run_cons.mp hr
    refine ⟨front.1, fun v out' hv => ?_⟩
    rw [hu] at hv
    cases hv
    exact ih (front.2 u out hu) htail (by simpa using back)

theorem Along.imp {ok ok' : σ → List ε → α → Prop} {s : σ} {seen : List ε} {as : List α}
    (h : Along step ok s seen as) (weaker : ∀ s seen a, ok s seen a → ok' s seen a) :
    Along step ok' s seen as := by
  induction as generalizing s seen with
  | nil => trivial
  | cons a as ih => exact ⟨weaker s seen a h.1, fun t out hs => ih (h.2 t out hs)⟩

/-- A condition on the actions alone. -/
theorem along_of_forall {ok : σ → List ε → α → Prop} {as : List α}
    (all : ∀ a ∈ as, ∀ s seen, ok s seen a) (s : σ) (seen : List ε) : Along step ok s seen as := by
  induction as generalizing s seen with
  | nil => trivial
  | cons a as ih =>
    exact ⟨all a List.mem_cons_self s seen,
      fun t out _ => ih (fun b mem => all b (List.mem_cons_of_mem a mem)) t (seen ++ out)⟩

/-- What every step of a run of any length meets, each step on its own meets. -/
theorem along_iff {ok : σ → List ε → α → Prop} {s : σ} {as : List α} :
    Along step ok s [] as ↔
      ∀ pre a, pre ++ [a] <+: as → ∀ t tr, run step s pre = some (t, tr) → ok t tr a := by
  constructor
  · rintro h pre a ⟨post, rfl⟩ t tr hr
    rw [List.append_assoc] at h
    have hb := (h.append hr).2
    simpa using hb.1
  · intro h
    suffices ∀ seen pre u, run step s pre = some (u, seen) → ∀ bs, as = pre ++ bs →
        Along step ok u seen bs from this [] [] s rfl as rfl
    intro seen pre u hr bs hbs
    induction bs generalizing seen pre u with
    | nil => trivial
    | cons b bs ih =>
      refine ⟨h pre b ⟨bs, by simp [hbs]⟩ u seen hr, fun t out ht => ?_⟩
      exact ih (seen ++ out) (pre ++ [b]) t
        (run_append.mpr ⟨u, seen, out, hr, run_single.mpr ht, rfl⟩) (by simp [hbs])

/-- An invariant kept by every step that meets the condition holds after every
run whose steps all meet it. -/
theorem run_invariant_along (inv : σ → List ε → Prop) {ok : σ → List ε → α → Prop}
    {s t : σ} {seen tr : List ε} {as : List α} (h0 : inv s seen)
    (hok : Along step ok s seen as) (hr : run step s as = some (t, tr))
    (keep : ∀ s seen a t out, inv s seen → ok s seen a → step s a = some (t, out) →
      inv t (seen ++ out)) :
    inv t (seen ++ tr) := by
  induction as generalizing s seen tr with
  | nil => cases hr; simpa using h0
  | cons a as ih =>
    obtain ⟨u, out, rest, hu, htail, rfl⟩ := run_cons.mp hr
    have next := keep s seen a u out h0 hok.1 hu
    simpa using ih next (hok.2 u out hu) htail

theorem along_trivial (s : σ) (seen : List ε) (as : List α) :
    Along step (fun _ _ _ => True) s seen as :=
  along_of_forall (fun _ _ _ _ => trivial) s seen

/-- An invariant kept by every step holds after every run. -/
theorem run_invariant (inv : σ → List ε → Prop) {s t : σ} {seen tr : List ε} {as : List α}
    (h0 : inv s seen) (hr : run step s as = some (t, tr))
    (keep : ∀ s seen a t out, inv s seen → step s a = some (t, out) → inv t (seen ++ out)) :
    inv t (seen ++ tr) :=
  run_invariant_along inv h0 (along_trivial s seen as) hr
    fun s seen a t out hi _ hs => keep s seen a t out hi hs

/-- As `run_invariant_along`, where keeping the invariant may also rest on what
is known of every state that a run from here reaches. -/
theorem run_invariant_along_reached (inv : σ → List ε → Prop) {ok : σ → List ε → α → Prop}
    {s t : σ} {tr : List ε} {as : List α} (h0 : inv s []) (hok : Along step ok s [] as)
    (hr : run step s as = some (t, tr))
    (keep : ∀ pre u seen a v out, run step s pre = some (u, seen) → inv u seen → ok u seen a →
      step u a = some (v, out) → inv v (seen ++ out)) :
    inv t tr := by
  have both := run_invariant_along
    (fun u seen => (∃ pre, run step s pre = some (u, seen)) ∧ inv u seen)
    ⟨⟨[], rfl⟩, h0⟩ hok hr fun u seen a v out hi ok hs => by
      obtain ⟨⟨pre, hu⟩, inv⟩ := hi
      exact ⟨⟨pre ++ [a], run_append.mpr ⟨u, seen, out, hu, run_single.mpr hs, rfl⟩⟩,
        keep pre u seen a v out hu inv ok hs⟩
  simpa using both.2

theorem run_invariant_reached (inv : σ → List ε → Prop) {s t : σ} {tr : List ε} {as : List α}
    (h0 : inv s []) (hr : run step s as = some (t, tr))
    (keep : ∀ pre u seen a v out, run step s pre = some (u, seen) → inv u seen →
      step u a = some (v, out) → inv v (seen ++ out)) :
    inv t tr :=
  run_invariant_along_reached inv h0 (along_trivial s [] as) hr
    fun pre u seen a v out hu hi _ hs => keep pre u seen a v out hu hi hs

theorem always_of_along (inv : σ → List ε → Prop) {ok : σ → List ε → α → Prop}
    {s : σ} {as : List α} (h0 : inv s []) (hok : Along step ok s [] as)
    (keep : ∀ s seen a t out, inv s seen → ok s seen a → step s a = some (t, out) →
      inv t (seen ++ out)) :
    Always step inv s as := by
  rintro pre ⟨post, rfl⟩ t tr hr
  have front := (hok.append hr).1
  simpa using run_invariant_along inv h0 front hr keep

/-- Bounded response. While the machine stays `live` and the goal is not yet
reached, every counted action lowers the rank and no other action raises it.
Then a run with as many counted actions as the rank it started from, still
live at its end, has reached the goal. -/
theorem run_progress (inv goal : σ → List ε → Prop) (live : σ → Prop) (rank : σ → List ε → Nat)
    (counted : α → Bool)
    (keep : ∀ s seen a t out, inv s seen → step s a = some (t, out) → inv t (seen ++ out))
    (stays : ∀ s seen a t out, inv s seen → step s a = some (t, out) → live t → live s)
    (stable : ∀ s seen a t out, goal s seen → step s a = some (t, out) → goal t (seen ++ out))
    (lower : ∀ s seen a t out, inv s seen → step s a = some (t, out) → live t →
      goal t (seen ++ out) ∨
        rank t (seen ++ out) + (if counted a then 1 else 0) ≤ rank s seen)
    (positive : ∀ s seen, inv s seen → live s → ¬ goal s seen → 0 < rank s seen)
    {s t : σ} {seen tr : List ε} {as : List α} (h0 : inv s seen)
    (hr : run step s as = some (t, tr)) (hl : live t)
    (enough : rank s seen ≤ as.countP counted) : goal t (seen ++ tr) := by
  have liveRun : ∀ (as : List α) (s : σ) (seen tr : List ε), inv s seen →
      run step s as = some (t, tr) → live s := by
    intro as
    induction as with
    | nil => intro s seen tr _ hr; cases hr; exact hl
    | cons a as ih =>
      intro s seen tr hi hr
      obtain ⟨u, out, rest, hu, htail, rfl⟩ := run_cons.mp hr
      have next := keep s seen a u out hi hu
      exact stays s seen a u out hi hu (ih u (seen ++ out) rest next htail)
  induction as generalizing s seen tr with
  | nil =>
    cases hr
    simp only [List.countP_nil, Nat.le_zero] at enough
    rw [List.append_nil]
    by_contra missed
    have := positive t seen h0 hl missed
    omega
  | cons a as ih =>
    obtain ⟨u, out, rest, hu, htail, rfl⟩ := run_cons.mp hr
    have next := keep s seen a u out h0 hu
    have liveU := liveRun as u (seen ++ out) rest next htail
    rw [← List.append_assoc]
    cases lower s seen a u out h0 hu liveU with
    | inl reached => exact run_invariant goal reached htail stable
    | inr fell =>
      apply ih next htail
      rw [List.countP_cons] at enough
      omega

/-! ## A machine with some actions ruled out -/

/-- The machine without the actions that its surroundings never take. -/
def guarded (ok : σ → α → Bool) (step : Step σ α ε) : Step σ α ε
  | s, a => if ok s a then step s a else none

theorem guarded_step {ok : σ → α → Bool} {s t : σ} {a : α} {out : List ε} :
    guarded ok step s a = some (t, out) ↔ ok s a = true ∧ step s a = some (t, out) := by
  by_cases allowed : ok s a = true
  · simp [guarded, allowed]
  · simp [guarded, allowed]

theorem guarded_run {ok : σ → α → Bool} {s t : σ} {seen tr : List ε} {as : List α}
    (h : run step s as = some (t, tr)) (fine : Along step (fun s _ a => ok s a = true) s seen as) :
    run (guarded ok step) s as = some (t, tr) := by
  induction as generalizing s seen tr with
  | nil => exact h
  | cons a as ih =>
    obtain ⟨u, out, rest, hu, htail, rfl⟩ := run_cons.mp h
    have first := guarded_step.mpr ⟨fine.1, hu⟩
    exact run_cons.mpr ⟨u, out, rest, first, ih htail (fine.2 u out hu), rfl⟩

theorem run_of_guarded {ok : σ → α → Bool} {s t : σ} {tr : List ε} {as : List α}
    (h : run (guarded ok step) s as = some (t, tr)) : run step s as = some (t, tr) := by
  induction as generalizing s tr with
  | nil => exact h
  | cons a as ih =>
    obtain ⟨u, out, rest, hu, htail, rfl⟩ := run_cons.mp h
    exact run_cons.mpr ⟨u, out, rest, (guarded_step.mp hu).2, ih htail, rfl⟩

/-! ## A stopwatch beside the machine -/

/-- The machine with a count of some of its actions since it last showed some
event, or since it started. -/
def stopwatch (step : Step σ α ε) (counts : α → Bool) (resets : ε → Bool) : Step (σ × Nat) α ε
  | (s, k), a =>
    match step s a with
    | none => none
    | some (t, out) =>
      some ((t, if out.any resets then 0 else if counts a then k + 1 else k), out)

theorem stopwatch_step {counts : α → Bool} {resets : ε → Bool} {s t : σ} {k j : Nat} {a : α}
    {out : List ε} (h : stopwatch step counts resets (s, k) a = some ((t, j), out)) :
    step s a = some (t, out) ∧
      j = if out.any resets then 0 else if counts a then k + 1 else k := by
  simp only [stopwatch] at h
  split at h
  · cases h
  · rename_i ht
    cases h
    exact ⟨ht, rfl⟩

/-- The stopwatch does not disturb the machine. -/
theorem stopwatch_run {counts : α → Bool} {resets : ε → Bool} {s t : σ} {k j : Nat} {as : List α}
    {tr : List ε} (h : run (stopwatch step counts resets) (s, k) as = some ((t, j), tr)) :
    run step s as = some (t, tr) := by
  induction as generalizing s k tr with
  | nil => cases h; rfl
  | cons a as ih =>
    obtain ⟨⟨u, i⟩, out, rest, hu, htail, rfl⟩ := run_cons.mp h
    exact run_cons.mpr ⟨u, out, rest, (stopwatch_step hu).1, ih htail, rfl⟩

end MidiGw.Runs
