import MidiGw.Wire

/-!
# The repeat counter

With `--repeats` the loop counts its messages in `i`, after each write, and
leaves once the count is reached. The count is compared after it was raised:
for which counts the loop runs as often as it is asked to.
-/

namespace MidiGw.Tapper

open Cmdline (ArgsInfo)
open Runs (run run_append run_invariant run_single)

/-- Written in this iteration and not counted yet. -/
def Pc.uncounted : Pc → Int
  | .now1 | .checkRepeats => 1
  | _ => 0

/-- `i` as it will be when the loop is back at its head. -/
def State.counted (s : State) : Int := s.i + s.pc.uncounted

/-- A step is the write, or it sends nothing and keeps the count. -/
theorem write_or_keep {b : Build} {args : ArgsInfo} {s t : State} {a : Act} {out : List Event}
    (hs : step b args s a = some (t, out)) :
    (∃ r, s.pc = .write ∧ out = [.wrote s.midiMsg r] ∧ t.i = s.i ∧
      (t.pc = .now1 ∨ t.pc = .checkRepeats)) ∨
    (sent out = 0 ∧ (args.repeats.given ≠ 0 → t.counted = s.counted)) := by
  rcases step_sends hs with ⟨r, pc, rfl, rfl⟩ | unsent
  · refine .inl ⟨r, pc, rfl, rfl, ?_⟩
    dsimp only
    split
    · exact .inl rfl
    · exact .inr rfl
  · refine .inr ⟨unsent, fun given => ?_⟩
    cases step_move hs with
    | write r pc => cases unsent
    | call c r pc =>
      have setup := callStep_setup b args s r c
      have zero := callStep_pc (fun pc => pc.uncounted = 0)
        (by intro c; cases c <;> rfl) rfl b args s r c
      rw [State.counted, setup.i, zero, State.counted, pc]
      rfl
    | clear r pc => cases b.debug <;> simp [State.counted, pc, Pc.uncounted]
    | uncounted r pc absent => exact absurd absent given
    | encode r pc | stay r pc | leave r pc | slept r pc | fired r pc | quiet r pc | now0 r pc
    | now1 r pc | counted r pc | «break» r pc | close r pc =>
      simp [State.counted, pc, Pc.uncounted]
    | enter | kill | tick | interrupt => rfl

/-- The count is compared after it was raised, so one message is always sent. -/
def repeatLimit (args : ArgsInfo) : Int := max 1 args.repeats.arg.toInt

/-- How much the loop may still count before it is left. -/
def Pc.toCount : Pc → Int
  | .closeSerial | .exited _ => 0
  | _ => 1

/-- With `--repeats`: the messages sent are counted, or about to be, and the
count stays within its limit. -/
structure RepeatInv (args : ArgsInfo) (s : State) (tr : List Event) : Prop where
  count : (sent tr : Int) = s.counted
  fits : s.i + s.pc.toCount ≤ repeatLimit args

theorem repeatInv_step {b : Build} {args : ArgsInfo} (given : args.repeats.given ≠ 0)
    {s t : State} {tr out : List Event} {a : Act} (h : RepeatInv args s tr)
    (hs : step b args s a = some (t, out)) : RepeatInv args t (tr ++ out) := by
  obtain ⟨count, fits⟩ := h
  constructor
  · rw [sent_append]
    rcases write_or_keep hs with ⟨r, pc, rfl, i, next⟩ | ⟨unsent, keep⟩
    · have one : t.pc.uncounted = 1 := by rcases next with h | h <;> rw [h] <;> rfl
      have zero : s.pc.uncounted = 0 := by rw [pc]; rfl
      have wrote : sent [.wrote s.midiMsg r] = 1 := rfl
      unfold State.counted at count ⊢
      omega
    · rw [unsent, keep given]
      exact count
  · cases step_move hs with
    | call c r pc =>
      rw [pc] at fits
      rw [(callStep_setup b args s r c).i]
      have most : (callStep b args s r c).1.pc.toCount ≤ 1 := by
        cases (callStep b args s r c).1.pc <;> simp [Pc.toCount]
      exact Int.le_trans (Int.add_le_add_left most s.i) fits
    | leave r pc => rw [pc] at fits; simp only [Pc.toCount] at fits ⊢; omega
    | counted r pc _ more =>
      simp only [Pc.toCount, repeatLimit]
      omega
    | «break» r pc _ reached =>
      rw [pc] at fits
      simpa [Pc.toCount] using fits
    | uncounted r pc absent => exact absurd absent given
    | clear r pc | write r pc =>
      rw [pc] at fits
      cases b.debug <;> exact fits
    | encode r pc | stay r pc | slept r pc | fired r pc | quiet r pc | now0 r pc | now1 r pc
    | close r pc => rw [pc] at fits; exact fits
    | enter | kill | tick | interrupt => exact fits

theorem reachable_repeatInv {b : Build} {args : ArgsInfo} (given : args.repeats.given ≠ 0)
    {acts : List Act} {s : State} {tr : List Event}
    (h : run (step b args) start acts = some (s, tr)) : RepeatInv args s tr := by
  have h0 : RepeatInv args start [] := ⟨rfl, Int.le_max_left 1 _⟩
  simpa using run_invariant (RepeatInv args) h0 h fun _ _ _ _ _ hi hs => repeatInv_step given hi hs

/-- With `--repeats` the loop sends no more than it asks for, but always one. -/
theorem repeats_sent {b : Build} {args : ArgsInfo} (given : args.repeats.given ≠ 0)
    {acts : List Act} {s : State} {tr : List Event}
    (h : run (step b args) start acts = some (s, tr)) :
    (sent tr : Int) ≤ repeatLimit args := by
  obtain ⟨count, fits⟩ := reachable_repeatInv given h
  have behind : s.pc.uncounted ≤ s.pc.toCount := by
    cases s.pc with
    | now1 | checkRepeats => exact Int.le_refl 1
    | closeSerial | exited => exact Int.le_refl 0
    | _ => exact Int.zero_le_ofNat 1
  unfold State.counted at count
  omega

/-! ## The counter stays an `int` -/

/-- Without `--repeats` nothing is counted. -/
theorem absent_step {b : Build} {args : ArgsInfo} (absent : args.repeats.given = 0)
    {s t : State} {out : List Event} {a : Act} (zero : s.i = 0)
    (hs : step b args s a = some (t, out)) : t.i = 0 := by
  cases step_move hs with
  | call c r pc => rw [(callStep_setup b args s r c).i, zero]
  | counted r pc given | «break» r pc given => exact absurd absent given
  | encode | stay | leave | slept | fired | quiet | clear | now0 | write | now1 | uncounted | close
  | enter | kill | tick | interrupt => exact zero

theorem absent_count {b : Build} {args : ArgsInfo} (absent : args.repeats.given = 0)
    {acts : List Act} {s : State} {tr : List Event}
    (h : run (step b args) start acts = some (s, tr)) : s.i = 0 :=
  @run_invariant _ _ _ _ (fun s _ => s.i = 0) start s [] tr acts rfl h
    fun _ _ _ _ _ zero hs => absent_step absent zero hs

/-- Whatever is asked for, `i` never overflows. -/
theorem counter_fits {b : Build} {args : ArgsInfo} {acts : List Act} {s : State} {tr : List Event}
    (h : run (step b args) start acts = some (s, tr)) : -2 ^ 31 ≤ s.i ∧ s.i < 2 ^ 31 := by
  by_cases absent : args.repeats.given = 0
  · have zero := absent_count absent h
    omega
  · obtain ⟨count, fits⟩ := reachable_repeatInv absent h
    have top := args.repeats.arg.toInt_lt
    have most : s.pc.uncounted ≤ 1 := by cases s.pc <;> simp [Pc.uncounted]
    have nonneg : 0 ≤ s.pc.toCount := by cases s.pc <;> simp [Pc.toCount]
    unfold State.counted at count
    unfold repeatLimit at fits
    omega

/-! ## Ways out of the loop -/

/-- `running` is only cleared by `handler_int`. -/
theorem running_step {b : Build} {args : ArgsInfo} {s t : State} {tr out : List Event} {a : Act}
    (h : s.running = true ∨ .interrupt ∈ tr) (hs : step b args s a = some (t, out)) :
    t.running = true ∨ .interrupt ∈ tr ++ out := by
  cases step_move hs with
  | interrupt => exact .inr (List.mem_append_right tr List.mem_cons_self)
  | call c r pc =>
    rw [(callStep_setup b args s r c).running]
    exact h.imp id (List.mem_append_left _)
  | encode | stay | leave | slept | fired | quiet | clear | now0 | write | now1 | uncounted
  | counted | «break» | close | enter | kill | tick => exact h.imp id (List.mem_append_left _)

theorem reachable_running {b : Build} {args : ArgsInfo} {acts : List Act} {s : State}
    {tr : List Event} (h : run (step b args) start acts = some (s, tr)) :
    s.running = true ∨ .interrupt ∈ tr := by
  have h0 : start.running = true ∨ Event.interrupt ∈ [] := .inl rfl
  simpa using run_invariant (fun s tr => s.running = true ∨ .interrupt ∈ tr) h0 h
    fun _ _ _ _ _ hi hs => running_step hi hs

/-- The loop is left at its head, behind a run of `handler_int`. -/
def BySigint (s : State) (tr : List Event) : Prop := s.pc = .testRunning ∧ .interrupt ∈ tr

/-- The loop is left by its `break`, behind exactly as many messages as asked for. -/
def ByCount (args : ArgsInfo) (s : State) (tr : List Event) : Prop :=
  s.pc = .checkRepeats ∧ args.repeats.given ≠ 0 ∧ (sent tr : Int) = args.repeats.arg.toInt

/-- If a step from here leaves the loop, then in this way. -/
def LeftBy (b : Build) (args : ArgsInfo) (s : State) (way : Prop) : Prop :=
  ∀ a t out, step b args s a = some (t, out) → s.pc.inLoop = true → t.pc.inLoop = false → way

/-- The loop is left by the test at its head, or by the break. -/
theorem left_at {b : Build} {args : ArgsInfo} {s t : State} {out : List Event} {a : Act}
    (hs : step b args s a = some (t, out)) (inside : s.pc.inLoop = true)
    (outside : t.pc.inLoop = false) :
    s.pc = .testRunning ∧ s.running = false ∨
      s.pc = .checkRepeats ∧ args.repeats.given ≠ 0 ∧ args.repeats.arg.toInt ≤ s.i + 1 := by
  cases step_move hs with
  | leave r pc off => exact .inl ⟨pc, off⟩
  | «break» r pc given reached => exact .inr ⟨pc, given, reached⟩
  | call c r pc | encode r pc | close r pc => rw [pc] at inside; cases inside
  | clear | write => dsimp only at outside; split at outside <;> cases outside
  | stay | slept | fired | quiet | now0 | now1 | uncounted | counted => cases outside
  | enter | kill | tick | interrupt => rw [inside] at outside; cases outside

/-- What `--repeats` promises. -/
structure RepeatsExact (b : Build) (args : ArgsInfo) (s : State) (tr : List Event) : Prop where
  most : args.repeats.given ≠ 0 → (sent tr : Int) ≤ max args.repeats.arg.toInt 0
  fits : -2 ^ 31 ≤ s.i ∧ s.i < 2 ^ 31
  left : LeftBy b args s (BySigint s tr ∨ ByCount args s tr)
  /-- -1 is the default, which repeats forever -/
  forever : args.repeats.given = 0 ∨ args.repeats.arg = -1 → LeftBy b args s (BySigint s tr)

theorem absent_left {b : Build} {args : ArgsInfo} (absent : args.repeats.given = 0)
    {acts : List Act} {s : State} {tr : List Event}
    (h : run (step b args) start acts = some (s, tr)) : LeftBy b args s (BySigint s tr) := by
  intro a t out hs inside outside
  obtain ⟨pc, off⟩ | ⟨-, given, -⟩ := left_at hs inside outside
  · have on := reachable_running h
    rw [off] at on
    exact ⟨pc, on.resolve_left (by decide)⟩
  · exact absurd absent given

/-- A count of one or more is kept exactly. -/
theorem counted_left {b : Build} {args : ArgsInfo} (given : args.repeats.given ≠ 0)
    (positive : 1 ≤ args.repeats.arg.toInt) {acts : List Act} {s : State} {tr : List Event}
    (h : run (step b args) start acts = some (s, tr)) :
    LeftBy b args s (BySigint s tr ∨ ByCount args s tr) := by
  intro a t out hs inside outside
  obtain ⟨pc, off⟩ | ⟨pc, -, reached⟩ := left_at hs inside outside
  · have on := reachable_running h
    rw [off] at on
    exact .inl ⟨pc, on.resolve_left (by decide)⟩
  · obtain ⟨count, fits⟩ := reachable_repeatInv given h
    simp only [State.counted, pc, Pc.uncounted] at count
    simp only [pc, Pc.toCount, repeatLimit] at fits
    exact .inr ⟨pc, given, by omega⟩

theorem repeats_exact {b : Build} {args : ArgsInfo}
    (fine : ¬ChannelOk args ∨ args.repeats.given = 0 ∨ 1 ≤ args.repeats.arg.toInt)
    {acts : List Act} {s : State} {tr : List Event}
    (h : run (step b args) start acts = some (s, tr)) : RepeatsExact b args s tr := by
  have fits := counter_fits h
  by_cases refused : ¬ChannelOk args
  · -- the loop is never entered
    have never {way : Prop} : LeftBy b args s way := fun a t out hs inside _ =>
      absurd (channelOk_of_inLoop h inside) refused
    refine ⟨fun _ => ?_, fits, never, fun _ => never⟩
    rw [unsent_of_refused refused h]
    exact Int.le_max_right _ 0
  · by_cases absent : args.repeats.given = 0
    · have sigint := absent_left absent h
      exact ⟨fun given => absurd absent given, fits,
        fun a t out hs inside outside => .inl (sigint a t out hs inside outside), fun _ => sigint⟩
    · have positive := (fine.resolve_left refused).resolve_left absent
      refine ⟨fun _ => ?_, fits, counted_left absent positive h, fun either => ?_⟩
      · have most := repeats_sent absent h
        unfold repeatLimit at most
        omega
      · cases either with
        | inl missing => exact absurd missing absent
        | inr forever =>
          rw [forever] at positive
          exact absurd positive (by decide)

/-! ## A run to the limit -/

/-- In front of the loop test, behind `i` messages. -/
def headAt (args : ArgsInfo) (i : Int) : State := { loopHead args with i := i }

/-- Behind the next message. -/
def checkAt (args : ArgsInfo) (i : Int) : State := { headAt args i with pc := .checkRepeats }

/-- A tap, and `main` on to the check of the repeats. -/
def toCheck (b : Build) : List Act :=
  tap b ++ List.replicate (if b.debug then 1 else 0) (.main okSys)

theorem toCheck_run (b : Build) (args : ArgsInfo) (i : Int) :
    ∃ tr, run (step b args) (headAt args i) (toCheck b) = some (checkAt args i, tr) := by
  have taps := tap_run b args (⟨rfl, rfl, rfl, rfl, rfl, rfl⟩ : AtHead (headAt args i))
  have rest : ∃ back, run (step b args) (tapped b (headAt args i))
      (List.replicate (if b.debug then 1 else 0) (.main okSys)) =
        some (checkAt args i, back) := by
    cases debug : b.debug <;>
      simp [tapped, debug, run, step, State.over, Pc.exits, checkAt, headAt, loopHead, start,
        mainStep]
  obtain ⟨back, rest⟩ := rest
  exact ⟨_, run_append.mpr ⟨_, _, _, taps, rest, rfl⟩⟩

theorem check_back (b : Build) {args : ArgsInfo} (given : args.repeats.given ≠ 0) {i : Int}
    (more : ¬i + 1 ≥ args.repeats.arg.toInt) :
    step b args (checkAt args i) (.main okSys) = some (headAt args (i + 1), []) := by
  simp [step, State.over, Pc.exits, checkAt, headAt, loopHead, start, mainStep, given, more]

theorem check_break (b : Build) {args : ArgsInfo} (given : args.repeats.given ≠ 0) {i : Int}
    (reached : i + 1 ≥ args.repeats.arg.toInt) :
    step b args (checkAt args i) (.main okSys) =
      some ({ headAt args (i + 1) with pc := .closeSerial }, []) := by
  simp [step, State.over, Pc.exits, checkAt, headAt, loopHead, start, mainStep, given, reached]

/-- The loop comes back to its head as long as the count is below the limit. -/
theorem laps_run (b : Build) {args : ArgsInfo} (given : args.repeats.given ≠ 0) (k : Nat)
    (below : (k : Int) < repeatLimit args) :
    ∃ acts tr, run (step b args) (loopHead args) acts = some (headAt args k, tr) := by
  induction k with
  | zero => exact ⟨[], [], rfl⟩
  | succ k ih =>
    obtain ⟨acts, tr, front⟩ := ih (by omega)
    obtain ⟨tr', lap⟩ := toCheck_run b args k
    have more : ¬(k : Int) + 1 ≥ args.repeats.arg.toInt := by
      unfold repeatLimit at below
      omega
    have back := check_back b given more
    have both := run_append.mpr ⟨_, _, _, front, lap, rfl⟩
    exact ⟨_, _, run_append.mpr ⟨_, _, _, both, run_single.mpr back, rfl⟩⟩

/-- With `--repeats` a loop that is left alone does come to its break. -/
theorem break_reached (b : Build) {args : ArgsInfo} (ok : ChannelOk args)
    (given : args.repeats.given ≠ 0) :
    ∃ acts s tr t, run (step b args) start acts = some (s, tr) ∧ s.pc = .checkRepeats ∧
      step b args s (.main okSys) = some (t, []) ∧ t.pc = .closeSerial := by
  have limit : 1 ≤ repeatLimit args := Int.le_max_left 1 _
  obtain ⟨acts, tr, laps⟩ := laps_run b given (repeatLimit args - 1).toNat (by omega)
  obtain ⟨tr', lap⟩ := toCheck_run b args (repeatLimit args - 1).toNat
  have reached : ((repeatLimit args - 1).toNat : Int) + 1 ≥ args.repeats.arg.toInt := by
    have := Int.le_max_right 1 args.repeats.arg.toInt
    unfold repeatLimit at limit ⊢
    omega
  have entered := run_append.mpr ⟨_, _, _, boot_run b args ok, laps, rfl⟩
  have leave := check_break b given reached
  exact ⟨_, _, _, _, run_append.mpr ⟨_, _, _, entered, lap, rfl⟩, rfl, leave, rfl⟩

/-- **Exact repeats.** What `--repeats` promises holds in every run if and only
if it is absent or asks for one message at least, or no message is sent at all
because the channel is refused. A loop with `--repeats` can always be left by
its break, also where -1 is asked for. -/
theorem repeats_exact_iff (b : Build) (args : ArgsInfo) :
    ((∀ acts s tr, run (step b args) start acts = some (s, tr) → RepeatsExact b args s tr) ↔
      ¬ChannelOk args ∨ args.repeats.given = 0 ∨ 1 ≤ args.repeats.arg.toInt) ∧
    ((∀ acts s tr, run (step b args) start acts = some (s, tr) →
        LeftBy b args s (BySigint s tr)) ↔ ¬ChannelOk args ∨ args.repeats.given = 0) := by
  constructor
  · constructor
    · intro promised
      by_cases ok : ChannelOk args
      · by_cases absent : args.repeats.given = 0
        · exact .inr (.inl absent)
        · obtain ⟨s, tr, h, -, one, -⟩ := first_message b args ok
          have most := (promised _ s tr h).most absent
          rw [one] at most
          exact .inr (.inr (by omega))
      · exact .inl ok
    · intro fine acts s tr h
      exact repeats_exact fine h
  · constructor
    · intro sigint
      by_cases ok : ChannelOk args
      · right
        by_contra given
        obtain ⟨acts, s, tr, t, h, check, hs, out⟩ := break_reached b ok given
        have head := (sigint acts s tr h _ t [] hs (by rw [check]; rfl) (by rw [out]; rfl)).1
        rw [check] at head
        cases head
      · exact .inl ok
    · rintro (refused | absent) acts s tr h
      · exact fun a t out hs inside _ => absurd (channelOk_of_inLoop h inside) refused
      · exact absent_left absent h

/-- `--repeats=-1`. -/
def repeatsForever : ArgsInfo :=
  { Cmdline.cmdlineParserInit with repeats := ⟨-1, some "-1".toList, 1⟩ }

/-- The default, given explicitly, ends the loop behind its first message. -/
theorem repeats_not_exact :
    ¬∀ (b : Build) (args : ArgsInfo) acts s tr, run (step b args) start acts = some (s, tr) →
      RepeatsExact b args s tr := by
  intro promised
  obtain ⟨acts, s, tr, t, h, check, hs, out⟩ :=
    @break_reached (Build.plain false) repeatsForever (by decide) (by decide)
  have head := ((promised _ _ acts s tr h).forever (.inr rfl) _ t [] hs (by rw [check]; rfl)
    (by rw [out]; rfl)).1
  rw [check] at head
  cases head

end MidiGw.Tapper
