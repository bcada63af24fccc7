import MidiGw.Repeats
import MidiGw.Stop
import MidiGw.Wire

/-!
# Short and failed writes

The port is opened with O_NDELAY and `sendCC` discards the result of `write`,
so under back-pressure any write may take part of a message or nothing. Which
results keep the stream a sequence of whole messages, rightly counted.
-/

namespace MidiGw.Tapper

open Cmdline (ArgsInfo)
open Runs (Along Always along_iff run run_append run_invariant run_invariant_along)

/-- Whether a write leaves the stream whole and is counted right: all three
bytes are accepted, or none where no repeats are counted. -/
def WriteOk (args : ArgsInfo) : Event → Prop
  | .wrote _ ret => 3 ≤ ret ∨ (ret ≤ 0 ∧ args.repeats.given = 0)
  | _ => True

/-- The accepted bytes are whole messages, as many as `i` counts if repeats are
given. -/
def Whole (args : ArgsInfo) (s : State) (tr : List Event) : Prop :=
  ∃ k, wire tr = (List.replicate k (midiMsg args).bytes).flatten ∧
    (args.repeats.given ≠ 0 → (k : Int) = s.i)

/-- So it is back at the head of the loop. -/
def HeadWhole (args : ArgsInfo) (s : State) (tr : List Event) : Prop :=
  s.pc = .testRunning → Whole args s tr

/-- Behind the loop, the bytes are whole messages and rightly counted exactly if
every write was all right; if not, the message of the last repeat is counted
and only part of it on the wire, or nothing. -/
def LeftWhole (args : ArgsInfo) (s : State) (tr : List Event) : Prop :=
  s.pc.setup = false → s.pc.inLoop = false →
    (Whole args s tr ↔ ∀ e ∈ tr, WriteOk args e) ∧
    (¬Whole args s tr → args.repeats.given ≠ 0 ∧ ∃ (k : Nat) (part : List UInt8),
      wire tr = (List.replicate k (midiMsg args).bytes).flatten ++ part ∧
      part <+: (midiMsg args).bytes ∧ part.length < 3 ∧ (k : Int) + 1 = s.i)

/-- While every write is all right: whole messages, counted or about to be. -/
def WholeInv (args : ArgsInfo) (s : State) (tr : List Event) : Prop :=
  (∀ e ∈ tr, WriteOk args e) →
    ∃ k, wire tr = (List.replicate k (midiMsg args).bytes).flatten ∧
      (args.repeats.given ≠ 0 → (k : Int) = s.i + s.pc.uncounted)

theorem unsent_writeOk {args : ArgsInfo} {out : List Event} (unsent : sent out = 0) :
    ∀ e ∈ out, WriteOk args e := by
  intro e mem
  have := List.countP_eq_zero.mp unsent e mem
  cases e <;> trivial

theorem wholeInv_step {b : Build} {args : ArgsInfo} {s t : State} {tr out : List Event} {a : Act}
    (msg : MsgInv args s tr) (h : WholeInv args s tr) (hs : step b args s a = some (t, out)) :
    WholeInv args t (tr ++ out) := by
  intro all
  obtain ⟨k, whole, count⟩ := h fun e mem => all e (List.mem_append_left out mem)
  rcases write_or_keep hs with ⟨r, pc, rfl, i, next⟩ | ⟨unsent, keep⟩
  · have same := (msg.encoded (by rw [pc]; rfl) (by rw [pc]; rfl)).2
    have three : (midiMsg args).bytes.length = 3 := rfl
    have one : t.pc.uncounted = 1 := by rcases next with h | h <;> rw [h] <;> rfl
    have zero : s.pc.uncounted = 0 := by rw [pc]; rfl
    have wire1 : wire [.wrote s.midiMsg r] = (midiMsg args).bytes.take r.toNat := by
      rw [same]; simp [wire, Event.accepted]
    rcases all _ (List.mem_append_right tr List.mem_cons_self) with full | ⟨failed, absent⟩
    · refine ⟨k + 1, ?_, fun given => ?_⟩
      · rw [wire_append, whole, wire1, List.take_of_length_le (by omega), List.replicate_succ',
          List.flatten_concat]
      · have := count given
        omega
    · refine ⟨k, ?_, fun given => absurd absent given⟩
      have nothing : r.toNat = 0 := by omega
      rw [wire_append, whole, wire1, nothing, List.take_zero, List.append_nil]
  · refine ⟨k, by rw [wire_append, wire_of_unsent unsent, List.append_nil, whole], fun given => ?_⟩
    exact (count given).trans (keep given).symm

theorem startWholeInv (args : ArgsInfo) : WholeInv args start [] :=
  fun _ => ⟨0, rfl, fun _ => rfl⟩

/-- Behind a write that was not all right, on the way back to the head or out
of the loop: part of a message is on the wire, or the count is ahead. -/
structure Torn (args : ArgsInfo) (s : State) (tr : List Event) : Prop where
  behind : s.pc.setup = false ∧ s.pc.inIteration = false
  left : s.pc.inLoop = false → args.repeats.given ≠ 0
  bad : ∃ (k : Nat) (part : List UInt8),
    wire tr = (List.replicate k (midiMsg args).bytes).flatten ++ part ∧
    part <+: (midiMsg args).bytes ∧ part.length < 3 ∧ (part = [] → args.repeats.given ≠ 0) ∧
    (args.repeats.given ≠ 0 → (k : Int) + 1 = s.counted)

theorem whole_length (args : ArgsInfo) (k : Nat) :
    (List.replicate k (midiMsg args).bytes).flatten.length = 3 * k := by
  rw [List.length_flatten, List.map_replicate, List.sum_replicate_nat]
  exact Nat.mul_comm k 3

theorem Torn.no_whole {args : ArgsInfo} {s : State} {tr : List Event} (h : Torn args s tr)
    (counted : s.pc.uncounted = 0) : ¬Whole args s tr := by
  rintro ⟨k, bytes, count⟩
  obtain ⟨k', part, bytes', -, short, missing, ahead⟩ := h.bad
  have length := congrArg List.length bytes
  rw [whole_length, bytes', List.length_append, whole_length] at length
  have given := missing (List.eq_nil_of_length_eq_zero (by omega))
  have here := count given
  have there := ahead given
  rw [State.counted, counted] at there
  omega

theorem torn_step {b : Build} {args : ArgsInfo} {s t : State} {tr out : List Event} {a : Act}
    (h : Torn args s tr) (off : s.pc ≠ .testRunning) (hs : step b args s a = some (t, out)) :
    Torn args t (tr ++ out) := by
  obtain ⟨⟨setup, outside⟩, left, bad⟩ := h
  have behind : (t.pc.setup = false ∧ t.pc.inIteration = false) ∧
      (t.pc.inLoop = false → args.repeats.given ≠ 0) := by
    cases step_move hs with
    | call c r pc | encode r pc => rw [pc] at setup; cases setup
    | stay r pc | leave r pc => exact absurd pc off
    | slept r pc | fired r pc | quiet r pc | clear r pc | now0 r pc | write r pc =>
      rw [pc] at outside; cases outside
    | now1 | uncounted | counted => exact ⟨⟨rfl, rfl⟩, fun e => by cases e⟩
    | «break» r pc given => exact ⟨⟨rfl, rfl⟩, fun _ => given⟩
    | close r pc => exact ⟨⟨rfl, rfl⟩, fun _ => left (by rw [pc]; rfl)⟩
    | enter | kill | tick | interrupt => exact ⟨⟨setup, outside⟩, left⟩
  refine ⟨behind.1, behind.2, ?_⟩
  rcases write_or_keep hs with ⟨r, pc, -⟩ | ⟨unsent, keep⟩
  · rw [pc] at outside; cases outside
  · rw [wire_append, wire_of_unsent unsent, List.append_nil]
    obtain ⟨k, part, bytes, front, short, missing, ahead⟩ := bad
    exact ⟨k, part, bytes, front, short, missing, fun given => (ahead given).trans (keep given).symm⟩

/-- The first write that is not all right tears the stream or the count. -/
theorem first_tear {b : Build} {args : ArgsInfo} {s t : State} {tr out : List Event} {a : Act}
    (msg : MsgInv args s tr) (whole : WholeInv args s tr) (fine : ∀ e ∈ tr, WriteOk args e)
    (hs : step b args s a = some (t, out)) :
    (∀ e ∈ tr ++ out, WriteOk args e) ∨ Torn args t (tr ++ out) := by
  rcases write_or_keep hs with ⟨r, pc, rfl, i, next⟩ | ⟨unsent, -⟩
  · by_cases ok : WriteOk args (.wrote s.midiMsg r)
    · exact .inl (List.forall_mem_append.mpr ⟨fine, by simpa using ok⟩)
    · right
      have same := (msg.encoded (by rw [pc]; rfl) (by rw [pc]; rfl)).2
      obtain ⟨k, bytes, count⟩ := whole fine
      have front := congrArg List.length bytes
      rw [whole_length] at front
      have taken : wire [.wrote s.midiMsg r] = (midiMsg args).bytes.take r.toNat := by
        rw [same]; simp [wire, Event.accepted]
      have three : (midiMsg args).bytes.length = 3 := rfl
      simp only [WriteOk, not_or, not_and] at ok
      have back : (t.pc.setup = false ∧ t.pc.inIteration = false) ∧ t.pc.inLoop = true ∧
          t.pc.uncounted = 1 := by
        rcases next with now1 | check
        · rw [now1]; exact ⟨⟨rfl, rfl⟩, rfl, rfl⟩
        · rw [check]; exact ⟨⟨rfl, rfl⟩, rfl, rfl⟩
      have zero : s.pc.uncounted = 0 := by rw [pc]; rfl
      refine ⟨back.1, fun out => ?_, k, (midiMsg args).bytes.take r.toNat, ?_,
        List.take_prefix _ _, ?_, fun empty => ?_, fun given => ?_⟩
      · rw [back.2.1] at out; cases out
      · rw [wire_append, bytes, taken]
      · rw [List.length_take, three]; omega
      · have length := congrArg List.length empty
        rw [List.length_take, three, List.length_nil] at length
        exact ok.2 (by omega)
      · have := count given
        rw [State.counted, back.2.2]
        omega
  · exact .inl (List.forall_mem_append.mpr ⟨fine, unsent_writeOk unsent⟩)

/-- Along a run that is always back at the head with whole messages, every write
was all right so far, or one that was not is the last of the loop. -/
theorem tear_along {b : Build} {args : ArgsInfo} {acts : List Act}
    (whole : Always (step b args) (HeadWhole args) start acts) :
    Always (step b args) (fun s tr => WholeInv args s tr ∧
      ((∀ e ∈ tr, WriteOk args e) ∨ Torn args s tr)) start acts := by
  intro pre hp t tr hr
  have along : Along (step b args) (fun s seen _ => HeadWhole args s seen) start [] pre :=
    along_iff.mpr fun pre' a hp' s seen hs =>
      whole pre' (((List.prefix_append pre' [a]).trans hp').trans hp) s seen hs
  have inv := run_invariant_along
    (fun s tr => MsgInv args s tr ∧ WholeInv args s tr ∧
      ((∀ e ∈ tr, WriteOk args e) ∨ Torn args s tr))
    ⟨startMsgInv args, startWholeInv args, .inl (by simp)⟩ along hr
    fun s seen a u out hi ok hs => by
      obtain ⟨msg, all, state⟩ := hi
      refine ⟨msgInv_step msg hs, wholeInv_step msg all hs, ?_⟩
      cases state with
      | inl fine => exact first_tear msg all fine hs
      | inr torn =>
        exact .inr (torn_step torn (fun head => torn.no_whole (by rw [head]; rfl) (ok head)) hs)
  rw [List.nil_append] at inv
  exact inv.2

theorem WholeInv.whole {args : ArgsInfo} {s : State} {tr : List Event} (h : WholeInv args s tr)
    (fine : ∀ e ∈ tr, WriteOk args e) (counted : s.pc.uncounted = 0) : Whole args s tr := by
  obtain ⟨k, bytes, count⟩ := h fine
  refine ⟨k, bytes, fun given => ?_⟩
  rw [count given, counted, Int.add_zero]

/-- **Torn and phantom messages.** Along a run the loop is always back at its
head with whole, rightly counted messages on the wire if and only if it is
always back there with every write so far all right: complete, or without
effect where no repeats are counted. Behind the loop of such a run a message may
still be torn: that of the last repeat, which no return to the head follows. -/
theorem whole_iff (b : Build) (args : ArgsInfo) (acts : List Act) :
    (Always (step b args) (HeadWhole args) start acts ↔
      Always (step b args) (fun s tr => s.pc = .testRunning → ∀ e ∈ tr, WriteOk args e)
        start acts) ∧
    (Always (step b args) (HeadWhole args) start acts →
      Always (step b args) (LeftWhole args) start acts) := by
  refine ⟨⟨fun whole pre hp t tr hr head => ?_, fun fine pre hp t tr hr head => ?_⟩,
    fun whole pre hp t tr hr set out => ?_⟩
  · cases (tear_along whole pre hp t tr hr).2 with
    | inl fine => exact fine
    | inr torn =>
      exact absurd (whole pre hp t tr hr head) (torn.no_whole (by rw [head]; rfl))
  · have inv := run_invariant (fun s tr => MsgInv args s tr ∧ WholeInv args s tr)
      ⟨startMsgInv args, startWholeInv args⟩ hr
      fun _ _ _ _ _ hi hs => ⟨msgInv_step hi.1 hs, wholeInv_step hi.1 hi.2 hs⟩
    rw [List.nil_append] at inv
    exact inv.2.whole (fine pre hp t tr hr head) (by rw [head]; rfl)
  · obtain ⟨all, state⟩ := tear_along whole pre hp t tr hr
    have counted : t.pc.uncounted = 0 := by
      cases pc : t.pc <;> first | rfl | (rw [pc] at out; cases out)
    cases state with
    | inl fine =>
      have here := all.whole fine counted
      exact ⟨⟨fun _ => fine, fun _ => here⟩, fun torn => absurd here torn⟩
    | inr torn =>
      refine ⟨⟨fun here => absurd here (torn.no_whole counted), fun fine => all.whole fine counted⟩,
        fun _ => ⟨torn.left out, ?_⟩⟩
      obtain ⟨k, part, bytes, front, short, -, ahead⟩ := torn.bad
      have count := ahead (torn.left out)
      rw [State.counted, counted, Int.add_zero] at count
      exact ⟨k, part, bytes, front, short, count⟩

/-- A tick, and `main` back at the head of the loop after a write that took one
byte. -/
def shortTap : List Act :=
  [.signal .sigrtmin, .handler] ++ List.replicate 6 (.main ⟨1, 0, 0⟩)

theorem not_whole :
    ¬∀ (b : Build) (args : ArgsInfo) (acts : List Act),
      Always (step b args) (HeadWhole args) start acts := by
  intro whole
  have booted := boot_run (Build.plain false) Cmdline.cmdlineParserInit (by decide)
  have tapped : run (step (Build.plain false) Cmdline.cmdlineParserInit)
      (loopHead Cmdline.cmdlineParserInit) shortTap =
        some (loopHead Cmdline.cmdlineParserInit,
          [.tick false, .cleared, .wrote (midiMsg Cmdline.cmdlineParserInit) 1]) := rfl
  have both := run_append.mpr ⟨_, _, _, booted, tapped, rfl⟩
  obtain ⟨k, bytes, -⟩ := whole _ _ _ _ (List.prefix_refl _) _ _ both rfl
  have length := congrArg List.length bytes
  rw [whole_length, wire_append, wire_of_unsent (bootTrace_silent _ _).sent] at length
  have one : (wire [.tick false, .cleared, .wrote (midiMsg Cmdline.cmdlineParserInit) 1]).length =
    1 := rfl
  rw [List.nil_append, one] at length
  omega

end MidiGw.Tapper
