import MidiGw.Midi
import MidiGw.TapLoop

/-!
# Bytes on the wire

What the serial device accepts from a tapper, and what a MIDI receiver makes
of it: which arguments are sent faithfully when every write is complete.
-/

namespace MidiGw.Tapper

open C (toUChar toUChar_toNat)
open Cmdline (ArgsInfo)
open Midi (ControlChange decode)
open Runs (run run_append run_invariant)

/-- The bytes the device accepted from one write of three. -/
def Event.accepted : Event → List UInt8
  | .wrote msg ret => msg.bytes.take ret.toNat
  | _ => []

/-- Everything the device accepted. -/
def wire (tr : List Event) : List UInt8 := tr.flatMap Event.accepted

@[simp] theorem wire_append (a b : List Event) : wire (a ++ b) = wire a ++ wire b :=
  List.flatMap_append

theorem wire_of_unsent {tr : List Event} (unsent : sent tr = 0) : wire tr = [] := by
  simp only [wire, List.flatMap_eq_nil_iff]
  intro e mem
  have := List.countP_eq_zero.mp unsent e mem
  cases e <;> first | rfl | exact absurd rfl this

/-! ## The message that is written -/

/-- Past the channel check, and past the encoding, the process carries its
outcome; every write offers the encoded arguments. -/
structure MsgInv (args : ArgsInfo) (s : State) (tr : List Event) : Prop where
  channel : s.pc = .encode → ChannelOk args
  encoded : s.pc.checking = false → s.pc.exits = false →
    ChannelOk args ∧ s.midiMsg = midiMsg args
  wrote : ∀ m r, .wrote m r ∈ tr → ChannelOk args ∧ m = midiMsg args

theorem callStep_checking (b : Build) (args : ArgsInfo) (s : State) (r : Sys) (c : Call) :
    ((callStep b args s r c).1.pc = .encode → ChannelOk args) ∧
    ((callStep b args s r c).1.pc.checking = false → (callStep b args s r c).1.pc.exits = false →
      (Pc.call c).checking = false) := by
  constructor
  · intro there
    cases callStep_next b args s r c with
    | inl next =>
      rw [next] at there
      cases c with
      | checkChannel =>
        simp only [callStep] at next
        split at next
        · cases next
        · rename_i ok; exact ok
      | _ => cases there
    | inr gone => rw [gone] at there; cases there
  · intro late going
    cases callStep_next b args s r c with
    | inl next =>
      rw [next] at late
      cases c <;> first | rfl | cases late
    | inr gone => rw [gone] at going; cases going

theorem msgInv_step {b : Build} {args : ArgsInfo} {s t : State} {tr out : List Event} {a : Act}
    (h : MsgInv args s tr) (hs : step b args s a = some (t, out)) : MsgInv args t (tr ++ out) := by
  obtain ⟨channel, encoded, wrote⟩ := h
  have writes : ∀ m r, .wrote m r ∈ tr ++ out → ChannelOk args ∧ m = midiMsg args := by
    intro m r mem
    cases List.mem_append.mp mem with
    | inl old => exact wrote m r old
    | inr new =>
      rcases step_sends hs with ⟨r', pc, -, rfl⟩ | unsent
      · have here := encoded (by rw [pc]; rfl) (by rw [pc]; rfl)
        rw [List.mem_singleton, Event.wrote.injEq] at new
        exact ⟨here.1, new.1.trans here.2⟩
      · exact absurd rfl (List.countP_eq_zero.mp unsent _ new)
  cases step_move hs with
  | call c r pc =>
    have setup := callStep_setup b args s r c
    obtain ⟨enc, late⟩ := callStep_checking b args s r c
    refine ⟨enc, fun hc he => ?_, writes⟩
    have past := late hc he
    rw [setup.msg]
    exact encoded (by rw [pc]; exact past) (by rw [pc]; rfl)
  | encode r pc => exact ⟨fun e => (by cases e), fun _ _ => ⟨channel pc, rfl⟩, writes⟩
  | clear r pc | write r pc =>
    refine ⟨fun e => ?_, fun _ _ => encoded (by rw [pc]; rfl) (by rw [pc]; rfl), writes⟩
    dsimp only at e
    split at e <;> cases e
  | stay r pc | leave r pc | slept r pc | fired r pc | quiet r pc | now0 r pc | now1 r pc
  | uncounted r pc | counted r pc | «break» r pc =>
    exact ⟨fun e => (by cases e), fun _ _ => encoded (by rw [pc]; rfl) (by rw [pc]; rfl), writes⟩
  | close => exact ⟨fun e => (by cases e), fun _ e => (by cases e), writes⟩
  | enter | kill | tick | interrupt => exact ⟨channel, encoded, writes⟩

theorem startMsgInv (args : ArgsInfo) : MsgInv args start [] :=
  ⟨fun e => (by cases e), fun e => (by cases e), by simp⟩

theorem reachable_msgInv {b : Build} {args : ArgsInfo} {acts : List Act} {s : State}
    {tr : List Event} (h : run (step b args) start acts = some (s, tr)) : MsgInv args s tr := by
  simpa using run_invariant (MsgInv args) (startMsgInv args) h
    fun _ _ _ _ _ hi hs => msgInv_step hi hs

theorem inLoop_past {pc : Pc} (inside : pc.inLoop = true) :
    pc.checking = false ∧ pc.exits = false := by
  revert inside
  cases pc <;> simp [Pc.inLoop, Pc.checking, Pc.exits]

/-- Only a tapper whose channel is in range gets into its loop. -/
theorem channelOk_of_inLoop {b : Build} {args : ArgsInfo} {acts : List Act} {s : State}
    {tr : List Event} (h : run (step b args) start acts = some (s, tr))
    (inside : s.pc.inLoop = true) : ChannelOk args := by
  obtain ⟨past, going⟩ := inLoop_past inside
  exact ((reachable_msgInv h).encoded past going).1

/-- Only a tapper whose channel is in range ever writes, and it offers the
encoded arguments on every tap. -/
theorem wrote_message {b : Build} {args : ArgsInfo} {acts : List Act} {s : State}
    {tr : List Event} (h : run (step b args) start acts = some (s, tr)) {m : MidiMsg} {r : Int}
    (mem : .wrote m r ∈ tr) : ChannelOk args ∧ m = midiMsg args :=
  (reachable_msgInv h).wrote m r mem

theorem wrote_of_sent {tr : List Event} (sends : 0 < sent tr) : ∃ m r, .wrote m r ∈ tr := by
  obtain ⟨e, mem, wrote⟩ := List.countP_pos_iff.mp sends
  cases e with
  | wrote m r => exact ⟨m, r, mem⟩
  | _ => cases wrote

theorem wire_whole {msg : MidiMsg} {tr : List Event}
    (h : ∀ m r, .wrote m r ∈ tr → m = msg ∧ 3 ≤ r) :
    wire tr = (List.replicate (sent tr) msg.bytes).flatten := by
  induction tr with
  | nil => rfl
  | cons e tr ih =>
    have rest := ih fun m r mem => h m r (List.mem_cons_of_mem e mem)
    have split : wire (e :: tr) = e.accepted ++ wire tr := rfl
    have count : sent (e :: tr) = sent tr + (if e.isWrote then 1 else 0) := List.countP_cons
    rw [split, count, rest]
    cases e with
    | wrote m r =>
      obtain ⟨rfl, full⟩ := h m r List.mem_cons_self
      have all : m.bytes.take r.toNat = m.bytes :=
        List.take_of_length_le (by simp only [MidiMsg.bytes, List.length_cons, List.length_nil]; omega)
      simp only [Event.accepted, all, Event.isWrote, ↓reduceIte, List.replicate_succ, List.flatten_cons]
    | _ => rfl

/-! ## Which arguments are sent faithfully -/

/-- Every write took all three bytes. -/
def Complete (tr : List Event) : Prop := ∀ m r, .wrote m r ∈ tr → 3 ≤ r

/-- The control change that the arguments ask for. -/
def Asks (args : ArgsInfo) (m : ControlChange) : Prop :=
  (m.channel : Int) = args.channel.arg.toInt ∧ (m.controller : Int) = args.message.arg.toInt ∧
  (m.value : Int) = args.value.arg.toInt

/-- A receiver of the stream sees one control change for each message sent,
the one asked for, and nothing else. -/
def Decodes (args : ArgsInfo) (tr : List Event) : Prop :=
  (decode (wire tr)).length = sent tr ∧
  ∀ item ∈ decode (wire tr), ∃ m, item.controlChange = some m ∧ Asks args m

/-- Message number and value fit a MIDI data byte. -/
def DataOk (args : ArgsInfo) : Prop :=
  (0 ≤ args.message.arg.toInt ∧ args.message.arg.toInt < 128) ∧
  (0 ≤ args.value.arg.toInt ∧ args.value.arg.toInt < 128)

theorem channelOk_iff (args : ArgsInfo) :
    ChannelOk args ↔ 0 ≤ args.channel.arg.toInt ∧ args.channel.arg.toInt < 16 := by
  have zero : (0 : Int32).toInt = 0 := by decide
  have fifteen : (15 : Int32).toInt = 15 := by decide
  simp only [ChannelOk, Int32.lt_iff_toInt_lt, gt_iff_lt, zero, fifteen]
  omega

/-- Within the range of the check the `|` adds the channel to 0xB0. -/
theorem status_toNat {args : ArgsInfo} (ok : ChannelOk args) :
    ((midiMsg args).status.toNat : Int) = 0xB0 + args.channel.arg.toInt := by
  have all : ∀ n : Nat, n < 16 →
      (toUChar ((0xB : Int32) <<< 4 ||| Int32.ofNat n)).toNat = 0xB0 + n := by decide
  obtain ⟨lo, hi⟩ := (channelOk_iff args).mp ok
  have back : args.channel.arg = Int32.ofNat args.channel.arg.toInt.toNat := by
    rw [← Int32.ofInt_eq_ofNat, Int.toNat_of_nonneg lo, Int32.ofInt_toInt]
  have := all args.channel.arg.toInt.toNat (by omega)
  rw [← back] at this
  simp only [midiMsg, this]
  omega

theorem status_control {args : ArgsInfo} (ok : ChannelOk args) :
    Midi.isControlStatus (midiMsg args).status := by
  have nat := status_toNat ok
  have range := (channelOk_iff args).mp ok
  constructor
  · rw [UInt8.le_iff_toNat_le]; show 176 ≤ _; omega
  · rw [UInt8.lt_iff_toNat_lt]; show _ < 192; omega

/-- Arguments in range are encoded as the control change they ask for. -/
theorem midiMsg_encode {args : ArgsInfo} (ok : ChannelOk args) (data : DataOk args) :
    ∃ m, Asks args m ∧ (midiMsg args).bytes = m.encode := by
  obtain ⟨clo, chi⟩ := (channelOk_iff args).mp ok
  obtain ⟨⟨mlo, mhi⟩, vlo, vhi⟩ := data
  have nat := status_toNat ok
  have number := toUChar_toNat args.message.arg
  have value := toUChar_toNat args.value.arg
  refine ⟨⟨⟨args.channel.arg.toInt.toNat, by omega⟩, ⟨args.message.arg.toInt.toNat, by omega⟩,
    ⟨args.value.arg.toInt.toNat, by omega⟩⟩,
    ⟨Int.toNat_of_nonneg clo, Int.toNat_of_nonneg mlo, Int.toNat_of_nonneg vlo⟩, ?_⟩
  simp only [MidiMsg.bytes, ControlChange.encode, ControlChange.status, ControlChange.data,
    List.cons.injEq, and_true, ← UInt8.toNat_inj, UInt8.toNat_ofNat']
  refine ⟨by omega, ?_, ?_⟩
  · simp only [midiMsg]; omega
  · simp only [midiMsg]; omega

/-- Behind a refused channel nothing is written. -/
theorem unsent_of_refused {b : Build} {args : ArgsInfo} {acts : List Act} {s : State}
    {tr : List Event} (refused : ¬ChannelOk args)
    (h : run (step b args) start acts = some (s, tr)) : sent tr = 0 := by
  simp only [sent, List.countP_eq_zero]
  intro e mem wrote
  cases e with
  | wrote m r => exact refused (wrote_message h mem).1
  | _ => cases wrote

theorem decodes_of_unsent {args : ArgsInfo} {tr : List Event} (unsent : sent tr = 0) :
    Decodes args tr := by
  have empty := wire_of_unsent unsent
  refine ⟨by rw [empty, unsent]; rfl, ?_⟩
  rw [empty]
  simp [decode, Midi.receiveAll, Midi.ended]

theorem decodes_of_dataOk {b : Build} {args : ArgsInfo} {acts : List Act} {s : State}
    {tr : List Event} (ok : ChannelOk args) (data : DataOk args)
    (h : run (step b args) start acts = some (s, tr)) (complete : Complete tr) :
    Decodes args tr := by
  have stream := wire_whole fun m r mem => ⟨(wrote_message h mem).2, complete m r mem⟩
  obtain ⟨m, asks, bytes⟩ := midiMsg_encode ok data
  have flat : wire tr = (List.replicate (sent tr) m).flatMap ControlChange.encode := by
    rw [stream, bytes, ← List.map_replicate, List.flatMap_def]
  have round := Midi.decode_encode (List.replicate (sent tr) m)
  rw [← flat, List.map_replicate] at round
  refine ⟨by simpa using congrArg List.length round, fun item mem => ⟨m, ?_, asks⟩⟩
  have image := List.mem_map_of_mem (f := Midi.Item.controlChange) mem
  rw [round] at image
  exact (List.mem_replicate.mp image).2

/-- A fresh tapper with a channel in range does send a message. -/
theorem first_message (b : Build) (args : ArgsInfo) (ok : ChannelOk args) :
    ∃ s tr, run (step b args) start (boot ++ tap b) = some (s, tr) ∧ Complete tr ∧
      sent tr = 1 ∧ wire tr = (midiMsg args).bytes := by
  have booted := boot_run b args ok
  have tapped := tap_run b args (loopHead_atHead args)
  have quiet := bootTrace_silent b args
  refine ⟨_, _, run_append.mpr ⟨_, _, _, booted, tapped, rfl⟩, ?_, ?_, ?_⟩
  · intro m r mem
    cases List.mem_append.mp mem with
    | inl mem => exact absurd (quiet _ mem) (by simp [Event.ofLoop])
    | inr mem =>
      simp only [List.mem_cons, reduceCtorEq, Event.wrote.injEq, List.not_mem_nil, or_false,
        false_or] at mem
      omega
  · rw [sent_append, quiet.sent]; rfl
  · rw [wire_append, wire_of_unsent quiet.sent]; rfl

/-- **Which arguments are sent faithfully.** A receiver sees exactly the control
changes asked for, in every run whose writes are complete, if and only if the
channel check refuses the arguments or number and value fit seven bits. The
same arguments are the ones that are never written without being a control
change: nothing but the channel is rejected. -/
theorem faithful_iff (b : Build) (args : ArgsInfo) :
    ((∀ acts s tr, run (step b args) start acts = some (s, tr) → Complete tr →
      Decodes args tr) ↔ ¬ChannelOk args ∨ DataOk args) ∧
    ((∀ acts s tr, run (step b args) start acts = some (s, tr) → 0 < sent tr →
      ∃ m, Asks args m) ↔ ¬ChannelOk args ∨ DataOk args) := by
  have fits (m : ControlChange) (asks : Asks args m) : DataOk args := by
    have hn := m.controller.isLt
    have hv := m.value.isLt
    obtain ⟨-, number, value⟩ := asks
    simp only [DataOk]
    omega
  constructor
  · constructor
    · intro faithful
      by_cases ok : ChannelOk args
      · right
        obtain ⟨s, tr, h, complete, one, bytes⟩ := first_message b args ok
        obtain ⟨-, items⟩ := faithful _ s tr h complete
        rw [bytes] at items
        have control := status_control ok
        obtain ⟨hn, hv⟩ := Midi.decode_triple control (fun item mem => by
          obtain ⟨m, asked, -⟩ := items item mem
          rw [asked]; rfl)
        have triple := Midi.receiveAll_triple control hn hv none
        obtain ⟨m, -, asks⟩ := items (.message (midiMsg args).status
          [(midiMsg args).number, (midiMsg args).value]) (by
            simp [decode, MidiMsg.bytes, triple])
        exact fits m asks
      · exact .inl ok
    · intro holds acts s tr h complete
      by_cases ok : ChannelOk args
      · exact decodes_of_dataOk ok (holds.resolve_left (not_not_intro ok)) h complete
      · exact decodes_of_unsent (unsent_of_refused ok h)
  · constructor
    · intro rejects
      by_cases ok : ChannelOk args
      · obtain ⟨s, tr, h, -, one, -⟩ := first_message b args ok
        obtain ⟨m, asks⟩ := rejects _ s tr h (by omega)
        exact .inr (fits m asks)
      · exact .inl ok
    · intro holds acts s tr h sends
      by_cases ok : ChannelOk args
      · obtain ⟨m, asks, -⟩ := midiMsg_encode ok (holds.resolve_left (not_not_intro ok))
        exact ⟨m, asks⟩
      · have := unsent_of_refused ok h
        omega

/-- `--value 300`, which the parser accepts. -/
def valueTooWide : ArgsInfo :=
  { Cmdline.cmdlineParserInit with value := ⟨300, some "300".toList, 1⟩ }

/-- The receiver is told value 44. -/
theorem value_narrowed (b : Build) :
    ∃ s tr, run (step b valueTooWide) start (boot ++ tap b) = some (s, tr) ∧ Complete tr ∧
      decode (wire tr) = [.message 0xB0 [0, 44]] := by
  obtain ⟨s, tr, h, complete, -, bytes⟩ := first_message b valueTooWide (by decide)
  refine ⟨s, tr, h, complete, ?_⟩
  rw [bytes]
  decide

theorem not_faithful :
    ¬∀ (b : Build) (args : ArgsInfo) acts s tr, run (step b args) start acts = some (s, tr) →
      Complete tr → Decodes args tr ∧ (0 < sent tr → ∃ m, Asks args m) := by
  intro faithful
  obtain ⟨s, tr, h, complete, items⟩ := value_narrowed (Build.plain false)
  obtain ⟨⟨-, all⟩, -⟩ := faithful _ _ _ s tr h complete
  rw [items] at all
  obtain ⟨m, reads, -, -, value⟩ := all _ List.mem_cons_self
  have seen : (Midi.Item.message 0xB0 [0, 44]).controlChange = some ⟨0, 0, 44⟩ := by decide
  rw [seen, Option.some.injEq] at reads
  subst reads
  exact absurd value (by decide)

end MidiGw.Tapper
