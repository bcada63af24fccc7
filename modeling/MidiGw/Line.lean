import MidiGw.Lineage
import Mathlib.Data.List.Forall2

/-!
# One line for all

Every tapper and every cc request writes to the same serial device, in any
order. What a MIDI receiver makes of the stream that comes of it, as long as
each write is taken whole and each request names a message.
-/

namespace MidiGw.System

open C (CStr)
open Cmdline (startArgs startNumbers)
open Gateway (BytesFit CcOk midiCc midiCc_opened midiCc_refused)
open Gateway.Handlers (Request)
open Midi (ControlChange Item decode decode_encode)
open Runs (run)
open Tapper (Build ChannelOk DataOk)

/-! ## Any interleaving of writers -/

/-- Whoever writes, if each write is nothing or the encoding of what was asked
for, then the stream is the encoding of what was asked for, in order. -/
theorem exists_messages {α : Type} {sends : α → Bool} {bytes : α → List UInt8}
    {asked : α → ControlChange → Prop} {xs : List α}
    (each : ∀ x ∈ xs, sends x = false ∧ bytes x = [] ∨
      sends x = true ∧ ∃ m, asked x m ∧ bytes x = m.encode) :
    ∃ ms, List.Forall₂ asked (xs.filter sends) ms ∧
      xs.flatMap bytes = ms.flatMap ControlChange.encode := by
  induction xs with
  | nil => exact ⟨[], .nil, rfl⟩
  | cons x xs ih =>
    obtain ⟨ms, all, stream⟩ := ih fun y mem => each y (List.mem_cons_of_mem x mem)
    rw [List.flatMap_cons, stream]
    rcases each x List.mem_cons_self with ⟨silent, empty⟩ | ⟨loud, m, wanted, bytes⟩
    · refine ⟨ms, ?_, by rw [empty, List.nil_append]⟩
      rwa [List.filter_cons_of_neg (by rw [silent]; exact Bool.false_ne_true)]
    · refine ⟨m :: ms, ?_, by rw [bytes, List.flatMap_cons]⟩
      rw [List.filter_cons_of_pos loud]
      exact .cons wanted all

/-! ## The line -/

/-- The bytes that the device accepted in one event. -/
def Event.accepted : Event → List UInt8
  | .process _ (.tapper e) => e.accepted
  | .cc _ _ _ data => data
  | .process _ (.parsed _) | .process _ (.delivered _) => []
  | .arrived _ _ | .spawned _ _ | .shown _ => []

/-- Everything that the device accepted, from whom ever. -/
def line (tr : List Event) : List UInt8 := tr.flatMap Event.accepted

/-- A tapper's write, or the one of a cc request that writes. -/
def Event.sends : Event → Bool
  | .process _ (.tapper e) => e.isWrote
  | .cc _ _ _ data => data ≠ []
  | .process _ (.parsed _) | .process _ (.delivered _) => false
  | .arrived _ _ | .spawned _ _ | .shown _ => false

/-- The control change that the writer's request has asked for. -/
def AskedBy (b : Build) (serialDev tapProcCmd : CStr) (tr : List Event) :
    Event → ControlChange → Prop
  | .process p _, m => ∃ g args, .spawned g p ∈ tr ∧
      Started b serialDev tapProcCmd tr g args ∧ Tapper.Asks args m
  | .cc channel message value _, m =>
    m.channel.val = channel ∧ m.controller.val = message ∧ m.value.val = value
  | _, _ => False

def Event.whole : Event → Bool
  | .process _ (.tapper (.wrote _ r)) => 3 ≤ r
  | _ => true

/-- Every tapper's write was taken whole. -/
def Whole (tr : List Event) : Prop := ∀ e ∈ tr, e.whole = true

instance (tr : List Event) : Decidable (Whole tr) := inferInstanceAs (Decidable (∀ e ∈ tr, _))

/-- Every request names a message in the range of MIDI, or is refused as a whole. -/
structure InRange (b : Build) (serialDev tapProcCmd : CStr) (acts : List Act) : Prop where
  start : ∀ g channel message value bpm numbers,
    .arrive g (.start channel message value bpm) ∈ acts →
    startNumbers b.longBits tapProcCmd channel message value bpm = .ok numbers →
    ¬ChannelOk (startArgs serialDev channel message value bpm numbers) ∨
      DataOk (startArgs serialDev channel message value bpm numbers)
  cc : ∀ channel message value opens, .cc channel message value opens ∈ acts →
    CcOk channel message value

/-- A request for /midi/cc in range writes nothing, or the message it names. -/
theorem midiCc_encode {channel message value : Nat} (ok : CcOk channel message value)
    (opens : Bool) :
    (midiCc channel message value opens).2 = [] ∨
      ∃ m : ControlChange, (m.channel.val = channel ∧ m.controller.val = message ∧
        m.value.val = value) ∧ (midiCc channel message value opens).2 = m.encode := by
  by_cases fits : BytesFit channel message value
  · obtain ⟨hc, hm, hv⟩ := ok.resolve_left (not_not_intro fits)
    cases opens with
    | true =>
      refine .inr ⟨⟨⟨channel, hc⟩, ⟨message, hm⟩, ⟨value, hv⟩⟩, ⟨rfl, rfl, rfl⟩, ?_⟩
      rw [midiCc_opened fits, ← Gateway.ccBytes_encode]
    | false =>
      left
      unfold midiCc
      split <;> rfl
  · left
    rw [midiCc_refused fits]

/-- What is shown of a request is due to one that arrived. -/
theorem request_act {b : Build} {serialDev tapProcCmd : CStr} {acts : List Act} {s : State}
    {tr : List Event} (h : run (step b) (init serialDev tapProcCmd) acts = some (s, tr)) :
    (∀ g r, .arrived g r ∈ tr → .arrive g r ∈ acts) ∧
    ∀ channel message value data, .cc channel message value data ∈ tr →
      ∃ opens, .cc channel message value opens ∈ acts ∧
        data = (midiCc channel message value opens).2 := by
  constructor
  · intro g r mem
    obtain ⟨pre, a, inside, u, seen, v, out, hu, hs, now⟩ := Runs.step_of_event h mem
    have act : a ∈ acts := inside.subset (by simp)
    cases step_move (reachable_synced hu) hs with
    | arrive g' r' fresh =>
      rw [List.mem_singleton, Event.arrived.injEq] at now
      obtain ⟨rfl, rfl⟩ := now
      exact act
    | spawn | signal | handler | process | cc => simp at now
  · intro channel message value data mem
    obtain ⟨pre, a, inside, u, seen, v, out, hu, hs, now⟩ := Runs.step_of_event h mem
    have act : a ∈ acts := inside.subset (by simp)
    cases step_move (reachable_synced hu) hs with
    | cc channel' message' value' opens =>
      rw [List.mem_singleton, Event.cc.injEq] at now
      obtain ⟨rfl, rfl, rfl, rfl⟩ := now
      exact ⟨opens, act, rfl⟩
    | arrive | spawn | signal | handler | process => simp at now

/-- What a tapper shows in the system it shows in a run of its own, and it
serves a request. -/
theorem tapper_event {b : Build} {serialDev tapProcCmd : CStr} {acts : List Act} {s : State}
    {tr : List Event} (h : run (step b) (init serialDev tapProcCmd) acts = some (s, tr))
    {p : Nat} {e : Tapper.Event} (mem : .process p (.tapper e) ∈ tr) :
    ∃ g args u tacts tapped, .spawned g p ∈ tr ∧ Started b serialDev tapProcCmd tr g args ∧
      run (Tapper.step b args) Tapper.start tacts = some (u, tapped) ∧ e ∈ tapped := by
  have own : .tapper e ∈ processTrace p tr :=
    List.mem_filterMap.mpr ⟨_, mem, by simp [Event.of]⟩
  have shown : e ∈ tapperEvents p tr := List.mem_filterMap.mpr ⟨_, own, rfl⟩
  have histories := reachable_histories h
  have inside : p < s.procs.length := by
    by_contra beyond
    rw [histories.fresh p (Nat.le_of_not_lt beyond)] at own
    cases own
  have there : s.procs[p]? = some s.procs[p] := List.getElem?_eq_getElem inside
  obtain ⟨cmd, given⟩ : ∃ cmd, s.gateway.world.spawned[p]? = some cmd :=
    ⟨_, List.getElem?_eq_getElem ((reachable_synced h).known ▸ inside)⟩
  have came := histories.came p _ cmd there given
  cases program : s.procs[p].program with
  | tapping args u =>
    obtain ⟨g, origin, started, tacts, ran⟩ := tapper_started h there program
    exact ⟨g, args, u, tacts, _, origin, started, ran, shown⟩
  | parsing | ended =>
    rw [program] at came
    generalize tapperEvents p tr = tapped at came shown
    cases came
    cases shown

/-- A tapper's write in range is the encoding of what its request asks for. -/
theorem write_encode {b : Build} {serialDev tapProcCmd : CStr} {acts : List Act} {s : State}
    {tr : List Event} (h : run (step b) (init serialDev tapProcCmd) acts = some (s, tr))
    (range : InRange b serialDev tapProcCmd acts) {p : Nat} {m : Tapper.MidiMsg} {r : Int}
    (mem : .process p (.tapper (.wrote m r)) ∈ tr) (whole : 3 ≤ r) :
    ∃ asked, AskedBy b serialDev tapProcCmd tr (.process p (.tapper (.wrote m r))) asked ∧
      (Tapper.Event.wrote m r).accepted = asked.encode := by
  obtain ⟨g, args, u, tacts, tapped, origin, started, ran, wrote⟩ := tapper_event h mem
  obtain ⟨ok, rfl⟩ := Tapper.wrote_message ran wrote
  obtain ⟨channel, message, value, bpm, numbers, arrived, read, rfl⟩ := started
  have arrive := (request_act h).1 g _ arrived
  have data := (range.start g channel message value bpm numbers arrive read).resolve_left
    (not_not_intro ok)
  obtain ⟨asked, asks, bytes⟩ := Tapper.midiMsg_encode ok data
  refine ⟨asked, ⟨g, _, origin, ⟨channel, message, value, bpm, numbers, arrived, read, rfl⟩, asks⟩, ?_⟩
  rw [Tapper.Event.accepted, ← bytes]
  apply List.take_of_length_le
  simp only [Tapper.MidiMsg.bytes, List.length_cons, List.length_nil]
  omega

/-- **One line for all.** However tappers and cc requests interleave, if every
write is taken whole and every request is in range, then a receiver of the
line reads one control change for each write, in the order of the writes: the
one which the writer's request has asked for. -/
theorem line_faithful (b : Build) (serialDev tapProcCmd : CStr) {acts : List Act} {s : State}
    {tr : List Event} (h : run (step b) (init serialDev tapProcCmd) acts = some (s, tr))
    (whole : Whole tr) (range : InRange b serialDev tapProcCmd acts) :
    ∃ ms, List.Forall₂ (AskedBy b serialDev tapProcCmd tr) (tr.filter Event.sends) ms ∧
      (decode (line tr)).map Item.controlChange = ms.map some := by
  obtain ⟨ms, all, stream⟩ : ∃ ms,
      List.Forall₂ (AskedBy b serialDev tapProcCmd tr) (tr.filter Event.sends) ms ∧
      line tr = ms.flatMap ControlChange.encode := by
    apply exists_messages
    intro e mem
    cases e with
    | arrived | spawned | shown => exact .inl ⟨rfl, rfl⟩
    | process p e =>
      cases e with
      | parsed | delivered => exact .inl ⟨rfl, rfl⟩
      | tapper e =>
        cases e with
        | wrote m r => exact .inr ⟨rfl, write_encode h range mem (by simpa [Event.whole] using whole _ mem)⟩
        | called | applied | stdout | stderr | tick | interrupt | cleared | closed =>
          exact .inl ⟨rfl, rfl⟩
    | cc channel message value data =>
      obtain ⟨opens, arrived, rfl⟩ := (request_act h).2 channel message value data mem
      rcases midiCc_encode (range.cc _ _ _ _ arrived) opens with nothing | ⟨m, asked, bytes⟩
      · exact .inl ⟨by simp [Event.sends, nothing], nothing⟩
      · refine .inr ⟨?_, m, asked, bytes⟩
        simp [Event.sends, bytes, ControlChange.encode]
  refine ⟨ms, all, ?_⟩
  rw [stream]
  exact decode_encode ms

/-- A tapper taps once, then a cc request is served. -/
def twoWriters : List Act :=
  firstTapper ++
    (Tapper.boot ++ Tapper.tap (Build.plain false)).map (fun a => .process 0 (.tapper a)) ++
    [.cc 1 7 100 true]

theorem line_faithful_two :
    ∃ s tr, run (step (Build.plain false))
        (init "/dev/serial0".toList "/usr/local/bin/midi-tapper".toList) twoWriters =
          some (s, tr) ∧
      line tr = [0xB0, 44, 0, 0xB1, 7, 100] ∧
      ∃ ms : List ControlChange, (decode (line tr)).map Item.controlChange = ms.map some := by
  obtain ⟨s, tr, ran, whole, bytes⟩ : ∃ s tr, run (step (Build.plain false))
      (init "/dev/serial0".toList "/usr/local/bin/midi-tapper".toList) twoWriters =
        some (s, tr) ∧ Whole tr ∧ line tr = [0xB0, 44, 0, 0xB1, 7, 100] :=
    ⟨_, _, rfl, by decide, rfl⟩
  have range : InRange (Build.plain false) "/dev/serial0".toList
      "/usr/local/bin/midi-tapper".toList twoWriters := by
    constructor
    · intro g channel message value bpm numbers arrive read
      simp only [twoWriters, firstTapper, List.cons_append, List.nil_append, List.mem_cons,
        List.mem_append, List.mem_map, Act.arrive.injEq, Request.start.injEq, reduceCtorEq,
        and_false, exists_false, List.not_mem_nil, or_false] at arrive
      obtain ⟨-, rfl, rfl, rfl, rfl⟩ := arrive
      cases read
      exact .inr ⟨⟨by decide, by decide⟩, by decide, by decide⟩
    · intro channel message value opens asked
      simp only [twoWriters, firstTapper, List.cons_append, List.nil_append, List.mem_cons,
        List.mem_append, List.mem_map, Act.cc.injEq, reduceCtorEq, and_false, exists_false,
        List.not_mem_nil, or_false, false_or] at asked
      obtain ⟨rfl, rfl, rfl, -⟩ := asked
      exact .inr (by decide)
  obtain ⟨ms, -, reads⟩ := line_faithful _ _ _ ran whole range
  exact ⟨s, tr, ran, bytes, ms, reads⟩

end MidiGw.System
