import Mathlib.Tactic.ByContra

/-!
# The MIDI wire format

A receiver for the byte stream of a MIDI line, and control-change messages.

* `receive`: the framing of one byte. A byte from 0x80 up is a status byte and
  starts a message, a byte below is a data byte of the message in progress, or
  of a further message under the running status;
* `decode`: what a receiver makes of a whole stream, broken messages included;
* `decode_encode`: a stream of encoded control changes decodes to them alone;
* `decode_triple`: three bytes that start with a control-change status decode
  to control changes only if the other two are data bytes.
-/

namespace MidiGw.Midi

/-- A control change. Only what the wire format can carry can be built. -/
structure ControlChange where
  channel : Fin 16
  controller : Fin 128
  value : Fin 128
  deriving DecidableEq, Repr

def ControlChange.status (m : ControlChange) : UInt8 := UInt8.ofNat (0xB0 + m.channel)

def ControlChange.data (m : ControlChange) : List UInt8 :=
  [UInt8.ofNat m.controller, UInt8.ofNat m.value]

def ControlChange.encode (m : ControlChange) : List UInt8 := m.status :: m.data

/-- How many data bytes follow a status byte. A system-exclusive message runs
until the next status byte. -/
def dataLength (status : UInt8) : Option Nat :=
  if status < 0xC0 then some 2
  else if status < 0xE0 then some 1
  else if status < 0xF0 then some 2
  else if status = 0xF0 then none
  else if status = 0xF2 then some 2
  else if status = 0xF1 ∨ status = 0xF3 then some 1
  else some 0

/-- What a receiver reports: a whole message, a message that ended before its
last data byte, or a data byte that belongs to none. -/
inductive Item where
  | message (status : UInt8) (data : List UInt8)
  | cut (status : UInt8) (data : List UInt8)
  | stray (data : UInt8)
  deriving DecidableEq, Repr

/-- Between messages the receiver keeps the running status. -/
inductive Receiver where
  | idle (running : Option UInt8)
  | receiving (status : UInt8) (data : List UInt8)
  deriving DecidableEq, Repr

def runningStatus (status : UInt8) : Option UInt8 :=
  if status < 0xF0 then some status else none

/-- The message in progress, reported once its data bytes are all there. -/
def advance (status : UInt8) (data : List UInt8) : Receiver × List Item :=
  if dataLength status = some data.length then
    (.idle (runningStatus status), [.message status data])
  else (.receiving status data, [])

/-- What a message in progress is worth when it gets no further data byte. -/
def ended : Receiver → List Item
  | .idle _ => []
  | .receiving status data =>
    if dataLength status = none then [.message status data] else [.cut status data]

/-- The framing of one byte. -/
def receive (s : Receiver) (b : UInt8) : Receiver × List Item :=
  if 0x80 ≤ b then ((advance b []).1, ended s ++ (advance b []).2)
  else
    match s with
    | .idle none => (.idle none, [.stray b])
    | .idle (some status) => advance status [b]
    | .receiving status data => advance status (data ++ [b])

def receiveAll (s : Receiver) : List UInt8 → Receiver × List Item
  | [] => (s, [])
  | b :: bs =>
    let r := receive s b
    let rest := receiveAll r.1 bs
    (rest.1, r.2 ++ rest.2)

/-- Everything a receiver reports for a stream read from its start. -/
def decode (bytes : List UInt8) : List Item :=
  let r := receiveAll (.idle none) bytes
  r.2 ++ ended r.1

/-- The control change that a reported item is, if it is one. -/
def Item.controlChange : Item → Option ControlChange
  | .message status [controller, value] =>
    if 0xB0 ≤ status ∧ status < 0xC0 then
      some ⟨Fin.ofNat 16 status.toNat, Fin.ofNat 128 controller.toNat, Fin.ofNat 128 value.toNat⟩
    else none
  | _ => none

theorem receiveAll_append (s : Receiver) (a b : List UInt8) :
    receiveAll s (a ++ b) =
      ((receiveAll (receiveAll s a).1 b).1, (receiveAll s a).2 ++ (receiveAll (receiveAll s a).1 b).2) := by
  induction a generalizing s with
  | nil => rfl
  | cons x a ih => simp only [List.cons_append, receiveAll, ih, List.append_assoc]

/-! ## Control changes on the wire -/

/-- A status byte of the control-change kind. -/
def isControlStatus (b : UInt8) : Prop := 0xB0 ≤ b ∧ b < 0xC0

theorem control_facts {b : UInt8} (h : isControlStatus b) :
    0x80 ≤ b ∧ dataLength b = some 2 ∧ runningStatus b = some b := by
  obtain ⟨lo, hi⟩ := h
  refine ⟨?_, ?_, ?_⟩
  · exact UInt8.le_trans (by decide) lo
  · simp [dataLength, hi]
  · have : b < 0xF0 := UInt8.lt_trans hi (by decide)
    simp [runningStatus, this]

theorem receive_status {b : UInt8} (h : isControlStatus b) (s : Receiver) :
    receive s b = (.receiving b [], ended s) := by
  obtain ⟨hi, len, _⟩ := control_facts h
  simp [receive, hi, advance, len]

theorem receive_controller {b c : UInt8} (h : isControlStatus b) (hc : c < 0x80) :
    receive (.receiving b []) c = (.receiving b [c], []) := by
  obtain ⟨_, len, _⟩ := control_facts h
  simp [receive, UInt8.not_le.mpr hc, advance, len]

theorem receive_value {b c v : UInt8} (h : isControlStatus b) (hv : v < 0x80) :
    receive (.receiving b [c]) v = (.idle (some b), [.message b [c, v]]) := by
  obtain ⟨_, len, running⟩ := control_facts h
  simp [receive, UInt8.not_le.mpr hv, advance, len, running]

theorem receiveAll_triple {b c v : UInt8} (h : isControlStatus b) (hc : c < 0x80)
    (hv : v < 0x80) (running : Option UInt8) :
    receiveAll (.idle running) [b, c, v] = (.idle (some b), [.message b [c, v]]) := by
  simp only [receiveAll, receive_status h, receive_controller h hc, receive_value h hv, ended,
    List.nil_append, List.append_nil]

theorem status_toNat (m : ControlChange) : m.status.toNat = 0xB0 + m.channel := by
  have := m.channel.isLt
  simp only [ControlChange.status, UInt8.toNat_ofNat']
  omega

theorem status_isControl (m : ControlChange) : isControlStatus m.status := by
  have bound := m.channel.isLt
  have nat := status_toNat m
  constructor
  · rw [UInt8.le_iff_toNat_le, nat]; exact Nat.le_add_right _ _
  · rw [UInt8.lt_iff_toNat_lt, nat]; show 176 + m.channel.val < 192; omega

theorem ofNat_data (n : Fin 128) : UInt8.ofNat n < 0x80 := by
  have := n.isLt
  rw [UInt8.lt_iff_toNat_lt, UInt8.toNat_ofNat']
  show n.val % 2 ^ 8 < 128
  omega

theorem receiveAll_encode (ms : List ControlChange) (running : Option UInt8) :
    ∃ last, receiveAll (.idle running) (ms.flatMap ControlChange.encode) =
      (.idle last, ms.map fun m => .message m.status m.data) := by
  induction ms generalizing running with
  | nil => exact ⟨running, rfl⟩
  | cons m ms ih =>
    have one := receiveAll_triple (status_isControl m) (ofNat_data m.controller)
      (ofNat_data m.value) running
    obtain ⟨last, rest⟩ := ih (some m.status)
    refine ⟨last, ?_⟩
    have bytes : m.encode = [m.status, UInt8.ofNat m.controller, UInt8.ofNat m.value] := rfl
    rw [List.flatMap_cons, receiveAll_append, bytes, one, rest]
    rfl

/-- A reported message of this kind reads back as the control change. -/
theorem controlChange_message (m : ControlChange) :
    (Item.message m.status m.data).controlChange = some m := by
  have range := status_isControl m
  have hc := m.channel.isLt
  have hn := m.controller.isLt
  have hv := m.value.isLt
  have nat := status_toNat m
  simp only [Item.controlChange, ControlChange.data, range.1, range.2, and_self, ↓reduceIte,
    Option.some.injEq]
  cases m with
  | mk channel controller value =>
    simp only [ControlChange.mk.injEq, Fin.ext_iff, Fin.val_ofNat, UInt8.toNat_ofNat'] at *
    omega

/-- **Round trip.** A stream of control changes decodes to exactly them. -/
theorem decode_encode (ms : List ControlChange) :
    (decode (ms.flatMap ControlChange.encode)).map Item.controlChange = ms.map some := by
  obtain ⟨last, h⟩ := receiveAll_encode ms none
  simp only [decode, h, ended, List.append_nil, List.map_map]
  apply List.map_congr_left
  intro m _
  exact controlChange_message m

example : decode [0xB3, 44, 7, 0xB3, 44] = [.message 0xB3 [44, 7], .cut 0xB3 [44]] := by decide

/-- Behind a control-change status, anything but two data bytes leaves an item
that is no control change. -/
theorem decode_triple {b c v : UInt8} (h : isControlStatus b)
    (all : ∀ item ∈ decode [b, c, v], item.controlChange.isSome) : c < 0x80 ∧ v < 0x80 := by
  obtain ⟨_, len, _⟩ := control_facts h
  have broken (d : List UInt8) : ended (.receiving b d) = [.cut b d] := by simp [ended, len]
  have first := receive_status h (.idle none)
  by_cases hc : c < 0x80
  · refine ⟨hc, ?_⟩
    by_contra hv
    have third : (receive (.receiving b [c]) v).2 = .cut b [c] :: (advance v []).2 := by
      simp [receive, UInt8.not_lt.mp hv, broken]
    have := all (.cut b [c]) (by
      simp [decode, receiveAll, first, receive_controller h hc, third])
    simp [Item.controlChange] at this
  · have second : (receive (.receiving b []) c).2 = .cut b [] :: (advance c []).2 := by
      simp [receive, UInt8.not_lt.mp hc, broken]
    have := all (.cut b []) (by simp [decode, receiveAll, first, second])
    simp [Item.controlChange] at this

end MidiGw.Midi
