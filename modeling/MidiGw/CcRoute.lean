import MidiGw.Routes

/-!
# What a cc request sends

`send_cc_serial` builds the status byte by `|` from a number of any size, and
only `bytes` refuses what is no byte: which requests for /midi/cc send the
message they name, or nothing.
-/

namespace MidiGw.Gateway

open Midi (ControlChange Item decode isControlStatus)

/-- Three bytes that are one control change, the one that was asked for. -/
def CcSent (channel message value : Nat) (bytes : List UInt8) : Prop :=
  ∃ status number val, bytes = [status, number, val] ∧
    isControlStatus status ∧ number < 0x80 ∧ val < 0x80 ∧
    ∃ m : ControlChange, (decode bytes).map Item.controlChange = [some m] ∧
      m.channel.val = channel ∧ m.controller.val = message ∧ m.value.val = value

/-- The request has sent its message, or has failed and sent nothing. -/
def CcKept (channel message value : Nat) (opens : Bool) : Prop :=
  (midiCc channel message value opens).1 = .raised ∧
    (midiCc channel message value opens).2 = [] ∨
  CcSent channel message value (midiCc channel message value opens).2

/-- A number is no byte, or all three are in the range of MIDI. -/
def CcOk (channel message value : Nat) : Prop :=
  ¬BytesFit channel message value ∨ channel < 16 ∧ message < 128 ∧ value < 128

/-- In the range of MIDI the bytes are the encoding of the message. -/
theorem ccBytes_encode (m : ControlChange) :
    [UInt8.ofNat (0xB <<< 4 ||| m.channel.val), UInt8.ofNat m.controller.val,
      UInt8.ofNat m.value.val] = m.encode := by
  have low : ∀ n < 16, 0xB <<< 4 ||| n = 0xB0 + n := by decide
  rw [low m.channel.val m.channel.isLt]
  rfl

theorem ccSent_encode (m : ControlChange) :
    CcSent m.channel.val m.controller.val m.value.val m.encode := by
  have round := Midi.decode_encode [m]
  rw [List.flatMap_singleton] at round
  exact ⟨_, _, _, rfl, Midi.status_isControl m, Midi.ofNat_data m.controller,
    Midi.ofNat_data m.value, m, round, rfl, rfl, rfl⟩

theorem CcSent.inRange {channel message value : Nat} {bytes : List UInt8}
    (h : CcSent channel message value bytes) : channel < 16 ∧ message < 128 ∧ value < 128 := by
  obtain ⟨-, -, -, -, -, -, -, m, -, rfl, rfl, rfl⟩ := h
  exact ⟨m.channel.isLt, m.controller.isLt, m.value.isLt⟩

/-- The bytes say which message was asked for. -/
theorem CcSent.unique {channel message value channel' message' value' : Nat} {bytes : List UInt8}
    (h : CcSent channel message value bytes) (h' : CcSent channel' message' value' bytes) :
    channel = channel' ∧ message = message' ∧ value = value' := by
  obtain ⟨-, -, -, -, -, -, -, m, reads, rfl, rfl, rfl⟩ := h
  obtain ⟨-, -, -, -, -, -, -, m', reads', rfl, rfl, rfl⟩ := h'
  rw [reads] at reads'
  simp only [List.cons.injEq, Option.some.injEq, and_true] at reads'
  rw [reads']
  exact ⟨rfl, rfl, rfl⟩

theorem ccKept_of_ok {channel message value : Nat} (ok : CcOk channel message value)
    (opens : Bool) : CcKept channel message value opens := by
  by_cases fits : BytesFit channel message value
  · obtain ⟨hc, hm, hv⟩ := ok.resolve_left (not_not_intro fits)
    cases opens with
    | true =>
      right
      rw [midiCc_opened fits]
      have sent := ccSent_encode ⟨⟨channel, hc⟩, ⟨message, hm⟩, ⟨value, hv⟩⟩
      rw [← ccBytes_encode] at sent
      exact sent
    | false =>
      left
      unfold midiCc
      rw [sendCcSerial_eq, if_pos fits]
      exact ⟨rfl, rfl⟩
  · left
    rw [midiCc_refused fits opens]
    exact ⟨rfl, rfl⟩

/-- **Requests for /midi/cc.** A request always sends its message or nothing if
and only if a number is no byte or all three are in the range of MIDI. Two such
requests that send anything send the same bytes only if they are the same. -/
theorem cc_kept_iff (channel message value : Nat) :
    ((∀ opens, CcKept channel message value opens) ↔ CcOk channel message value) ∧
    ∀ channel' message' value' opens opens', CcOk channel message value →
      CcOk channel' message' value' → (midiCc channel message value opens).2 ≠ [] →
      (midiCc channel message value opens).2 = (midiCc channel' message' value' opens').2 →
        channel = channel' ∧ message = message' ∧ value = value' := by
  constructor
  · constructor
    · intro kept
      by_cases fits : BytesFit channel message value
      · right
        obtain ⟨raised, -⟩ | sent := kept true
        · rw [midiCc_opened fits] at raised
          cases raised
        · exact sent.inRange
      · exact .inl fits
    · exact fun ok opens => ccKept_of_ok ok opens
  · intro channel' message' value' opens opens' ok ok' some same
    have sent := (ccKept_of_ok ok opens).resolve_left fun refused => some refused.2
    have sent' := (ccKept_of_ok ok' opens').resolve_left fun refused => some (same.trans refused.2)
    rw [← same] at sent'
    exact sent.unique sent'

/-- Channel 64: the status byte is 0xF0, which starts a system exclusive. -/
theorem cc_not_kept :
    ¬∀ channel message value opens, CcKept channel message value opens := by
  intro kept
  obtain ⟨raised, -⟩ | sent := kept 64 44 0 true
  · cases raised
  · exact absurd sent.inRange.1 (by decide)

example : (midiCc 64 44 0 true).2 = [0xF0, 44, 0] := by decide
example : (midiCc 16 44 0 true).2 = (midiCc 0 44 0 true).2 := by decide

end MidiGw.Gateway
