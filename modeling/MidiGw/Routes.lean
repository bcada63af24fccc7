import MidiGw.Gateway
import MidiGw.PyInt
import MidiGw.Wire

/-!
# Two routes to the wire

What the strings of a request turn into: the argument vector that a start
request hands to the tapper, the bytes that a cc request writes itself, and
when the two routes send the same message for the same strings.
-/

namespace MidiGw.Gateway

open C (CStr Digits Readable reading)
open Cmdline (ArgsInfo cmdlineParser startArgs startNumbers startOptions convertInt)
open PyInt (maxStrDigits pyInt)
open Runs (run)
open Tapper (Build ChannelOk bpmToNs midiMsg step)

/-! ## The start route -/

/-- The argument vector is the program and five separate options. -/
theorem tapCmd_options (w : World) (channel message value bpm : CStr) :
    tapCmd w channel message value bpm =
      w.tapProcCmd :: Getopt.separate (startOptions w.serialDev channel message value bpm) := rfl

theorem popen_some {w w' : World} {cmd : List CStr} {forks : Bool} {p : Nat}
    (h : popen w cmd forks = some (p, w')) :
    w'.spawned[p]? = some cmd ∧ ∀ a ∈ cmd, '\x00' ∉ a := by
  unfold popen at h
  split at h
  · cases h
  · rename_i clean
    cases h
    constructor
    · simp
    · simp only [Bool.or_eq_true, List.any_eq_true, List.contains_iff_mem, not_or, not_exists,
        not_and] at clean
      exact clean.1

/-- **No option injection.** Whatever the strings of a start request are, the
tapper it spawns reads them as the arguments of its five options, once each and
in order, and nothing else; it fails if a numeric conversion refuses one. -/
theorem start_no_injection (long : Nat) {w w' : World} {channel message value bpm : CStr}
    {forks : Bool} {p : Nat}
    (accepted : popen w (tapCmd w channel message value bpm) forks = some (p, w')) :
    ∃ argv, w'.spawned[p]? = some (w.tapProcCmd :: argv) ∧
      (∀ a ∈ w.tapProcCmd :: argv, '\x00' ∉ a) ∧
      Getopt.scan Cmdline.table none argv =
        ([.option 's' (some w.serialDev), .option 'c' (some channel), .option 'm' (some message),
          .option 'v' (some value), .option 't' (some bpm)], []) ∧
      ((∃ numbers, startNumbers long w.tapProcCmd channel message value bpm = .ok numbers ∧
          cmdlineParser long w.tapProcCmd argv =
            .ok (startArgs w.serialDev channel message value bpm numbers)) ∨
        ∃ text ∈ [channel, message, value, bpm], ∃ e,
          convertInt long w.tapProcCmd text = .error e ∧
          cmdlineParser long w.tapProcCmd argv = .failure e) := by
  obtain ⟨spawned, clean⟩ := popen_some accepted
  rw [tapCmd_options] at spawned clean
  refine ⟨_, spawned, clean, Cmdline.scan_start w.serialDev channel message value bpm, ?_⟩
  rw [Cmdline.cmdlineParser_start]
  cases read : startNumbers long w.tapProcCmd channel message value bpm with
  | ok numbers => exact .inl ⟨numbers, rfl, rfl⟩
  | error e =>
    right
    obtain ⟨text, mem, refused⟩ := Cmdline.startNumbers_error read
    exact ⟨text, mem, e, refused, rfl⟩

/-- The gateway as it is installed. -/
def installed : World := launch "/dev/serial0".toList "/usr/local/bin/midi-tapper".toList

/-- Four strings that look like options themselves. -/
theorem start_no_injection_dashes :
    ∃ argv w', w'.spawned[0]? = some (installed.tapProcCmd :: argv) ∧
      popen installed (tapCmd installed "-h".toList "--".toList "--repeats=1".toList "=".toList)
        true = some (0, w') ∧
      Getopt.scan Cmdline.table none argv =
        ([.option 's' (some "/dev/serial0".toList), .option 'c' (some "-h".toList),
          .option 'm' (some "--".toList), .option 'v' (some "--repeats=1".toList),
          .option 't' (some "=".toList)], []) := by
  obtain ⟨w', accepted⟩ : ∃ w', popen installed
      (tapCmd installed "-h".toList "--".toList "--repeats=1".toList "=".toList) true =
        some (0, w') := ⟨_, rfl⟩
  obtain ⟨argv, spawned, -, items, -⟩ := start_no_injection 64 accepted
  exact ⟨argv, w', spawned, accepted, items⟩

/-! ## The cc route -/

/-- `bytes([...])`, which raises on a number that is not a byte. -/
def pyBytes (xs : List Nat) : Option (List UInt8) :=
  if xs.all (· < 256) then some (xs.map UInt8.ofNat) else none

/-- `send_cc_serial` up to its write: what is written, or `none` where it raises. -/
def sendCcSerial (channel message value : Nat) : Option (List UInt8) :=
  pyBytes [0xB <<< 4 ||| channel, message, value]

/-- `midi_cc`: the reply, and what the serial device gets. `opens` is whether
`serial.Serial` can open it. -/
def midiCc (channel message value : Nat) (opens : Bool) : Reply × List UInt8 :=
  match sendCcSerial channel message value with
  | none => (.raised, [])
  | some data => if opens then (.ok, data) else (.raised, [])

/-- A request for /midi/cc with three digit strings: the int converter hands
`midi_cc` what `int` makes of them, and `midi_cc` is not called if one raises. -/
def ccWrites (c m v : CStr) : List UInt8 :=
  match pyInt c, pyInt m, pyInt v with
  | some channel, some message, some value =>
    (midiCc channel.toNat message.toNat value.toNat true).2
  | _, _, _ => []

theorem or_lt (n : Nat) : 0xB <<< 4 ||| n < 256 ↔ n < 256 := by
  have low : (0xB <<< 4 : Nat) < 2 ^ 8 := by decide
  constructor
  · intro h
    exact Nat.lt_of_le_of_lt Nat.right_le_or h
  · intro h
    exact Nat.or_lt_two_pow low h

/-- The three numbers are bytes. -/
def BytesFit (channel message value : Nat) : Prop := channel < 256 ∧ message < 256 ∧ value < 256

instance (channel message value : Nat) : Decidable (BytesFit channel message value) :=
  inferInstanceAs (Decidable (_ ∧ _))

theorem sendCcSerial_eq (channel message value : Nat) :
    sendCcSerial channel message value =
      if BytesFit channel message value then
        some [UInt8.ofNat (0xB <<< 4 ||| channel), UInt8.ofNat message, UInt8.ofNat value]
      else none := by
  have all : ([0xB <<< 4 ||| channel, message, value].all (· < 256)) = true ↔
      BytesFit channel message value := by
    simp only [List.all_cons, List.all_nil, Bool.and_true, Bool.and_eq_true, decide_eq_true_eq,
      or_lt, BytesFit]
  unfold sendCcSerial pyBytes
  by_cases fits : BytesFit channel message value
  · rw [if_pos (all.mpr fits), if_pos fits]
    rfl
  · rw [if_neg (mt all.mp fits), if_neg fits]

theorem midiCc_refused {channel message value : Nat} (wide : ¬BytesFit channel message value)
    (opens : Bool) : midiCc channel message value opens = (.raised, []) := by
  unfold midiCc
  rw [sendCcSerial_eq, if_neg wide]

theorem midiCc_opened {channel message value : Nat} (fits : BytesFit channel message value) :
    midiCc channel message value true =
      (.ok, [UInt8.ofNat (0xB <<< 4 ||| channel), UInt8.ofNat message, UInt8.ofNat value]) := by
  unfold midiCc
  rw [sendCcSerial_eq, if_pos fits]
  rfl

/-- A path segment that the int converter matches. -/
structure Segment (s : CStr) : Prop where
  nonempty : s ≠ []
  digits : Digits s

theorem Segment.pyInt {s : CStr} (hs : Segment s) :
    pyInt s = if s.length ≤ maxStrDigits then some (C.value 10 s : Int) else none :=
  PyInt.pyInt_digits hs.nonempty hs.digits

/-- `int` reads the string, and as a byte. -/
def CcByte (s : CStr) : Prop := s.length ≤ maxStrDigits ∧ C.value 10 s < 256

instance (s : CStr) : Decidable (CcByte s) := inferInstanceAs (Decidable (_ ∧ _))

theorem ccWrites_eq {c m v : CStr} (hc : Segment c) (hm : Segment m) (hv : Segment v) :
    ccWrites c m v =
      if CcByte c ∧ CcByte m ∧ CcByte v then
        [UInt8.ofNat (0xB <<< 4 ||| C.value 10 c), UInt8.ofNat (C.value 10 m),
          UInt8.ofNat (C.value 10 v)]
      else [] := by
  unfold ccWrites
  rw [hc.pyInt, hm.pyInt, hv.pyInt]
  by_cases short : c.length ≤ maxStrDigits ∧ m.length ≤ maxStrDigits ∧ v.length ≤ maxStrDigits
  · obtain ⟨sc, sm, sv⟩ := short
    rw [if_pos sc, if_pos sm, if_pos sv]
    simp only [Int.toNat_natCast, CcByte, sc, sm, sv, true_and]
    by_cases fits : BytesFit (C.value 10 c) (C.value 10 m) (C.value 10 v)
    · rw [midiCc_opened fits]
      exact (if_pos fits).symm
    · rw [midiCc_refused fits]
      exact (if_neg fits).symm
  · have refused : ¬(CcByte c ∧ CcByte m ∧ CcByte v) :=
      fun bytes => short ⟨bytes.1.1, bytes.2.1.1, bytes.2.2.1⟩
    rw [if_neg refused]
    by_cases sc : c.length ≤ maxStrDigits
    · by_cases sm : m.length ≤ maxStrDigits
      · rw [if_neg fun sv => short ⟨sc, sm, sv⟩]
        simp only [sc, sm, ↓reduceIte]
      · simp only [sc, sm, ↓reduceIte]
    · simp only [sc, ↓reduceIte]

theorem ccWrites_ne_nil {c m v : CStr} (hc : Segment c) (hm : Segment m) (hv : Segment v) :
    ccWrites c m v ≠ [] ↔ CcByte c ∧ CcByte m ∧ CcByte v := by
  rw [ccWrites_eq hc hm hv]
  split
  · rename_i bytes; simp [bytes]
  · rename_i refused; simp [refused]

/-- Within a byte, the status of the cc route carries the channel that the tapper
reads if and only if that is in range and not written in octal. -/
theorem or_eq_iff {c : CStr} (readable : Readable c) (range : reading c < 16) :
    0xB <<< 4 ||| C.value 10 c = 0xB0 + reading c ↔
      C.value 10 c < 16 ∧ (c.head? = some '0' → C.value 10 c < 8) := by
  have low : ∀ n < 16, 0xB <<< 4 ||| n = 0xB0 + n := by decide
  constructor
  · intro same
    by_cases small : reading c = C.value 10 c
    · exact ⟨small ▸ range, (C.reading_eq_iff readable).mp small⟩
    · -- an octal number from 10 to 17, two more in decimal
      exfalso
      have zero : c.head? = some '0' := by
        by_contra plain
        exact small ((C.reading_eq_iff readable).mpr fun e => absurd e plain)
      have octal : C.digitBase c = 8 := if_pos zero
      unfold Readable at readable
      unfold reading at small range same
      rw [octal] at readable small range same
      have teen : 8 ≤ C.value 8 c := by
        by_contra digit
        exact small (C.value_decimal_of_octal (by omega)).symm
      rw [C.value_decimal_of_teen readable teen range] at same
      have differ : ∀ n < 16, 8 ≤ n → 0xB <<< 4 ||| (n + 2) ≠ 0xB0 + n := by decide
      exact differ _ range teen same
  · rintro ⟨inRange, small⟩
    rw [low _ inRange, (C.reading_eq_iff readable).mpr small]

/-! ## The tap route -/

/-- What a digit string becomes in `args_info`. -/
def converted (s : CStr) : Int32 := Int32.ofInt (C.clampLong 64 (reading s))

/-- The arguments with which the tapper of a start request gets through its
parser. -/
def TapArgs (b : Build) (w : World) (c m v bpm : CStr) (args : ArgsInfo) : Prop :=
  cmdlineParser b.longBits w.tapProcCmd (tapCmd w c m v bpm).tail = .ok args

/-- The tapper gets past its checks into its loop, if the system lets it. -/
def EntersLoop (b : Build) (w : World) (c m v bpm : CStr) : Prop :=
  ∃ args acts s tr, TapArgs b w c m v bpm args ∧
    run (step b args) Tapper.start acts = some (s, tr) ∧ s.pc.inLoop = true

/-- The tempo is converted, and the timer armed with it. -/
def Arms (b : Build) (w : World) (bpm : CStr) : Prop :=
  ∃ t, convertInt b.longBits w.tapProcCmd bpm = .ok t ∧ 0 < bpmToNs b.longBits t ∧
    bpmToNs b.longBits t < 1000000000

/-- The cc route writes if and only if the tapper taps, and the same bytes. -/
structure Agree (b : Build) (w : World) (c m v bpm : CStr) : Prop where
  writes : ccWrites c m v ≠ [] ↔ EntersLoop b w c m v bpm
  bytes : ccWrites c m v ≠ [] → ∀ args, TapArgs b w c m v bpm args → ∀ acts s tr,
    run (step b args) Tapper.start acts = some (s, tr) → ∀ msg ret, .wrote msg ret ∈ tr →
      msg.bytes = ccWrites c m v

/-- The numbers are in the range that both routes take, and none is written
with a leading zero that makes it another number, or with too many of them. -/
def SameMessage (c m v : CStr) : Prop :=
  (∀ s ∈ [c, m, v], s.length ≤ maxStrDigits ∧ (s.head? = some '0' → C.value 10 s < 8)) ∧
    C.value 10 c < 16 ∧ C.value 10 m < 256 ∧ C.value 10 v < 256

/-- A number is no byte or has too many digits, and the tapper refuses as well:
a leading zero stands in front of an 8 or 9, or the channel is not in range once
it is an `int`. -/
def BothRefuse (c m v : CStr) : Prop :=
  (∃ s ∈ [c, m, v], maxStrDigits < s.length ∨ 256 ≤ C.value 10 s) ∧
    (¬(Readable c ∧ Readable m ∧ Readable v) ∨ 2 ^ 63 ≤ reading c ∨ 16 ≤ reading c % 2 ^ 32)

theorem not_ccByte {s : CStr} : ¬CcByte s ↔ maxStrDigits < s.length ∨ 256 ≤ C.value 10 s := by
  unfold CcByte
  omega

/-- The cc route refuses if one of the three is not a byte that `int` reads. -/
theorem refuses_iff {c m v : CStr} :
    ¬(CcByte c ∧ CcByte m ∧ CcByte v) ↔
      ∃ s ∈ [c, m, v], maxStrDigits < s.length ∨ 256 ≤ C.value 10 s := by
  simp only [← not_ccByte, List.mem_cons, List.not_mem_nil, or_false, exists_eq_or_imp,
    exists_eq_left]
  tauto

theorem converted_toInt (s : CStr) :
    (0 ≤ (converted s).toInt ∧ (converted s).toInt < 16) ↔
      reading s < 2 ^ 63 ∧ reading s % 2 ^ 32 < 16 := by
  rw [converted, C.toInt_ofInt, C.clampLong_natCast]
  split <;> omega

theorem converted_toUChar (s : CStr) :
    (C.toUChar (converted s)).toNat = min (reading s) (2 ^ 63 - 1) % 256 := by
  have narrowed := C.toUChar_ofInt (C.clampLong 64 (reading s))
  rw [C.clampLong_natCast] at narrowed
  rw [converted, C.clampLong_natCast]
  omega

/-- A data byte is the same on both routes if they read the same number. -/
theorem data_eq_iff {s : CStr} (fits : C.value 10 s < 256) :
    (C.toUChar (converted s)).toNat = C.value 10 s % 2 ^ 8 ↔ reading s = C.value 10 s := by
  have le := C.reading_le s
  rw [converted_toUChar]
  omega

/-- Where both routes accept, they send the same bytes if and only if no number
is written in octal and the channel is in range. -/
theorem message_eq_iff {c m v : CStr} (hc : Segment c) (hm : Segment m) (hv : Segment v)
    (dev bpm : CStr) (t : Int32) (fits : CcByte c ∧ CcByte m ∧ CcByte v)
    (readable : Readable c ∧ Readable m ∧ Readable v)
    (range : reading c < 2 ^ 63 ∧ reading c % 2 ^ 32 < 16) :
    (midiMsg (startArgs dev c m v bpm (converted c, converted m, converted v, t))).bytes =
        ccWrites c m v ↔
      SameMessage c m v := by
  obtain ⟨⟨lc, fc⟩, ⟨lm, fm⟩, ⟨lv, fv⟩⟩ := fits
  obtain ⟨rc, rm, rv⟩ := readable
  have low : reading c < 16 := by
    have := C.reading_le c
    omega
  have ok : ChannelOk (startArgs dev c m v bpm (converted c, converted m, converted v, t)) :=
    (Tapper.channelOk_iff _).mpr ((converted_toInt c).mpr range)
  have channel : (converted c).toInt = reading c := by
    rw [converted, C.toInt_ofInt, C.clampLong_natCast]
    split <;> omega
  have status : ((midiMsg (startArgs dev c m v bpm
      (converted c, converted m, converted v, t))).status.toNat : Int) = 0xB0 + reading c := by
    rw [Tapper.status_toNat ok, ← channel]
    rfl
  rw [ccWrites_eq hc hm hv, if_pos ⟨⟨lc, fc⟩, ⟨lm, fm⟩, ⟨lv, fv⟩⟩, Tapper.MidiMsg.bytes]
  have byte : 0xB <<< 4 ||| C.value 10 c < 256 := (or_lt _).mpr fc
  simp only [List.cons.injEq, and_true, ← UInt8.toNat_inj, UInt8.toNat_ofNat']
  have first : (midiMsg (startArgs dev c m v bpm
      (converted c, converted m, converted v, t))).status.toNat =
        (0xB <<< 4 ||| C.value 10 c) % 2 ^ 8 ↔ 0xB <<< 4 ||| C.value 10 c = 0xB0 + reading c := by
    omega
  have second : (midiMsg (startArgs dev c m v bpm
      (converted c, converted m, converted v, t))).number.toNat = C.value 10 m % 2 ^ 8 ↔
        reading m = C.value 10 m := data_eq_iff fm
  have third : (midiMsg (startArgs dev c m v bpm
      (converted c, converted m, converted v, t))).value.toNat = C.value 10 v % 2 ^ 8 ↔
        reading v = C.value 10 v := data_eq_iff fv
  rw [first, second, third, or_eq_iff rc low, C.reading_eq_iff rm, C.reading_eq_iff rv]
  simp only [SameMessage, List.mem_cons, List.not_mem_nil, or_false, forall_eq_or_imp, forall_eq]
  constructor
  · rintro ⟨⟨inRange, plainC⟩, plainM, plainV⟩
    exact ⟨⟨⟨lc, plainC⟩, ⟨lm, plainM⟩, ⟨lv, plainV⟩⟩, inRange, fm, fv⟩
  · rintro ⟨⟨⟨-, plainC⟩, ⟨-, plainM⟩, ⟨-, plainV⟩⟩, inRange, -⟩
    exact ⟨⟨inRange, plainC⟩, plainM, plainV⟩

section
variable {b : Build} {w : World} {c m v bpm : CStr} (wide : b.longBits = 64)
  (hc : Segment c) (hm : Segment m) (hv : Segment v) (armed : Arms b w bpm)
include wide hc hm hv armed

/-- The parser of a tapper accepts digit strings it can read to their ends. -/
theorem tapArgs_iff :
    ∃ t, ∀ args, TapArgs b w c m v bpm args ↔
      (Readable c ∧ Readable m ∧ Readable v) ∧
        args = startArgs w.serialDev c m v bpm (converted c, converted m, converted v, t) := by
  obtain ⟨t, tempo, -⟩ := armed
  rw [wide] at tempo
  refine ⟨t, fun args => ?_⟩
  have num {s : CStr} (hs : Segment s) :=
    @Cmdline.convertInt_digits 64 w.tapProcCmd s hs.nonempty hs.digits
  rw [TapArgs, tapCmd_options, List.tail_cons, Cmdline.cmdlineParser_start, wide]
  unfold startNumbers
  by_cases rc : Readable c
  · by_cases rm : Readable m
    · by_cases rv : Readable v
      · simp only [(num hc).1 rc, (num hm).1 rm, (num hv).1 rv, tempo, bind, Except.bind,
          Cmdline.Parsed.ok.injEq, rc, rm, rv, and_self, true_and, converted]
        exact eq_comm
      · obtain ⟨e, refused⟩ := (num hv).2 rv
        simp [(num hc).1 rc, (num hm).1 rm, refused, bind, Except.bind, rv]
    · obtain ⟨e, refused⟩ := (num hm).2 rm
      simp [(num hc).1 rc, refused, bind, Except.bind, rm]
  · obtain ⟨e, refused⟩ := (num hc).2 rc
    simp [refused, bind, Except.bind, rc]

theorem entersLoop_iff :
    EntersLoop b w c m v bpm ↔
      (Readable c ∧ Readable m ∧ Readable v) ∧ reading c < 2 ^ 63 ∧ reading c % 2 ^ 32 < 16 := by
  obtain ⟨t, parsed⟩ := tapArgs_iff wide hc hm hv armed
  have channel : ChannelOk (startArgs w.serialDev c m v bpm
      (converted c, converted m, converted v, t)) ↔
        reading c < 2 ^ 63 ∧ reading c % 2 ^ 32 < 16 := by
    rw [Tapper.channelOk_iff]
    exact converted_toInt c
  constructor
  · rintro ⟨args, acts, s, tr, taps, h, inside⟩
    obtain ⟨readable, rfl⟩ := (parsed args).mp taps
    exact ⟨readable, channel.mp (Tapper.channelOk_of_inLoop h inside)⟩
  · rintro ⟨readable, range⟩
    exact ⟨_, _, _, _, (parsed _).mpr ⟨readable, rfl⟩,
      Tapper.boot_run b _ (channel.mpr range), rfl⟩

/-- **When the routes agree.** For the same digit strings the two routes write
the same bytes, or neither writes, if and only if the numbers are in range, not
written in octal and not too long for `int`, or both refuse. -/
theorem routes_agree_iff : Agree b w c m v bpm ↔ SameMessage c m v ∨ BothRefuse c m v := by
  obtain ⟨t, parsed⟩ := tapArgs_iff wide hc hm hv armed
  have enters := entersLoop_iff wide hc hm hv armed
  have cc := ccWrites_ne_nil hc hm hv
  have same_message := message_eq_iff hc hm hv w.serialDev bpm t
  have small : SameMessage c m v → EntersLoop b w c m v bpm := by
    rintro ⟨plain, low, -⟩
    have readable {s : CStr} (hs : Segment s) (mem : s ∈ [c, m, v]) : Readable s :=
      C.readable_of_small hs.digits (plain s mem).2
    have le := C.reading_le c
    exact enters.mpr ⟨⟨readable hc (by simp), readable hm (by simp), readable hv (by simp)⟩,
      by omega, by omega⟩
  constructor
  · intro agree
    by_cases writes : ccWrites c m v ≠ []
    · left
      have inside := enters.mp (agree.writes.mp writes)
      apply (same_message (cc.mp writes) inside.1 inside.2).mp
      have taps := (parsed _).mpr ⟨inside.1, rfl⟩
      have ok := (Tapper.channelOk_iff (startArgs w.serialDev c m v bpm
        (converted c, converted m, converted v, t))).mpr ((converted_toInt c).mpr inside.2)
      obtain ⟨s, tr, h, -, one, -⟩ := Tapper.first_message b _ ok
      obtain ⟨msg, ret, sent⟩ := Tapper.wrote_of_sent (by omega : 0 < Tapper.sent tr)
      rw [← (Tapper.wrote_message h sent).2]
      exact agree.bytes writes _ taps _ s tr h msg ret sent
    · right
      have idle : ¬EntersLoop b w c m v bpm := fun inside => writes (agree.writes.mpr inside)
      rw [cc] at writes
      rw [enters] at idle
      refine ⟨refuses_iff.mp writes, ?_⟩
      by_cases readable : Readable c ∧ Readable m ∧ Readable v
      · have range : ¬(reading c < 2 ^ 63 ∧ reading c % 2 ^ 32 < 16) :=
          fun range => idle ⟨readable, range⟩
        right
        omega
      · exact .inl readable
  · rintro (same | ⟨ccRefused, refused⟩)
    · have short {s : CStr} (mem : s ∈ [c, m, v]) : s.length ≤ maxStrDigits := (same.1 s mem).1
      have writes := cc.mpr ⟨⟨short (by simp), by have := same.2.1; omega⟩,
        ⟨short (by simp), same.2.2.1⟩, ⟨short (by simp), same.2.2.2⟩⟩
      have inside := enters.mp (small same)
      refine ⟨⟨fun _ => small same, fun _ => writes⟩, fun _ args taps acts s tr h msg ret sent => ?_⟩
      obtain ⟨-, rfl⟩ := (parsed args).mp taps
      rw [(Tapper.wrote_message h sent).2]
      exact (same_message (cc.mp writes) inside.1 inside.2).mpr same
    · have silent : ¬ccWrites c m v ≠ [] := by
        rw [cc]
        exact refuses_iff.mpr ccRefused
      have idle : ¬EntersLoop b w c m v bpm := by
        rw [enters]
        rintro ⟨readable, range⟩
        cases refused with
        | inl unread => exact unread readable
        | inr range' => omega
      exact ⟨⟨fun writes => absurd writes silent, fun inside => absurd inside idle⟩,
        fun writes => absurd writes silent⟩

end

/-- Channel 1, controller 44, value 0. -/
theorem routes_agree_in_range :
    Agree (Build.plain false) installed "1".toList "44".toList "0".toList "120".toList :=
  (routes_agree_iff rfl ⟨by decide, by decide⟩ ⟨by decide, by decide⟩ ⟨by decide, by decide⟩
    ⟨120, rfl, by decide, by decide⟩).mpr
      (.inl ⟨by simp [C.value, C.digitVal, maxStrDigits], by decide, by decide, by decide⟩)

/-- Channel 16: the cc route sends on channel 0, the tapper refuses. -/
theorem routes_disagree :
    ¬∀ (b : Build) (w : World) (c m v bpm : CStr), b.longBits = 64 → Segment c → Segment m →
      Segment v → Arms b w bpm → Agree b w c m v bpm := by
  intro agree
  have both := (agree (Build.plain false) installed "16".toList "44".toList "0".toList
    "120".toList rfl ⟨by decide, by decide⟩ ⟨by decide, by decide⟩ ⟨by decide, by decide⟩
    ⟨120, rfl, by decide, by decide⟩).writes.mp (by decide)
  have inside := (entersLoop_iff rfl ⟨by decide, by decide⟩ ⟨by decide, by decide⟩
    ⟨by decide, by decide⟩ ⟨120, rfl, by decide, by decide⟩).mp both
  exact absurd inside.2 (by decide)

end MidiGw.Gateway
