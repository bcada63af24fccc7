import MidiGw.Setup

/-!
# The settings of the line

What `init_serial` makes of the settings of the port. The structure `tty` comes
from the device or, where `tcgetattr` fails, is whatever lay on the stack; its
flags are set, its speeds by two calls whose results are discarded, and it is
applied. What the device is left with, over whole runs of the tapper.
-/

namespace MidiGw.Tapper

open Cmdline (ArgsInfo)
open Runs (run run_invariant)

/-! ## Flags -/

/-- `struct termios`, as far as `init_serial` changes it. -/
structure Termios where
  iflag : BitVec 32
  oflag : BitVec 32
  cflag : BitVec 32
  lflag : BitVec 32
  ispeed : Nat
  ospeed : Nat
  deriving DecidableEq, Repr

/-- The masks of the platform. The character sizes are values under `CSIZE`,
and the masks of one word have no bit in common. -/
structure Flags where
  parenb : BitVec 32
  csize : BitVec 32
  cstopb : BitVec 32
  cs8 : BitVec 32
  crtscts : BitVec 32
  icanon : BitVec 32
  echo : BitVec 32
  echoe : BitVec 32
  echonl : BitVec 32
  iexten : BitVec 32
  isig : BitVec 32
  ixon : BitVec 32
  ixoff : BitVec 32
  ixany : BitVec 32
  ignbrk : BitVec 32
  brkint : BitVec 32
  parmrk : BitVec 32
  istrip : BitVec 32
  inlcr : BitVec 32
  igncr : BitVec 32
  icrnl : BitVec 32
  within : cs8 &&& csize = cs8
  apart : csize &&& (parenb ||| cstopb ||| crtscts) = 0
  apartLocal : iexten &&& (icanon ||| echo ||| echoe ||| echonl ||| isig) = 0

/-- The masks of Linux. -/
def Flags.linux : Flags where
  parenb := 0o400
  csize := 0o60
  cstopb := 0o100
  cs8 := 0o60
  crtscts := 0o20000000000
  icanon := 0o2
  echo := 0o10
  echoe := 0o20
  echonl := 0o100
  iexten := 0o100000
  isig := 0o1
  ixon := 0o2000
  ixoff := 0o10000
  ixany := 0o4000
  ignbrk := 0o1
  brkint := 0o2
  parmrk := 0o10
  istrip := 0o40
  inlcr := 0o100
  igncr := 0o200
  icrnl := 0o400
  within := by decide
  apart := by decide
  apartLocal := by decide

/-- The assignments of `init_serial` in front of `cfsetispeed`. -/
def Flags.set (f : Flags) (t : Termios) : Termios :=
  { t with
    oflag := 0
    cflag := (((t.cflag &&& ~~~f.parenb) &&& ~~~f.csize &&& ~~~f.cstopb) ||| f.cs8) &&& ~~~f.crtscts
    lflag := t.lflag &&& ~~~f.icanon &&& ~~~f.echo &&& ~~~f.echoe &&& ~~~f.echonl &&&
      ~~~f.iexten &&& ~~~f.isig
    iflag := t.iflag &&& ~~~(f.ixon ||| f.ixoff ||| f.ixany) &&&
      ~~~(f.ignbrk ||| f.brkint ||| f.parmrk ||| f.istrip ||| f.inlcr ||| f.igncr ||| f.icrnl) }

/-- Those of `midi_so.c` and `old.midi.c`. -/
def Flags.setOlder (f : Flags) (t : Termios) : Termios :=
  { t with
    cflag := (((t.cflag &&& ~~~f.parenb) &&& ~~~f.cstopb) ||| f.cs8) &&& ~~~f.crtscts
    lflag := t.lflag &&& ~~~f.icanon &&& ~~~f.echo &&& ~~~f.echoe &&& ~~~f.echonl &&& ~~~f.isig
    iflag := t.iflag &&& ~~~(f.ixon ||| f.ixoff ||| f.ixany) &&&
      ~~~(f.ignbrk ||| f.brkint ||| f.parmrk ||| f.istrip ||| f.inlcr ||| f.igncr ||| f.icrnl) }

/-- The flags of a word that `init_serial` decides on. -/
def Flags.control (f : Flags) : BitVec 32 := f.parenb ||| f.csize ||| f.cstopb ||| f.crtscts

def Flags.localFlags (f : Flags) : BitVec 32 :=
  f.icanon ||| f.echo ||| f.echoe ||| f.echonl ||| f.iexten ||| f.isig

def Flags.input (f : Flags) : BitVec 32 :=
  f.ixon ||| f.ixoff ||| f.ixany ||| f.ignbrk ||| f.brkint ||| f.parmrk ||| f.istrip ||| f.inlcr |||
    f.igncr ||| f.icrnl

/-- Eight bits, no parity, one stop bit, no flow control, and no processing of
what goes out or comes in; all else as it was. -/
structure Flags.Raw (f : Flags) (old new : Termios) : Prop where
  output : new.oflag = 0
  framing : new.cflag &&& f.control = f.cs8
  localFlags : new.lflag &&& f.localFlags = 0
  input : new.iflag &&& f.input = 0
  kept : new.cflag &&& ~~~f.control = old.cflag &&& ~~~f.control ∧
    new.lflag &&& ~~~f.localFlags = old.lflag &&& ~~~f.localFlags ∧
    new.iflag &&& ~~~f.input = old.iflag &&& ~~~f.input

theorem set_raw (f : Flags) (t : Termios) : f.Raw t (f.set t) := by
  have within (i : Nat) (hi : i < 32) : (f.cs8 &&& f.csize)[i] = f.cs8[i] := by rw [f.within]
  have apart (i : Nat) (hi : i < 32) :
      (f.csize &&& (f.parenb ||| f.cstopb ||| f.crtscts))[i] = (0 : BitVec 32)[i] := by rw [f.apart]
  simp only [BitVec.getElem_and, BitVec.getElem_or, BitVec.ofNat_eq_ofNat, BitVec.getElem_zero]
    at within apart
  refine ⟨rfl, ?_, ?_, ?_, ?_, ?_, ?_⟩
  all_goals
    apply BitVec.eq_of_getElem_eq
    intro i hi
    have within := within i hi
    have apart := apart i hi
    simp only [Flags.set, Flags.control, Flags.localFlags, Flags.input, BitVec.getElem_and,
      BitVec.getElem_or, BitVec.getElem_not, BitVec.ofNat_eq_ofNat, BitVec.getElem_zero]
    grind

/-- Where the older programs would have left the same settings. -/
theorem older_agrees_iff (f : Flags) (t : Termios) :
    f.setOlder t = f.set t ↔
      t.oflag = 0 ∧ t.lflag &&& f.iexten = 0 ∧ t.cflag &&& f.csize &&& ~~~f.cs8 = 0 := by
  have within (i : Nat) (hi : i < 32) : (f.cs8 &&& f.csize)[i] = f.cs8[i] := by rw [f.within]
  have apart (i : Nat) (hi : i < 32) :
      (f.csize &&& (f.parenb ||| f.cstopb ||| f.crtscts))[i] = (0 : BitVec 32)[i] := by rw [f.apart]
  have apartLocal (i : Nat) (hi : i < 32) :
      (f.iexten &&& (f.icanon ||| f.echo ||| f.echoe ||| f.echonl ||| f.isig))[i] =
        (0 : BitVec 32)[i] := by rw [f.apartLocal]
  simp only [Flags.setOlder, Flags.set, Termios.mk.injEq, true_and, and_true]
  simp only [BitVec.getElem_and, BitVec.getElem_or, BitVec.ofNat_eq_ofNat, BitVec.getElem_zero]
    at within apart apartLocal
  constructor
  · rintro ⟨output, control, localFlags⟩
    refine ⟨output, ?_, ?_⟩
    · apply BitVec.eq_of_getElem_eq
      intro i hi
      have same := congrArg (fun x : BitVec 32 => x.getLsbD i) localFlags
      have apart := apartLocal i hi
      simp only [BitVec.getLsbD_eq_getElem hi, BitVec.getElem_and, BitVec.getElem_not,
        BitVec.ofNat_eq_ofNat, BitVec.getElem_zero] at same ⊢
      grind
    · apply BitVec.eq_of_getElem_eq
      intro i hi
      have same := congrArg (fun x : BitVec 32 => x.getLsbD i) control
      have apart := apart i hi
      have within := within i hi
      simp only [BitVec.getLsbD_eq_getElem hi, BitVec.getElem_and, BitVec.getElem_or,
        BitVec.getElem_not, BitVec.ofNat_eq_ofNat, BitVec.getElem_zero] at same ⊢
      grind
  · rintro ⟨output, localFlags, control⟩
    refine ⟨output, ?_, ?_⟩
    · apply BitVec.eq_of_getElem_eq
      intro i hi
      have same := congrArg (fun x : BitVec 32 => x.getLsbD i) control
      have within := within i hi
      simp only [BitVec.getLsbD_eq_getElem hi, BitVec.getElem_and, BitVec.getElem_or,
        BitVec.getElem_not, BitVec.ofNat_eq_ofNat, BitVec.getElem_zero] at same ⊢
      grind
    · apply BitVec.eq_of_getElem_eq
      intro i hi
      have same := congrArg (fun x : BitVec 32 => x.getLsbD i) localFlags
      simp only [BitVec.getLsbD_eq_getElem hi, BitVec.getElem_and, BitVec.getElem_not,
        BitVec.ofNat_eq_ofNat, BitVec.getElem_zero] at same ⊢
      grind

/-! ## The calls of a run, in order -/

def Call.all : List Call :=
  [.stat, .sIsChr, .checkChannel, .openSerial, .tcgetattr, .cfsetispeed, .cfsetospeed, .tcsetattr,
    .sigactionTimer, .sigactionInt, .sigprocmaskBlock, .timerCreate, .timerSettime,
    .sigprocmaskUnblock]

theorem all_place (c : Call) : Call.all[c.place]? = some c := by cases c <;> rfl

def Event.call : Event → Option (Call × Bool)
  | .called c ok => some (c, ok)
  | _ => none

def calls (tr : List Event) : List (Call × Bool) := tr.filterMap Event.call

@[simp] theorem calls_append (a b : List Event) : calls (a ++ b) = calls a ++ calls b :=
  List.filterMap_append

theorem mem_calls {tr : List Event} {c : Call} {ok : Bool} :
    (c, ok) ∈ calls tr ↔ .called c ok ∈ tr := by
  simp only [calls, List.mem_filterMap]
  constructor
  · rintro ⟨e, mem, call⟩
    cases e <;> cases call
    exact mem
  · exact fun mem => ⟨_, mem, rfl⟩

theorem callStep_calls (b : Build) (args : ArgsInfo) (s : State) (r : Sys) (c : Call) :
    ∃ ok, calls (callStep b args s r c).2 = [(c, ok)] := by
  cases c <;> simp only [callStep, orFail, fail]
  case cfsetispeed | cfsetospeed => exact ⟨_, rfl⟩
  all_goals split <;> exact ⟨_, rfl⟩

theorem zip_concat {α β : Type} {l : List α} {bs : List β} {c : α} (next : l[bs.length]? = some c)
    (b : β) : l.zip (bs ++ [b]) = l.zip bs ++ [(c, b)] := by
  induction bs generalizing l with
  | nil =>
    cases l with
    | nil => cases next
    | cons a l => cases next; simp
  | cons d bs ih =>
    cases l with
    | nil => cases next
    | cons a l =>
      simp only [List.cons_append, List.zip_cons_cons, ih next]

/-- The calls are made in their order, one after the other. -/
structure InOrder (s : State) (tr : List Event) (oks : List Bool) : Prop where
  made : calls tr = Call.all.zip oks
  place : s.pc.exits = false → oks.length = s.pc.behind
  bound : oks.length ≤ 14

theorem calls_quiet {out : List Event} (quiet : ∀ e ∈ out, e.ofCall = false) : calls out = [] := by
  rw [calls, List.filterMap_eq_nil_iff]
  intro e mem
  have other := quiet e mem
  cases e <;> first | rfl | cases other

/-- A step makes the call that `main` stands at, or none. -/
theorem step_made {b : Build} {args : ArgsInfo} {s t : State} {out : List Event} {a : Act}
    (hs : step b args s a = some (t, out)) :
    (∃ c ok, s.pc = .call c ∧ calls out = [(c, ok)] ∧
      (t.pc = c.next ∨ t.pc = .exited exitFailure)) ∨
    calls out = [] ∧ (t.pc.exits = false → t.pc.behind = s.pc.behind) := by
  cases step_move hs with
  | call c r pc =>
    obtain ⟨ok, made⟩ := callStep_calls b args s r c
    exact .inl ⟨c, ok, pc, made, callStep_next b args s r c⟩
  | encode r pc =>
    exact .inr ⟨calls_quiet (encodeEvents_ofCall b args), fun _ => by rw [pc]; rfl⟩
  | now1 r pc =>
    exact .inr ⟨calls_quiet (dprint_ofCall b _ _), fun _ => by rw [pc]; rfl⟩
  | close r pc =>
    exact .inr ⟨calls_quiet (closeEvents_ofCall b s.serialFd r), fun going => by cases going⟩
  | clear r pc | write r pc => exact .inr ⟨rfl, fun _ => by rw [pc]; cases b.debug <;> rfl⟩
  | stay r pc | leave r pc | slept r pc | fired r pc | quiet r pc | now0 r pc | uncounted r pc
  | counted r pc | «break» r pc => exact .inr ⟨rfl, fun _ => by rw [pc]; rfl⟩
  | enter | kill | tick | interrupt => exact .inr ⟨rfl, fun _ => rfl⟩

theorem inOrder_step {b : Build} {args : ArgsInfo} {s t : State} {tr out : List Event} {a : Act}
    (h : ∃ oks, InOrder s tr oks) (hs : step b args s a = some (t, out)) :
    ∃ oks, InOrder t (tr ++ out) oks := by
  obtain ⟨oks, made, place, bound⟩ := h
  have here := place (step_going hs)
  obtain ⟨c, ok, pc, call, led⟩ | ⟨uncalled, same⟩ := step_made hs
  · rw [pc] at here
    have next : Call.all[oks.length]? = some c := by rw [here]; exact all_place c
    refine ⟨oks ++ [ok], ?_, fun going => ?_, ?_⟩
    · rw [calls_append, made, call, zip_concat next]
    · rw [List.length_append, List.length_singleton, here]
      cases led with
      | inl led => rw [led, next_behind_succ]; rfl
      | inr gone => rw [gone] at going; cases going
    · have := place_lt c
      rw [List.length_append, List.length_singleton, here]
      exact this
  · refine ⟨oks, ?_, fun going => here.trans (same going).symm, bound⟩
    rw [calls_append, uncalled, List.append_nil, made]

theorem reachable_inOrder {b : Build} {args : ArgsInfo} {acts : List Act} {s : State}
    {tr : List Event} (h : run (step b args) start acts = some (s, tr)) : ∃ oks, InOrder s tr oks := by
  have h0 : ∃ oks, InOrder start [] oks := ⟨[], rfl, fun _ => rfl, Nat.zero_le 14⟩
  simpa using run_invariant (fun s tr => ∃ oks, InOrder s tr oks) h0 h
    fun _ _ _ _ _ hi hs => inOrder_step hi hs

/-! ## The device -/

/-- The settings that the device has, and the structure `tty`. -/
structure Port where
  device : Termios
  tty : Termios
  deriving DecidableEq, Repr

/-- What a call of `init_serial` does to them, the flags set in front of
`cfsetispeed`; one that fails does nothing. -/
def Port.call (f : Flags) (p : Port) : Call × Bool → Port
  | (.tcgetattr, true) => { p with tty := p.device }
  | (.cfsetispeed, true) => { p with tty := { f.set p.tty with ispeed := 31250 } }
  | (.cfsetispeed, false) => { p with tty := f.set p.tty }
  | (.cfsetospeed, true) => { p with tty := { p.tty with ospeed := 31250 } }
  | (.tcsetattr, true) => { p with device := p.tty }
  | _ => p

def Port.after (f : Flags) (p : Port) (tr : List Event) : Port := (calls tr).foldl (Port.call f) p

/-- The settings that are applied, by the calls that have succeeded. -/
structure Applied (f : Flags) (ok : Call → Prop) (old device : Termios) : Prop where
  raw : f.Raw old device
  ispeed : (ok .cfsetispeed → device.ispeed = 31250) ∧
    (¬ok .cfsetispeed → device.ispeed = old.ispeed)
  ospeed : (ok .cfsetospeed → device.ospeed = 31250) ∧
    (¬ok .cfsetospeed → device.ospeed = old.ospeed)

theorem device_kept (f : Flags) {made : List (Call × Bool)} (unset : (.tcsetattr, true) ∉ made)
    (p : Port) : (made.foldl (Port.call f) p).device = p.device := by
  induction made generalizing p with
  | nil => rfl
  | cons x made ih =>
    rw [List.mem_cons, not_or] at unset
    rw [List.foldl_cons, ih unset.2]
    obtain ⟨c, ok⟩ := x
    cases c <;> cases ok <;> first | rfl | exact absurd rfl unset.1

/-- No call behind `init_serial` touches the settings. -/
theorem behind_serial {rest : List Bool} {x : Call × Bool} (mem : x ∈ (Call.all.drop 8).zip rest) :
    8 ≤ x.1.place := by
  have inside := (List.of_mem_zip (a := x.1) (b := x.2) mem).1
  revert inside
  cases x.1 <;> decide

theorem port_kept (f : Flags) {made : List (Call × Bool)} (behind : ∀ x ∈ made, 8 ≤ x.1.place)
    (p : Port) : made.foldl (Port.call f) p = p := by
  induction made generalizing p with
  | nil => rfl
  | cons x made ih =>
    rw [List.foldl_cons, ih fun y mem => behind y (List.mem_cons_of_mem x mem)]
    have far := behind x List.mem_cons_self
    obtain ⟨c, ok⟩ := x
    cases c <;> cases ok <;> first | rfl | exact absurd far (by decide)

theorem applied_of (f : Flags) (p : Port) {oks : List Bool}
    (set : (.tcsetattr, true) ∈ Call.all.zip oks) :
    ∃ old, ((.tcgetattr, true) ∈ Call.all.zip oks → old = p.device) ∧
      ((.tcgetattr, true) ∉ Call.all.zip oks → old = p.tty) ∧
      Applied f (fun c => (c, true) ∈ Call.all.zip oks) old
        ((Call.all.zip oks).foldl (Port.call f) p).device := by
  rcases oks with _ | ⟨o0, _ | ⟨o1, _ | ⟨o2, _ | ⟨o3, _ | ⟨o4, _ | ⟨o5, _ | ⟨o6, _ | ⟨o7, rest⟩⟩⟩⟩⟩⟩⟩⟩
  case cons.cons.cons.cons.cons.cons.cons.cons =>
    have front : Call.all.zip (o0 :: o1 :: o2 :: o3 :: o4 :: o5 :: o6 :: o7 :: rest) =
        [(.stat, o0), (.sIsChr, o1), (.checkChannel, o2), (.openSerial, o3), (.tcgetattr, o4),
          (.cfsetispeed, o5), (.cfsetospeed, o6), (.tcsetattr, o7)] ++
          (Call.all.drop 8).zip rest := rfl
    have tail {c : Call} (early : c.place < 8) : (c, true) ∉ (Call.all.drop 8).zip rest :=
      fun mem => absurd (behind_serial mem) (Nat.not_le_of_lt early)
    rw [front] at set ⊢
    rw [List.foldl_append, port_kept f fun x mem => behind_serial mem]
    have applied : o7 = true := by
      simpa [tail (show Call.tcsetattr.place < 8 by decide)] using set
    have read : (.tcgetattr, true) ∈ [(.stat, o0), (.sIsChr, o1), (.checkChannel, o2),
        (.openSerial, o3), (.tcgetattr, o4), (.cfsetispeed, o5), (.cfsetospeed, o6),
        (.tcsetattr, o7)] ++ (Call.all.drop 8).zip rest ↔ o4 = true := by
      simp [tail (show Call.tcgetattr.place < 8 by decide)]
    have ispeed : (.cfsetispeed, true) ∈ [(.stat, o0), (.sIsChr, o1), (.checkChannel, o2),
        (.openSerial, o3), (.tcgetattr, o4), (.cfsetispeed, o5), (.cfsetospeed, o6),
        (.tcsetattr, o7)] ++ (Call.all.drop 8).zip rest ↔ o5 = true := by
      simp [tail (show Call.cfsetispeed.place < 8 by decide)]
    have ospeed : (.cfsetospeed, true) ∈ [(.stat, o0), (.sIsChr, o1), (.checkChannel, o2),
        (.openSerial, o3), (.tcgetattr, o4), (.cfsetispeed, o5), (.cfsetospeed, o6),
        (.tcsetattr, o7)] ++ (Call.all.drop 8).zip rest ↔ o6 = true := by
      simp [tail (show Call.cfsetospeed.place < 8 by decide)]
    subst applied
    refine ⟨if o4 then p.device else p.tty, ?_, ?_, ?_⟩
    · rw [read]
      exact fun on => if_pos on
    · rw [read]
      exact fun off => if_neg off
    · have device : (List.foldl (Port.call f) p [(.stat, o0), (.sIsChr, o1), (.checkChannel, o2),
          (.openSerial, o3), (.tcgetattr, o4), (.cfsetispeed, o5), (.cfsetospeed, o6),
          (.tcsetattr, true)]).device =
          { f.set (if o4 then p.device else p.tty) with
            ispeed := if o5 then 31250 else (if o4 then p.device else p.tty).ispeed
            ospeed := if o6 then 31250 else (if o4 then p.device else p.tty).ospeed } := by
        cases o4 <;> cases o5 <;> cases o6 <;> rfl
      rw [device]
      generalize (if o4 = true then p.device else p.tty) = old
      have raw := set_raw f old
      refine ⟨⟨raw.output, raw.framing, raw.localFlags, raw.input, raw.kept⟩, ?_, ?_⟩
      · rw [ispeed]
        exact ⟨fun on => if_pos on, fun off => if_neg off⟩
      · rw [ospeed]
        exact ⟨fun on => if_pos on, fun off => if_neg off⟩
  all_goals simp [Call.all] at set

/-- **The line's settings.** Whatever the settings of the device are and whatever
`tty` holds: in every run the device keeps them unless `tcsetattr` succeeds. It
then has eight bits, no parity, one stop bit, no flow control and no processing,
all else from the device or, where `tcgetattr` has failed, from the stack, and each
speed is 31250 exactly where its call has succeeded or it was so before. Once a
message is written and no call of `init_serial` has failed, all of it holds. The
assignments of the two older programs come to the same exactly on settings with
no output processing, no `IEXTEN` and no bit of `CSIZE` beside those of `CS8`. -/
theorem line_settings (f : Flags) (p : Port) (b : Build) (args : ArgsInfo) {acts : List Act}
    {s : State} {tr : List Event} (h : run (step b args) start acts = some (s, tr)) :
    (.called .tcsetattr true ∉ tr → (p.after f tr).device = p.device) ∧
    (.called .tcsetattr true ∈ tr → ∃ old,
      (.called .tcgetattr true ∈ tr → old = p.device) ∧
      (.called .tcgetattr true ∉ tr → old = p.tty) ∧
      Applied f (fun c => .called c true ∈ tr) old (p.after f tr).device) ∧
    (0 < sent tr → SerialOk tr → f.Raw p.device (p.after f tr).device ∧
      (p.after f tr).device.ispeed = 31250 ∧ (p.after f tr).device.ospeed = 31250) ∧
    ∀ t, f.setOlder t = f.set t ↔
      t.oflag = 0 ∧ t.lflag &&& f.iexten = 0 ∧ t.cflag &&& f.csize &&& ~~~f.cs8 = 0 := by
  obtain ⟨oks, made, -, -⟩ := reachable_inOrder h
  have settings : .called .tcsetattr true ∈ tr → ∃ old,
      (.called .tcgetattr true ∈ tr → old = p.device) ∧
      (.called .tcgetattr true ∉ tr → old = p.tty) ∧
      Applied f (fun c => .called c true ∈ tr) old (p.after f tr).device := by
    intro set
    simp only [← mem_calls, made, Port.after] at set ⊢
    exact applied_of f p set
  refine ⟨fun unset => ?_, settings, fun wrote serial => ?_, older_agrees_iff f⟩
  · rw [← mem_calls] at unset
    exact device_kept f unset p
  · have inv := reachable_callInv h
    have ok (c : Call) (inside : c.inInitSerial = true) : .called c true ∈ tr :=
      (inv.written wrote c).resolve_right fun failed => serial c inside failed.1
    obtain ⟨old, read, -, applied⟩ := settings (ok .tcsetattr rfl)
    rw [read (ok .tcgetattr rfl)] at applied
    exact ⟨applied.raw, applied.ispeed.1 (ok .cfsetispeed rfl), applied.ospeed.1 (ok .cfsetospeed rfl)⟩

/-- A line at 9600 baud, with seven bits, parity, flow control and a terminal's
processing; `tty` holds zeros. -/
def terminal : Port where
  device := ⟨0o2400, 0o5, 0o20000002640, 0o105073, 9600, 9600⟩
  tty := ⟨0, 0, 0, 0, 0, 0⟩

theorem line_settings_message :
    ∃ s tr, run (step (Build.plain false) Cmdline.cmdlineParserInit) start
        (boot ++ [.signal .sigrtmin, .handler] ++ List.replicate 5 (.main okSys)) = some (s, tr) ∧
      0 < sent tr ∧ Flags.linux.Raw terminal.device (terminal.after .linux tr).device ∧
      (terminal.after .linux tr).device.ospeed = 31250 := by
  obtain ⟨s, tr, ran, wrote, serial⟩ : ∃ s tr,
      run (step (Build.plain false) Cmdline.cmdlineParserInit) start
        (boot ++ [.signal .sigrtmin, .handler] ++ List.replicate 5 (.main okSys)) = some (s, tr) ∧
      0 < sent tr ∧ SerialOk tr := by
    refine ⟨_, _, rfl, by decide, fun c _ => ?_⟩
    cases c <;> decide
  obtain ⟨raw, -, speed⟩ := (line_settings .linux terminal _ _ ran).2.2.1 wrote serial
  exact ⟨s, tr, ran, wrote, raw, speed⟩

end MidiGw.Tapper
