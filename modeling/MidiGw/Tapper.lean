import MidiGw.Cmdline
import MidiGw.Runs

/-!
# The tapper process

`tapper.c` from `main`'s first check to its return, as a machine of atomic
steps: one step for each call that can fail, for each test and assignment of
the tap loop, and for each signal handler that is entered or runs. What the
kernel and the C library answer is part of the action, so a run ranges over
every combination of answers and every schedule of signals.
-/

namespace MidiGw.Tapper

open C (CStr toUChar)
open Cmdline (ArgsInfo)

/-- How the tapper was built, and the texts of `strerror`. -/
structure Build where
  /-- compiled with `-DDEBUG` -/
  debug : Bool
  /-- `__FILE__` -/
  file : CStr
  /-- the width of `long` -/
  longBits : Nat
  longWide : longBits = 32 ∨ longBits = 64
  strerror : Int32 → CStr

/-- A build for 64 bits whose error texts are empty. -/
def Build.plain (debug : Bool) : Build :=
  ⟨debug, "tapper.c".toList, 64, .inr rfl, fun _ => []⟩

def exitSuccess : Int := 0
def exitFailure : Int := 1

/-! ## Texts -/

/-- `%d`, `%i` and `%ld`. -/
def fmtInt (n : Int) : CStr :=
  if n < 0 then '-' :: Nat.toDigits 10 n.natAbs else Nat.toDigits 10 n.natAbs

/-- `%lx`. -/
def fmtHex (n : Nat) : CStr := Nat.toDigits 16 n

/-- `%02x`. -/
def fmtByte (b : UInt8) : CStr :=
  if b < 16 then '0' :: fmtHex b.toNat else fmtHex b.toNat

/-- Where `dprint` says it stands. -/
def Build.place (b : Build) (line : Nat) : CStr :=
  b.file ++ ":".toList ++ fmtInt line ++ ":main(): ".toList

/-- `printf("Error %i ...: %s\n", errno, strerror(errno))`. -/
def Build.errorText (b : Build) (what : CStr) (errno : Int32) : CStr :=
  "Error ".toList ++ fmtInt errno.toInt ++ what ++ b.strerror errno ++ "\n".toList

def Build.perrorText (b : Build) (call : CStr) (errno : Int32) : CStr :=
  call ++ ": ".toList ++ b.strerror errno ++ "\n".toList

/-! ## The message and the tempo -/

/-- `midi_msg`. -/
structure MidiMsg where
  status : UInt8
  number : UInt8
  value : UInt8
  deriving DecidableEq, Repr

def MidiMsg.bytes (m : MidiMsg) : List UInt8 := [m.status, m.number, m.value]

/-- The three assignments to `midi_msg` in `main`. -/
def midiMsg (args : ArgsInfo) : MidiMsg where
  status := toUChar ((0xB : Int32) <<< 4 ||| args.channel.arg)
  number := toUChar args.message.arg
  value := toUChar args.value.arg

/-- `bpm_to_ns`: the quotient of a 64-bit literal, cast to `long`. -/
def bpmToNs (longBits : Nat) (bpm : Int32) : Int :=
  if bpm > 0 then (60000000000 / bpm.toInt).bmod (2 ^ longBits) else 0

/-! ## State -/

/-- The calls and checks before the loop that can fail, in `main`'s order. -/
inductive Call where
  | stat | sIsChr | checkChannel
  | openSerial | tcgetattr | cfsetispeed | cfsetospeed | tcsetattr
  | sigactionTimer | sigactionInt
  | sigprocmaskBlock | timerCreate | timerSettime | sigprocmaskUnblock
  deriving DecidableEq, Repr

inductive Signal where
  | sigrtmin | sigint | sigterm
  deriving DecidableEq, Repr

/-- The step `main` takes next. -/
inductive Pc where
  | call (c : Call)
  | encode
  | testRunning | usleep | testTrigger | clearTrigger
  | now0 | write | now1 | checkRepeats
  | closeSerial
  | exited (status : Int)
  deriving DecidableEq, Repr

/-- The two handlers the tapper installs. -/
inductive Handler where
  | timer | int
  deriving DecidableEq, Repr

structure State where
  pc : Pc
  running : Bool
  trigger : Bool
  serialFd : Int32
  midiMsg : MidiMsg
  /-- the counter `i` of the tap loop -/
  i : Int
  t0 : Int
  /-- `S_ISCHR(serial_stat.st_mode)` -/
  isChr : Bool
  /-- whether `tcgetattr` has filled `tty` -/
  ttyRead : Bool
  timerInstalled : Bool
  intInstalled : Bool
  /-- handlers entered and not yet returned, the innermost first -/
  frames : List Handler
  /-- the signal whose default action ended the process -/
  killedBy : Option Signal
  deriving DecidableEq, Repr

/-- `main` behind its command line parser. -/
def start : State where
  pc := .call .stat
  running := true
  trigger := false
  serialFd := -1
  midiMsg := ⟨0, 0, 0⟩
  i := 0
  t0 := 0
  isChr := false
  ttyRead := false
  timerInstalled := false
  intInstalled := false
  frames := []
  killedBy := none

/-- What an observer of the process sees of a step. -/
inductive Event where
  | called (c : Call) (ok : Bool)
  /-- `tcsetattr` applied `tty`, which came from the device or not -/
  | applied (fromDevice : Bool)
  | stdout (text : CStr)
  | stderr (text : CStr)
  /-- `handler_timer` ran and found `trigger` set or not -/
  | tick (merged : Bool)
  /-- `handler_int` ran -/
  | interrupt
  /-- `trigger = 0` -/
  | cleared
  /-- `write` in `sendCC`, with its result -/
  | wrote (msg : MidiMsg) (ret : Int)
  /-- `close` in `close_serial` -/
  | closed
  deriving DecidableEq, Repr

/-- The answer to a system call: its result, `errno`, and what it stores
through a pointer (`S_ISCHR` of the mode, the timer's id, `tv_nsec`). -/
structure Sys where
  ret : Int
  errno : Int32
  out : Int
  deriving DecidableEq, Repr

inductive Act where
  /-- the next step of `main` -/
  | main (r : Sys)
  /-- a signal is delivered -/
  | signal (sig : Signal)
  /-- the innermost handler runs and returns -/
  | handler
  deriving DecidableEq, Repr

/-! ## Steps -/

def handlerTimer (s : State) : State × List Event :=
  ({ s with trigger := true }, [.tick s.trigger])

def handlerInt (s : State) : State × List Event :=
  ({ s with running := false }, [.interrupt])

/-- `perror` and `exit(EXIT_FAILURE)`. -/
def fail (b : Build) (s : State) (c : Call) (what : CStr) (r : Sys) : State × List Event :=
  ({ s with pc := .exited exitFailure },
    [.called c false, .stderr (b.perrorText what r.errno)])

/-- A call whose failure ends the process. -/
def orFail (b : Build) (s : State) (c : Call) (what : CStr) (r : Sys) (next : State) :
    State × List Event :=
  if r.ret = -1 then fail b s c what r else (next, [.called c true])

/-- `main` up to the loop: the argument checks, `init_serial`,
`init_sig_handlers` and `init_timer`. -/
def callStep (b : Build) (args : ArgsInfo) (s : State) (r : Sys) : Call → State × List Event
  | .stat =>
    if r.ret ≠ 0 then fail b s .stat "stat".toList r
    else ({ s with pc := .call .sIsChr, isChr := r.out ≠ 0 }, [.called .stat true])
  | .sIsChr =>
    if s.isChr then ({ s with pc := .call .checkChannel }, [.called .sIsChr true])
    else ({ s with pc := .exited exitFailure },
      [.called .sIsChr false,
        .stdout (args.serial.arg ++ " is not a character device. Exiting.\n".toList)])
  | .checkChannel =>
    if args.channel.arg < 0 ∨ args.channel.arg > 15 then
      ({ s with pc := .exited exitFailure },
        [.called .checkChannel false,
          .stdout "MIDI channel needs to be in range 0-15. Exiting.\n".toList])
    else ({ s with pc := .encode }, [.called .checkChannel true])
  -- `init_serial` reports each failure and carries on
  | .openSerial =>
    let fd := Int32.ofInt r.ret
    let next := { s with pc := .call .tcgetattr, serialFd := fd }
    if fd < 0 then
      (next, [.called .openSerial false, .stdout (b.errorText " from open: ".toList r.errno)])
    else
      (next, [.called .openSerial true,
        .stdout ("Serial port is open (".toList ++ fmtInt fd.toInt ++ ")\n".toList)])
  | .tcgetattr =>
    if r.ret ≠ 0 then
      ({ s with pc := .call .cfsetispeed },
        [.called .tcgetattr false, .stdout (b.errorText " from tcgetattr: ".toList r.errno)])
    else ({ s with pc := .call .cfsetispeed, ttyRead := true }, [.called .tcgetattr true])
  -- the results of these two are discarded
  | .cfsetispeed =>
    ({ s with pc := .call .cfsetospeed }, [.called .cfsetispeed (r.ret = 0)])
  | .cfsetospeed =>
    ({ s with pc := .call .tcsetattr }, [.called .cfsetospeed (r.ret = 0)])
  | .tcsetattr =>
    if r.ret ≠ 0 then
      ({ s with pc := .call .sigactionTimer },
        [.called .tcsetattr false, .stdout (b.errorText " from tcsetattr: ".toList r.errno)])
    else
      ({ s with pc := .call .sigactionTimer }, [.called .tcsetattr true, .applied s.ttyRead])
  | .sigactionTimer =>
    orFail b s .sigactionTimer "sigaction".toList r
      { s with pc := .call .sigactionInt, timerInstalled := true }
  | .sigactionInt =>
    orFail b s .sigactionInt "sigaction".toList r
      { s with pc := .call .sigprocmaskBlock, intInstalled := true }
  | .sigprocmaskBlock =>
    orFail b s .sigprocmaskBlock "sigprocmask".toList r { s with pc := .call .timerCreate }
  | .timerCreate =>
    if r.ret = -1 then fail b s .timerCreate "timer_create".toList r
    else
      ({ s with pc := .call .timerSettime },
        [.called .timerCreate true,
          .stdout ("timer ID is 0x".toList ++ fmtHex (r.out % 2 ^ b.longBits).toNat ++ "\n".toList)])
  | .timerSettime =>
    orFail b s .timerSettime "timer_settime".toList r { s with pc := .call .sigprocmaskUnblock }
  | .sigprocmaskUnblock =>
    orFail b s .sigprocmaskUnblock "sigprocmask".toList r { s with pc := .testRunning }

/-- `dprint`, which is nothing without DEBUG. -/
def Build.dprint (b : Build) (line : Nat) (text : CStr) : List Event :=
  if b.debug then [.stderr (b.place line ++ text)] else []

/-- The encoding of the message and the tempo, with their two `dprint`s. -/
def encodeEvents (b : Build) (args : ArgsInfo) : List Event :=
  let m := midiMsg args
  b.dprint 244 ("MIDI message: ".toList ++ fmtByte m.status ++ " ".toList ++ fmtByte m.number ++
    " ".toList ++ fmtByte m.value ++ "\n".toList) ++
  b.dprint 247 ("Tempo interval: ".toList ++ fmtInt (bpmToNs b.longBits args.tempo.arg) ++
    " ns (".toList ++ fmtInt args.tempo.arg.toInt ++ " bpm)\n".toList)

/-- The `dprint` behind `sendCC`; `%d` shows a `long` as an `int`. -/
def tookEvents (b : Build) (t0 t1 : Int) : List Event :=
  b.dprint 266 ("sendCC took ".toList ++ fmtInt (Int32.ofInt (t1 - t0)).toInt ++ "\n".toList)

/-- `close_serial`. -/
def closeEvents (b : Build) (fd : Int32) (r : Sys) : List Event :=
  [.stdout ("Closing serial port (".toList ++ fmtInt fd.toInt ++ ") ... ".toList), .closed] ++
  if r.ret = 0 then [.stdout "done.\n".toList]
  else [.stdout "failed.\n".toList, .stdout (b.errorText " close(): ".toList r.errno)]

/-- One step of `main`; `none` once it has returned or called `exit`. -/
def mainStep (b : Build) (args : ArgsInfo) (s : State) (r : Sys) : Option (State × List Event) :=
  match s.pc with
  | .call c => some (callStep b args s r c)
  | .encode =>
    some ({ s with pc := .call .openSerial, midiMsg := midiMsg args }, encodeEvents b args)
  | .testRunning =>
    if s.running then some ({ s with pc := .usleep }, [])
    else some ({ s with pc := .closeSerial }, [])
  | .usleep => some ({ s with pc := .testTrigger }, [])
  | .testTrigger =>
    if s.trigger then some ({ s with pc := .clearTrigger }, [])
    else some ({ s with pc := .testRunning }, [])
  | .clearTrigger =>
    some ({ s with pc := if b.debug then .now0 else .write, trigger := false }, [.cleared])
  | .now0 => some ({ s with pc := .write, t0 := r.out }, [])
  | .write =>
    some ({ s with pc := if b.debug then .now1 else .checkRepeats }, [.wrote s.midiMsg r.ret])
  | .now1 => some ({ s with pc := .checkRepeats }, tookEvents b s.t0 r.out)
  | .checkRepeats =>
    if args.repeats.given ≠ 0 then
      if s.i + 1 ≥ args.repeats.arg.toInt then
        some ({ s with pc := .closeSerial, i := s.i + 1 }, [])
      else some ({ s with pc := .testRunning, i := s.i + 1 }, [])
    else some ({ s with pc := .testRunning }, [])
  | .closeSerial => some ({ s with pc := .exited exitSuccess }, closeEvents b s.serialFd r)
  | .exited _ => none

def Pc.exits : Pc → Bool
  | .exited _ => true
  | _ => false

/-- The process has exited or was killed. -/
def State.over (s : State) : Bool := s.pc.exits || s.killedBy.isSome

/-- The handler a signal has, if it is installed yet. SIGTERM never has one. -/
def State.handlerFor (s : State) : Signal → Option Handler
  | .sigrtmin => if s.timerInstalled then some .timer else none
  | .sigint => if s.intInstalled then some .int else none
  | .sigterm => none

/-- One atomic step. `main` is suspended while a handler runs. A signal may
arrive at any time and inside any handler, the masked spans of `init_timer`
included; without a handler it ends the process. -/
def step (b : Build) (args : ArgsInfo) : Runs.Step State Act Event
  | s, .main r => if s.over = false ∧ s.frames = [] then mainStep b args s r else none
  | s, .signal sig =>
    if s.over then none
    else
      match s.handlerFor sig with
      | some h => some ({ s with frames := h :: s.frames }, [])
      | none => some ({ s with killedBy := some sig }, [])
  | s, .handler =>
    if s.over then none
    else
      match s.frames with
      | [] => none
      | .timer :: rest => some (handlerTimer { s with frames := rest })
      | .int :: rest => some (handlerInt { s with frames := rest })

/-! ## What a step can do -/

/-- Where `main` stands behind a call. -/
def Call.next : Call → Pc
  | .stat => .call .sIsChr
  | .sIsChr => .call .checkChannel
  | .checkChannel => .encode
  | .openSerial => .call .tcgetattr
  | .tcgetattr => .call .cfsetispeed
  | .cfsetispeed => .call .cfsetospeed
  | .cfsetospeed => .call .tcsetattr
  | .tcsetattr => .call .sigactionTimer
  | .sigactionTimer => .call .sigactionInt
  | .sigactionInt => .call .sigprocmaskBlock
  | .sigprocmaskBlock => .call .timerCreate
  | .timerCreate => .call .timerSettime
  | .timerSettime => .call .sigprocmaskUnblock
  | .sigprocmaskUnblock => .testRunning

/-- A call leads on to the next one or to `exit(EXIT_FAILURE)`. -/
theorem callStep_next (b : Build) (args : ArgsInfo) (s : State) (r : Sys) (c : Call) :
    (callStep b args s r c).1.pc = c.next ∨
      (callStep b args s r c).1.pc = .exited exitFailure := by
  cases c <;> simp only [callStep, orFail, fail, Call.next]
  case cfsetispeed | cfsetospeed => exact .inl trivial
  all_goals
    split
    · first | exact .inl rfl | exact .inr rfl
    · first | exact .inl rfl | exact .inr rfl

theorem callStep_pc (P : Pc → Prop) (next : ∀ c : Call, P c.next) (gone : P (.exited exitFailure))
    (b : Build) (args : ArgsInfo) (s : State) (r : Sys) (c : Call) :
    P (callStep b args s r c).1.pc := by
  cases callStep_next b args s r c with
  | inl e => rw [e]; exact next c
  | inr e => rw [e]; exact gone

/-- Every step, by the test or assignment it makes. -/
inductive Move (b : Build) (args : ArgsInfo) (s : State) : Act → State → List Event → Prop
  | call (c : Call) (r : Sys) (pc : s.pc = .call c) :
      Move b args s (.main r) (callStep b args s r c).1 (callStep b args s r c).2
  | encode (r : Sys) (pc : s.pc = .encode) :
      Move b args s (.main r) { s with pc := .call .openSerial, midiMsg := midiMsg args }
        (encodeEvents b args)
  | stay (r : Sys) (pc : s.pc = .testRunning) (on : s.running = true) :
      Move b args s (.main r) { s with pc := .usleep } []
  | leave (r : Sys) (pc : s.pc = .testRunning) (off : s.running = false) :
      Move b args s (.main r) { s with pc := .closeSerial } []
  | slept (r : Sys) (pc : s.pc = .usleep) :
      Move b args s (.main r) { s with pc := .testTrigger } []
  | fired (r : Sys) (pc : s.pc = .testTrigger) (set : s.trigger = true) :
      Move b args s (.main r) { s with pc := .clearTrigger } []
  | quiet (r : Sys) (pc : s.pc = .testTrigger) (unset : s.trigger = false) :
      Move b args s (.main r) { s with pc := .testRunning } []
  | clear (r : Sys) (pc : s.pc = .clearTrigger) :
      Move b args s (.main r)
        { s with pc := if b.debug then .now0 else .write, trigger := false } [.cleared]
  | now0 (r : Sys) (pc : s.pc = .now0) :
      Move b args s (.main r) { s with pc := .write, t0 := r.out } []
  | write (r : Sys) (pc : s.pc = .write) :
      Move b args s (.main r) { s with pc := if b.debug then .now1 else .checkRepeats }
        [.wrote s.midiMsg r.ret]
  | now1 (r : Sys) (pc : s.pc = .now1) :
      Move b args s (.main r) { s with pc := .checkRepeats } (tookEvents b s.t0 r.out)
  | uncounted (r : Sys) (pc : s.pc = .checkRepeats) (absent : args.repeats.given = 0) :
      Move b args s (.main r) { s with pc := .testRunning } []
  | counted (r : Sys) (pc : s.pc = .checkRepeats) (given : args.repeats.given ≠ 0)
      (more : s.i + 1 < args.repeats.arg.toInt) :
      Move b args s (.main r) { s with pc := .testRunning, i := s.i + 1 } []
  | break (r : Sys) (pc : s.pc = .checkRepeats) (given : args.repeats.given ≠ 0)
      (reached : args.repeats.arg.toInt ≤ s.i + 1) :
      Move b args s (.main r) { s with pc := .closeSerial, i := s.i + 1 } []
  | close (r : Sys) (pc : s.pc = .closeSerial) :
      Move b args s (.main r) { s with pc := .exited exitSuccess } (closeEvents b s.serialFd r)
  | enter (sig : Signal) (h : Handler) :
      Move b args s (.signal sig) { s with frames := h :: s.frames } []
  | kill (sig : Signal) (bare : s.handlerFor sig = none) :
      Move b args s (.signal sig) { s with killedBy := some sig } []
  | tick (rest : List Handler) (top : s.frames = .timer :: rest) :
      Move b args s .handler { s with frames := rest, trigger := true } [.tick s.trigger]
  | interrupt (rest : List Handler) (top : s.frames = .int :: rest) :
      Move b args s .handler { s with frames := rest, running := false } [.interrupt]

/-- Nothing happens in a process that is over. -/
theorem step_alive {b : Build} {args : ArgsInfo} {s t : State} {a : Act} {out : List Event}
    (h : step b args s a = some (t, out)) : s.over = false := by
  cases a <;> simp only [step] at h <;> split at h <;> simp_all

theorem step_going {b : Build} {args : ArgsInfo} {s t : State} {a : Act} {out : List Event}
    (h : step b args s a = some (t, out)) : s.pc.exits = false := by
  have alive := step_alive h
  simp only [State.over, Bool.or_eq_false_iff] at alive
  exact alive.1

theorem step_move {b : Build} {args : ArgsInfo} {s t : State} {a : Act} {out : List Event}
    (h : step b args s a = some (t, out)) : Move b args s a t out := by
  cases a with
  | main r =>
    simp only [step] at h
    split at h
    · simp only [mainStep] at h
      split at h
      case h_1 c pc =>
        have move := @Move.call b args s c r pc
        rwa [Option.some.inj h] at move
      case h_2 pc => cases h; exact .encode r pc
      case h_3 pc =>
        split at h
        · rename_i on; cases h; exact .stay r pc on
        · rename_i off; cases h; exact .leave r pc (by simpa using off)
      case h_4 pc => cases h; exact .slept r pc
      case h_5 pc =>
        split at h
        · rename_i set; cases h; exact .fired r pc set
        · rename_i unset; cases h; exact .quiet r pc (by simpa using unset)
      case h_6 pc => cases h; exact .clear r pc
      case h_7 pc => cases h; exact .now0 r pc
      case h_8 pc => cases h; exact .write r pc
      case h_9 pc => cases h; exact .now1 r pc
      case h_10 pc =>
        split at h
        · rename_i given
          split at h
          · rename_i reached; cases h; exact .break r pc given reached
          · rename_i more; cases h; exact .counted r pc given (by omega)
        · rename_i absent; cases h; exact .uncounted r pc (not_not.mp absent)
      case h_11 pc => cases h; exact .close r pc
      case h_12 => cases h
    · cases h
  | signal sig =>
    simp only [step] at h
    split at h
    · cases h
    · split at h
      · rename_i hd _; cases h; exact .enter sig hd
      · rename_i bare; cases h; exact .kill sig bare
  | handler =>
    simp only [step] at h
    split at h
    · cases h
    · split at h
      · cases h
      · rename_i rest top; cases h; exact .tick rest top
      · rename_i rest top; cases h; exact .interrupt rest top

end MidiGw.Tapper
