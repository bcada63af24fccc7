import MidiGw.Pipes
import MidiGw.TapLoop

/-!
# What the tapper prints

The gateway connects the tapper's stdout and stderr to pipes it never reads, so
whatever is printed stays in them. The tapper is put behind two such pipes here,
and what each of its steps prints to them is measured.
-/

namespace MidiGw.Tapper

open Cmdline (ArgsInfo)

/-! ## The tapper behind its pipes -/

/-- The pipes of `Popen`. -/
inductive Pipe where
  | stdout | stderr
  deriving DecidableEq, Repr

/-- What a pipe holds that nobody reads, taken in bytes: the kernel keeps pages,
and may leave the rest of one empty. -/
def pipeCapacity : Nat := 65536

/-- `PIPE_BUF`. -/
def pipeBuf : Nat := 4096

/-- `PATH_MAX`. -/
def pathMax : Nat := 4096

/-- The longest text of `strerror`. -/
def errorLength : Nat := 2048

/-- What the C library and the kernel keep to. -/
structure Build.Limits (b : Build) : Prop where
  file : b.file.length < pathMax
  strerror : ∀ e, (b.strerror e).length ≤ errorLength

/-- The arguments a tapper gets to its loop with; a longer path fails in `stat`. -/
def Accepted (args : ArgsInfo) : Prop := ChannelOk args ∧ args.serial.arg.length < pathMax

/-- `tv_nsec` of a clock reading. -/
def Sys.inSecond (r : Sys) : Bool := decide (0 ≤ r.out ∧ r.out < 1000000000)

/-- What the kernel can answer: a clock reading lies in its second. -/
def answerable (s : State) : Act → Bool
  | .main r =>
    match s.pc with
    | .now0 | .now1 => r.inSecond
    | _ => true
  | _ => true

def Act.inSecond : Act → Bool
  | .main r => r.inSecond
  | _ => true

/-- An answer within its second can be given anywhere. -/
theorem answerable_of {a : Act} (ok : a.inSecond = true) (s : State) : answerable s a = true := by
  cases a with
  | main r =>
    simp only [answerable]
    split
    · exact ok
    · exact ok
    · rfl
  | signal | handler => rfl

def Event.text : Event → Option (Pipe × Nat)
  | .stdout text => some (.stdout, text.length)
  | .stderr text => some (.stderr, text.length)
  | _ => none

/-- The tapper and its pipes. stderr has no buffer: each print to it is one
`write`. A print to stdout counts when it is made, though the C library may
hold it back until the exit. Neither handler is installed with SA_RESTART. -/
def unread (b : Build) (args : ArgsInfo) : Pipes.Program State Act Event Pipe where
  step := Runs.guarded answerable (step b args)
  own := Act.isMain
  breaks a := a == .handler
  text := Event.text
  capacity := pipeCapacity
  atomic := pipeBuf

abbrev Piped := Pipes.State State Act Event Pipe

/-- The tapper behind its command line parser, and its pipes empty. -/
def fresh : Piped := .fresh start

/-- One step of the tapper behind its pipes. -/
abbrev piped (b : Build) (args : ArgsInfo) : Runs.Step Piped Act Event := (unread b args).piped

/-- What a piece of a trace prints. -/
abbrev printed (b : Build) (args : ArgsInfo) (p : Pipe) (tr : List Event) : Nat :=
  (unread b args).total p tr

/-- The two `dprint`s of the encoding. -/
def encodeLength (b : Build) (args : ArgsInfo) : Nat := printed b args .stderr (encodeEvents b args)

/-- The longest line of the `dprint` behind `sendCC`. -/
def Build.tapLength (b : Build) : Nat := if b.debug then (b.place 266).length + 23 else 0

/-! ## Lengths of texts -/

theorem digits_length {n k : Nat} (hk : 0 < k) (small : n < 10 ^ k) :
    (Nat.toDigits 10 n).length ≤ k :=
  (Nat.length_toDigits_le_iff (by decide) hk).mpr small

theorem fmtInt_length_le {n : Int} {k : Nat} (hk : 0 < k) (small : n.natAbs < 10 ^ k) :
    (fmtInt n).length ≤ k + 1 := by
  have digits := digits_length hk small
  unfold fmtInt
  split
  · rw [List.length_cons]; omega
  · omega

theorem fmtInt_length (n : Int32) : (fmtInt n.toInt).length ≤ 11 := by
  have lo := n.le_toInt
  have hi := n.toInt_lt
  exact fmtInt_length_le (k := 10) (by decide) (by omega)

theorem fmtHex_length {w : Nat} (wide : w = 32 ∨ w = 64) (n : Int) :
    (fmtHex (n % 2 ^ w).toNat).length ≤ 16 := by
  have small : (n % 2 ^ w).toNat < 16 ^ 16 := by
    rcases wide with rfl | rfl
    · have := Int.emod_lt_of_pos n (show (0 : Int) < 2 ^ 32 by decide)
      omega
    · have := Int.emod_lt_of_pos n (show (0 : Int) < 2 ^ 64 by decide)
      omega
  unfold fmtHex
  exact (@Nat.length_toDigits_le_iff 16 _ 16 (by decide) (by decide)).mpr small

theorem fmtByte_length (n : UInt8) : (fmtByte n).length ≤ 2 := by
  have top := n.toNat_lt
  have digits (k : Nat) (hk : 0 < k) (small : n.toNat < 16 ^ k) : (fmtHex n.toNat).length ≤ k :=
    (@Nat.length_toDigits_le_iff 16 _ k (by decide) hk).mpr small
  unfold fmtByte
  split
  · rename_i low
    have := digits 1 (by decide) (UInt8.lt_iff_toNat_lt.mp low)
    rw [List.length_cons]
    omega
  · exact digits 2 (by decide) top

theorem bpmToNs_length {w : Nat} (wide : w = 32 ∨ w = 64) (bpm : Int32) :
    (fmtInt (bpmToNs w bpm)).length ≤ 20 := by
  apply fmtInt_length_le (k := 19) (by decide)
  unfold bpmToNs
  split
  · rcases wide with rfl | rfl
    · have lo := @Int.le_bmod (60000000000 / bpm.toInt) (2 ^ 32) (by decide)
      have hi := @Int.bmod_lt (60000000000 / bpm.toInt) (2 ^ 32) (by decide)
      omega
    · have lo := @Int.le_bmod (60000000000 / bpm.toInt) (2 ^ 64) (by decide)
      have hi := @Int.bmod_lt (60000000000 / bpm.toInt) (2 ^ 64) (by decide)
      omega
  · decide

/-- A step prints no more than that, but for the encoding, which prints twice. -/
def lineLength : Nat := 4200

/-- Lines printed to stdout at most before `main` stands there. -/
def Pc.lines : Pc → Nat
  | .call .stat | .call .sIsChr | .call .checkChannel | .encode | .call .openSerial => 0
  | .call .tcgetattr => 1
  | .call .cfsetispeed | .call .cfsetospeed | .call .tcsetattr => 2
  | .call .sigactionTimer | .call .sigactionInt | .call .sigprocmaskBlock
  | .call .timerCreate => 3
  | .exited _ => 5
  | _ => 4

/-- A clock reading less another has ten characters at most. -/
theorem took_length {t0 t1 : Int} (before : 0 ≤ t0 ∧ t0 < 1000000000)
    (behind : 0 ≤ t1 ∧ t1 < 1000000000) : (fmtInt (Int32.ofInt (t1 - t0)).toInt).length ≤ 10 := by
  rw [Int32.toInt_ofInt_of_le (by omega) (by omega)]
  exact fmtInt_length_le (k := 9) (by decide) (by omega)

section
variable {b : Build} {args : ArgsInfo}

@[simp] theorem length_stdout (p : Pipe) (text : C.CStr) :
    (unread b args).length p (.stdout text) = if .stdout = p then text.length else 0 := rfl

@[simp] theorem length_stderr (p : Pipe) (text : C.CStr) :
    (unread b args).length p (.stderr text) = if .stderr = p then text.length else 0 := rfl

@[simp] theorem length_called (p : Pipe) (c : Call) (ok : Bool) :
    (unread b args).length p (.called c ok) = 0 := rfl

@[simp] theorem length_applied (p : Pipe) (fromDevice : Bool) :
    (unread b args).length p (.applied fromDevice) = 0 := rfl

/-- Any other event prints nothing. -/
theorem length_other (p : Pipe) {e : Event} (other : e.text = none) :
    (unread b args).length p e = 0 := by
  simp [Pipes.Program.length, unread, other]

theorem printed_nil (p : Pipe) : printed b args p [] = 0 := rfl

theorem printed_cons (p : Pipe) (e : Event) (es : List Event) :
    printed b args p (e :: es) = (unread b args).length p e + printed b args p es :=
  Pipes.total_cons p e es

theorem printed_append (p : Pipe) (front back : List Event) :
    printed b args p (front ++ back) = printed b args p front + printed b args p back :=
  Pipes.total_append p front back

theorem printed_one (p : Pipe) (e : Event) :
    printed b args p [e] = (unread b args).length p e := by
  rw [printed_cons, printed_nil, Nat.add_zero]

theorem tookEvents_printed {t0 t1 : Int} (before : 0 ≤ t0 ∧ t0 < 1000000000)
    (behind : 0 ≤ t1 ∧ t1 < 1000000000) :
    printed b args .stderr (tookEvents b t0 t1) ≤ b.tapLength := by
  have digits := took_length before behind
  have head : "sendCC took ".toList.length = 12 := rfl
  have tail : "\n".toList.length = 1 := rfl
  unfold tookEvents Build.dprint Build.tapLength
  split
  · rw [printed_one, length_stderr, if_pos rfl]
    simp only [List.length_append, head, tail]
    omega
  · exact Nat.le_refl 0

/-- The longest line of the loop: the clock has just begun a new second. -/
theorem tookEvents_longest (debug : b.debug = true) :
    printed b args .stderr (tookEvents b 999999999 0) = b.tapLength := by
  have digits : (fmtInt (Int32.ofInt (0 - 999999999)).toInt).length = 10 := by decide
  have head : "sendCC took ".toList.length = 12 := rfl
  have tail : "\n".toList.length = 1 := rfl
  unfold tookEvents Build.dprint Build.tapLength
  rw [if_pos debug, if_pos debug, printed_one, length_stderr, if_pos rfl]
  simp only [List.length_append, head, tail, digits]

/-- No text of a call is longer than a line. -/
theorem opened_length (fd : Int32) :
    ("Serial port is open (".toList ++ fmtInt fd.toInt ++ ")\n".toList).length ≤ lineLength := by
  have digits := fmtInt_length fd
  have head : "Serial port is open (".toList.length = 21 := rfl
  have tail : ")\n".toList.length = 2 := rfl
  unfold lineLength
  simp only [List.length_append, head, tail]
  omega

theorem created_length (b : Build) (n : Int) :
    ("timer ID is 0x".toList ++ fmtHex (n % 2 ^ b.longBits).toNat ++ "\n".toList).length ≤
      lineLength := by
  have digits := fmtHex_length b.longWide n
  have head : "timer ID is 0x".toList.length = 14 := rfl
  have tail : "\n".toList.length = 1 := rfl
  unfold lineLength
  simp only [List.length_append, head, tail]
  omega

theorem printed_silent {out : List Event} (silent : ∀ e ∈ out, e.text = none) (p : Pipe) :
    printed b args p out = 0 := by
  induction out with
  | nil => rfl
  | cons e es ih =>
    rw [printed_cons, length_other p (silent e List.mem_cons_self),
      ih fun e' mem => silent e' (List.mem_cons_of_mem e mem)]

variable (b args) in
/-- What a call may print behind some lines to stdout. -/
structure Prints (lines : Nat) (out : State × List Event) : Prop where
  stdout : printed b args .stdout out.2 + lineLength * lines ≤ lineLength * out.1.pc.lines
  stderr : printed b args .stderr out.2 ≤ if out.1.pc.exits then lineLength else 0

theorem Prints.silent {lines : Nat} (next : State) (out : List Event)
    (silent : ∀ e ∈ out, e.text = none) (on : lines ≤ next.pc.lines) :
    Prints b args lines (next, out) := by
  constructor
  · rw [printed_silent silent, Nat.zero_add]
    exact Nat.mul_le_mul_left lineLength on
  · rw [printed_silent silent]
    exact Nat.zero_le _

theorem Prints.line {lines : Nat} (next : State) (c : Call) (ok : Bool) (text : C.CStr)
    (fits : text.length ≤ lineLength) (on : lines + 1 ≤ next.pc.lines) :
    Prints b args lines (next, [.called c ok, .stdout text]) := by
  have more := Nat.mul_le_mul_left lineLength on
  rw [Nat.mul_succ] at more
  constructor <;> dsimp only
  · rw [printed_cons, length_other _ rfl, printed_one, length_stdout, if_pos rfl]
    omega
  · rw [printed_cons, length_other _ rfl, printed_one, length_stdout, if_neg (by decide)]
    exact Nat.zero_le _

end

section
variable {b : Build} (limits : b.Limits)
include limits

theorem place_length (line : Nat) (three : (fmtInt line).length = 3) :
    (b.place line).length ≤ 4108 := by
  have file := limits.file
  have colon : ":".toList.length = 1 := rfl
  have main : ":main(): ".toList.length = 9 := rfl
  unfold pathMax at file
  unfold Build.place
  simp only [List.length_append, colon, main, three]
  omega

theorem errorText_length (what : C.CStr) (brief : what.length ≤ 17) (e : Int32) :
    (b.errorText what e).length ≤ 2083 := by
  have digits := fmtInt_length e
  have text := limits.strerror e
  have head : "Error ".toList.length = 6 := rfl
  have tail : "\n".toList.length = 1 := rfl
  unfold errorLength at text
  unfold Build.errorText
  simp only [List.length_append, head, tail]
  omega

theorem perrorText_length (call : C.CStr) (brief : call.length ≤ 13) (e : Int32) :
    (b.perrorText call e).length ≤ lineLength := by
  have text := limits.strerror e
  have colon : ": ".toList.length = 2 := rfl
  have tail : "\n".toList.length = 1 := rfl
  unfold errorLength at text
  unfold Build.perrorText lineLength
  simp only [List.length_append, colon, tail]
  omega

theorem encodeLength_le (args : ArgsInfo) : encodeLength b args ≤ 2 * lineLength := by
  have place₁ := place_length limits 244 (by decide)
  have place₂ := place_length limits 247 (by decide)
  have status := fmtByte_length (midiMsg args).status
  have number := fmtByte_length (midiMsg args).number
  have value := fmtByte_length (midiMsg args).value
  have interval := bpmToNs_length b.longWide args.tempo.arg
  have tempo := fmtInt_length args.tempo.arg
  have texts : "MIDI message: ".toList.length = 14 ∧ " ".toList.length = 1 ∧
      "\n".toList.length = 1 ∧ "Tempo interval: ".toList.length = 16 ∧
      " ns (".toList.length = 5 ∧ " bpm)\n".toList.length = 6 := ⟨rfl, rfl, rfl, rfl, rfl, rfl⟩
  obtain ⟨message, blank, newline, head, middle, tail⟩ := texts
  unfold encodeLength encodeEvents Build.dprint lineLength
  dsimp only
  split
  · rw [printed_append, printed_one, printed_one, length_stderr, length_stderr, if_pos rfl,
      if_pos rfl]
    simp only [List.length_append, message, blank, newline, head, middle, tail]
    omega
  · exact Nat.zero_le _

/-- A call prints no more to stdout than the lines it moves `main` on by, and to
stderr only where it ends the process. -/
theorem callStep_prints {args : ArgsInfo} (path : args.serial.arg.length < pathMax) (s : State)
    (r : Sys) (c : Call) : Prints b args (Pc.call c).lines (callStep b args s r c) := by
  have failed (what : C.CStr) (brief : what.length ≤ 13) :
      Prints b args (Pc.call c).lines (fail b s c what r) := by
    have most : (Pc.call c).lines ≤ 5 := by cases c <;> decide
    have text := perrorText_length limits what brief r.errno
    refine ⟨?_, ?_⟩
    · rw [fail, printed_cons, length_other _ rfl, printed_one, length_stderr,
        if_neg (by decide), Nat.zero_add]
      exact Nat.mul_le_mul_left lineLength most
    · rw [fail, printed_cons, length_other _ rfl, printed_one, length_stderr, if_pos rfl,
        Nat.zero_add]
      exact text
  have orFailed (what : C.CStr) (brief : what.length ≤ 13) (next : State)
      (on : (Pc.call c).lines ≤ next.pc.lines) :
      Prints b args (Pc.call c).lines (orFail b s c what r next) := by
    unfold orFail
    split
    · exact failed what brief
    · exact .silent next [.called c true] (by simp [Event.text]) on
  have error (what : C.CStr) (brief : what.length ≤ 17) :
      (b.errorText what r.errno).length ≤ lineLength :=
    Nat.le_trans (errorText_length limits what brief r.errno) (by decide)
  cases c <;> simp only [callStep]
  case stat =>
    split
    · exact failed _ (by decide)
    · exact .silent _ _ (by simp [Event.text]) (by simp [Pc.lines])
  case sIsChr =>
    split
    · exact .silent _ _ (by simp [Event.text]) (by simp [Pc.lines])
    · have tail : " is not a character device. Exiting.\n".toList.length = 37 := rfl
      unfold pathMax at path
      refine .line _ _ _ _ ?_ (by simp [Pc.lines])
      unfold lineLength
      rw [List.length_append, tail]
      omega
  case checkChannel =>
    split
    · exact .line _ _ _ _ (by decide) (by simp [Pc.lines])
    · exact .silent _ _ (by simp [Event.text]) (by simp [Pc.lines])
  case openSerial =>
    split
    · exact .line _ _ _ _ (error _ (by decide)) (by simp [Pc.lines])
    · exact .line _ _ _ _ (opened_length (Int32.ofInt r.ret)) (by simp [Pc.lines])
  case tcgetattr =>
    split
    · exact .line _ _ _ _ (error _ (by decide)) (by simp [Pc.lines])
    · exact .silent _ _ (by simp [Event.text]) (by simp [Pc.lines])
  case cfsetispeed | cfsetospeed => exact .silent _ _ (by simp [Event.text]) (by simp [Pc.lines])
  case tcsetattr =>
    split
    · exact .line _ _ _ _ (error _ (by decide)) (by simp [Pc.lines])
    · exact .silent _ _ (by simp [Event.text]) (by simp [Pc.lines])
  case timerCreate =>
    split
    · exact failed _ (by decide)
    · exact .line _ _ _ _ (created_length b r.out) (by simp [Pc.lines])
  case sigactionTimer | sigactionInt | sigprocmaskBlock | timerSettime | sigprocmaskUnblock =>
    exact orFailed _ (by decide) _ (by simp [Pc.lines])

/-- `close_serial` prints to stdout. -/
theorem closeEvents_prints (args : ArgsInfo) (fd : Int32) (r : Sys) :
    printed b args .stdout (closeEvents b fd r) ≤ lineLength ∧
      printed b args .stderr (closeEvents b fd r) = 0 := by
  have digits := fmtInt_length fd
  have text := errorText_length limits " close(): ".toList (by decide) r.errno
  have head : "Closing serial port (".toList.length = 21 := rfl
  have dots : ") ... ".toList.length = 6 := rfl
  have done : "done.\n".toList.length = 6 := rfl
  have failed : "failed.\n".toList.length = 8 := rfl
  unfold closeEvents lineLength
  split
  · simp only [List.cons_append, List.nil_append, printed_cons, printed_nil,
      length_stdout, length_other _ (rfl : Event.closed.text = none), List.length_append, head,
      dots, done, ↓reduceIte, reduceCtorEq]
    exact ⟨by omega, trivial⟩
  · simp only [List.cons_append, List.nil_append, printed_cons, printed_nil,
      length_stdout, length_other _ (rfl : Event.closed.text = none), List.length_append, head,
      dots, failed, ↓reduceIte, reduceCtorEq]
    exact ⟨by omega, trivial⟩

end

end MidiGw.Tapper
