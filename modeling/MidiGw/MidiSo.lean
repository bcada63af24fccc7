import MidiGw.Ends
import MidiGw.Simulation

/-!
# The tapper before it slept

`midi_so.c`, an older tapper: it has no checks, one handler for both signals and
no repeats, shows everything on stdout, and polls `trigger` without a pause. It
and the tapper do the same to the port, the timer and the line, but for the flags
of `open`, the clock of the timer and some of the line's settings.
-/

namespace MidiGw.MidiSo

open Cmdline (ArgsInfo)
open Runs (Shows Simulates hide run run_append run_cons run_hide_pair run_hide_single run_invariant
  run_single)
open Tapper (Build Call Event Handler MidiMsg Pc Signal Sys bpmToNs callStep closeEvents exitSuccess
  fmtByte fmtInt midiMsg)

structure State where
  pc : Pc
  running : Bool
  trigger : Bool
  serialFd : Int32
  midiMsg : MidiMsg
  t0 : Int
  /-- whether `tcgetattr` has filled `tty` -/
  ttyRead : Bool
  /-- whether `handler` is installed for SIGRTMIN, and for SIGINT -/
  timerInstalled : Bool
  intInstalled : Bool
  /-- the signals `handler` is running for, the innermost first -/
  frames : List Signal
  killedBy : Option Signal
  deriving DecidableEq, Repr

/-- `main` behind its command line parser. -/
def start : State where
  pc := .encode
  running := true
  trigger := false
  serialFd := -1
  midiMsg := ⟨0, 0, 0⟩
  t0 := 0
  ttyRead := false
  timerInstalled := false
  intInstalled := false
  frames := []
  killedBy := none

def handler (sig : Signal) (s : State) : State × List Event :=
  if sig = .sigrtmin then ({ s with trigger := true }, [.tick s.trigger])
  else if sig = .sigint then ({ s with running := false }, [.interrupt])
  else (s, [])

/-- The handler of the tapper that does what `handler` does. -/
def handlerOf : Signal → Handler
  | .sigint => .int
  | .sigrtmin | .sigterm => .timer

/-- The same variables in the tapper, which has checked its arguments. -/
def State.tapper (s : State) : Tapper.State where
  pc := s.pc
  running := s.running
  trigger := s.trigger
  serialFd := s.serialFd
  midiMsg := s.midiMsg
  i := 0
  t0 := s.t0
  isChr := true
  ttyRead := s.ttyRead
  timerInstalled := s.timerInstalled
  intInstalled := s.intInstalled
  frames := s.frames.map handlerOf
  killedBy := s.killedBy

/-- What a call of the tapper leaves in its variables. -/
def State.called (s : State) (t : Tapper.State) : State :=
  { s with pc := t.pc, serialFd := t.serialFd, ttyRead := t.ttyRead,
           timerInstalled := t.timerInstalled, intInstalled := t.intInstalled }

/-- One step of `main`. The calls of `init_serial`, `init_sig_handlers` and
`init_timer` are the tapper's; `usleep` and the count of repeats are not there. -/
def mainStep (b : Build) (args : ArgsInfo) (s : State) (r : Sys) : Option (State × List Event) :=
  match s.pc with
  | .encode =>
    let m := midiMsg args
    some ({ s with pc := .call .openSerial, midiMsg := m },
      [.stdout ("MIDI message: ".toList ++ fmtByte m.status ++ " ".toList ++ fmtByte m.number ++
          " ".toList ++ fmtByte m.value ++ "\n".toList),
        .stdout ("Tempo interval: ".toList ++ fmtInt (bpmToNs b.longBits args.tempo.arg) ++
          " ns\n".toList)])
  | .call c => some (s.called (callStep b args s.tapper r c).1, (callStep b args s.tapper r c).2)
  | .testRunning => some ({ s with pc := if s.running then .testTrigger else .closeSerial }, [])
  | .testTrigger => some ({ s with pc := if s.trigger then .clearTrigger else .testRunning }, [])
  | .clearTrigger => some ({ s with pc := .now0, trigger := false }, [.cleared])
  | .now0 => some ({ s with pc := .write, t0 := r.out }, [])
  | .write => some ({ s with pc := .now1 }, [.wrote s.midiMsg r.ret])
  | .now1 =>
    some ({ s with pc := .testRunning },
      [.stdout ("sendCC took ".toList ++ fmtInt (Int32.ofInt (r.out - s.t0)).toInt ++ "\n".toList)])
  | .closeSerial => some ({ s with pc := .exited exitSuccess }, closeEvents b s.serialFd r)
  | .usleep | .checkRepeats | .exited _ => none

def State.over (s : State) : Bool := s.pc.exits || s.killedBy.isSome

def State.handled (s : State) : Signal → Bool
  | .sigrtmin => s.timerInstalled
  | .sigint => s.intInstalled
  | .sigterm => false

def step (b : Build) (args : ArgsInfo) : Runs.Step State Tapper.Act Event
  | s, .main r => if s.over = false ∧ s.frames = [] then mainStep b args s r else none
  | s, .signal sig =>
    if s.over then none
    else if s.handled sig then some ({ s with frames := sig :: s.frames }, [])
    else some ({ s with killedBy := some sig }, [])
  | s, .handler =>
    if s.over then none
    else
      match s.frames with
      | [] => none
      | sig :: rest => some (handler sig { s with frames := rest })

/-! ## What the two show -/

/-- What the port, the timer and the line see; the checks and the texts are left
out. -/
def device : Event → List Event
  | .stdout _ | .stderr _ => []
  | .called .stat _ | .called .sIsChr _ | .called .checkChannel _ => []
  | e => [e]

/-- The exit status, and the signal that has ended the process. -/
def fate (pc : Pc) (killedBy : Option Signal) : Option Int × Option Signal :=
  match pc with
  | .exited status => (some status, killedBy)
  | _ => (none, killedBy)

/-- The same arguments without `--repeats`. -/
def endless (args : ArgsInfo) : ArgsInfo :=
  { args with repeats := { args.repeats with given := 0 } }

/-! ## The calls in front of the loop -/

/-- Not a check, nor the call it rests on. -/
def checked : Pc → Bool
  | .call .stat | .call .sIsChr | .call .checkChannel => false
  | _ => true

theorem checked_next (c : Call) (h : checked (.call c) = true) : checked c.next = true := by
  cases c <;> first | rfl | cases h

/-- What a call changes, and that it reads no more of the state than that. -/
theorem callStep_alike (b : Build) (args args' : ArgsInfo) {s t : Tapper.State} (r : Sys) {c : Call}
    (behind : checked (.call c) = true) (fd : s.serialFd = t.serialFd)
    (read : s.ttyRead = t.ttyRead) (timer : s.timerInstalled = t.timerInstalled)
    (int : s.intInstalled = t.intInstalled) :
    callStep b args t r c =
      ({ t with pc := (callStep b args' s r c).1.pc,
                serialFd := (callStep b args' s r c).1.serialFd,
                ttyRead := (callStep b args' s r c).1.ttyRead,
                timerInstalled := (callStep b args' s r c).1.timerInstalled,
                intInstalled := (callStep b args' s r c).1.intInstalled },
        (callStep b args' s r c).2) := by
  cases t
  cases fd
  cases read
  cases timer
  cases int
  cases c <;> simp only [callStep, Tapper.orFail, Tapper.fail]
  case stat | sIsChr | checkChannel => cases behind
  all_goals first | rfl | (split <;> rfl)

theorem over_iff {s : State} : s.over = false ↔ s.pc.exits = false ∧ s.killedBy = none := by
  simp [State.over]

theorem main_step {b : Build} {args : ArgsInfo} {s : State} {r : Sys} (alive : s.over = false)
    (free : s.frames = []) : step b args s (.main r) = mainStep b args s r :=
  if_pos ⟨alive, free⟩

theorem main_call {b : Build} {args : ArgsInfo} {s : State} {r : Sys} {c : Call}
    (pc : s.pc = .call c) : mainStep b args s r =
      some (s.called (callStep b args s.tapper r c).1, (callStep b args s.tapper r c).2) := by
  simp only [mainStep, pc]

/-! ## The tapper by its older version -/

def signalOf : Handler → Signal
  | .timer => .sigrtmin
  | .int => .sigint

/-- Where the older version stands, which does not sleep and counts no repeats. -/
def pauseless : Pc → Pc
  | .usleep => .testTrigger
  | .checkRepeats => .testRunning
  | pc => pc

def ofTapper (t : Tapper.State) : State where
  pc := pauseless t.pc
  running := t.running
  trigger := t.trigger
  serialFd := t.serialFd
  midiMsg := t.midiMsg
  t0 := t.t0
  ttyRead := t.ttyRead
  timerInstalled := t.timerInstalled
  intInstalled := t.intInstalled
  frames := t.frames.map signalOf
  killedBy := t.killedBy

theorem pauseless_exits (pc : Pc) : (pauseless pc).exits = pc.exits := by
  cases pc <;> rfl

theorem pauseless_fate (pc : Pc) (killedBy : Option Signal) :
    fate (pauseless pc) killedBy = fate pc killedBy := by
  cases pc <;> rfl

theorem ofTapper_over (t : Tapper.State) : (ofTapper t).over = t.over := by
  simp only [State.over, Tapper.State.over, ofTapper, pauseless_exits]

theorem ofTapper_handled (t : Tapper.State) (sig : Signal) :
    (ofTapper t).handled sig = (t.handlerFor sig).isSome := by
  cases sig <;> simp only [State.handled, Tapper.State.handlerFor, ofTapper]
  case sigterm => rfl
  case sigrtmin => cases t.timerInstalled <;> rfl
  case sigint => cases t.intInstalled <;> rfl

@[simp] theorem dprint_unseen (b : Build) (line : Nat) (text : C.CStr) :
    (b.dprint line text).flatMap device = [] := by
  simp only [Build.dprint]
  split <;> rfl

@[simp] theorem encode_unseen (b : Build) (args : ArgsInfo) :
    (Tapper.encodeEvents b args).flatMap device = [] := by
  simp only [Tapper.encodeEvents, List.flatMap_append, dprint_unseen, List.append_nil]

@[simp] theorem took_unseen (b : Build) (t0 t1 : Int) :
    (Tapper.tookEvents b t0 t1).flatMap device = [] :=
  dprint_unseen b _ _

theorem pauseless_call (b : Build) (args : ArgsInfo) (s : Tapper.State) (r : Sys) (c : Call) :
    pauseless (callStep b args s r c).1.pc = (callStep b args s r c).1.pc :=
  Tapper.callStep_pc (fun pc => pauseless pc = pc) (by rintro ⟨⟩ <;> rfl) rfl b args s r c

theorem ofTapper_called (t u : Tapper.State) (stays : pauseless u.pc = u.pc) :
    (ofTapper t).called u =
      ofTapper { t with pc := u.pc, serialFd := u.serialFd, ttyRead := u.ttyRead,
                        timerInstalled := u.timerInstalled, intInstalled := u.intInstalled } := by
  simp only [ofTapper, State.called, stays]

/-- A step of the tapper's `main` is at most two of the older one's, which takes
the time in front of a message and behind it even without DEBUG. -/
theorem main_followed (b : Build) (args : ArgsInfo) {t u : Tapper.State} {r : Sys}
    {out : List Event} (behind : checked t.pc = true)
    (hs : Tapper.step b (endless args) t (.main r) = some (u, out)) :
    ∃ acts, run (hide device (step b args)) (ofTapper t) acts =
      some (ofTapper u, out.flatMap device) := by
  have alive := Tapper.step_alive hs
  have free := Tapper.main_unframed hs
  have killed : t.killedBy = none := by
    simp only [Tapper.State.over, Bool.or_eq_false_iff] at alive
    simpa using alive.2
  have unframed : (ofTapper t).frames = [] := by simp [ofTapper, free]
  have steps (r : Sys) : step b args (ofTapper t) (.main r) = mainStep b args (ofTapper t) r :=
    main_step (by rw [ofTapper_over, alive]) unframed
  have one {v : State} {seen : List Event} (h : mainStep b args (ofTapper t) r = some (v, seen))
      (same : seen.flatMap device = out.flatMap device) :
      run (hide device (step b args)) (ofTapper t) [.main r] = some (v, out.flatMap device) :=
    run_hide_single ((steps r).trans h) same
  cases Tapper.step_move hs with
  | call c _ pc =>
    have front : checked (.call c) = true := pc ▸ behind
    have here : (ofTapper t).pc = .call c := by simp only [ofTapper, pc, pauseless]
    have stays := pauseless_call b args (ofTapper t).tapper r c
    rw [callStep_alike b (endless args) args (s := (ofTapper t).tapper) (t := t) r front rfl rfl
      rfl rfl, ← ofTapper_called t _ stays]
    exact ⟨[.main r], run_hide_single ((steps r).trans (main_call here)) rfl⟩
  | encode _ pc =>
    exact ⟨[.main r], one (by simp only [mainStep, ofTapper, pc, pauseless]; rfl)
      (by rw [encode_unseen]; rfl)⟩
  | stay _ pc on =>
    exact ⟨[.main r], one (by simp only [mainStep, ofTapper, pc, pauseless, on, if_true]) rfl⟩
  | leave _ pc off =>
    exact ⟨[.main r], one (by simp only [mainStep, ofTapper, pc, pauseless, off]; rfl) rfl⟩
  | slept _ pc => exact ⟨[], by simp only [run, ofTapper, pc, pauseless]; rfl⟩
  | fired _ pc set =>
    exact ⟨[.main r], one (by simp only [mainStep, ofTapper, pc, pauseless, set, if_true]) rfl⟩
  | quiet _ pc unset =>
    exact ⟨[.main r], one (by simp only [mainStep, ofTapper, pc, pauseless, unset]; rfl) rfl⟩
  | clear _ pc =>
    have first : mainStep b args (ofTapper t) r =
        some ({ ofTapper t with pc := .now0, trigger := false }, [.cleared]) := by
      simp only [mainStep, ofTapper, pc, pauseless]
    cases debug : b.debug with
    | true => exact ⟨[.main r], one first rfl⟩
    | false =>
      have second : step b args { ofTapper t with pc := .now0, trigger := false }
          (.main ⟨0, 0, t.t0⟩) = some ({ ofTapper t with pc := .write, trigger := false }, []) :=
        main_step (over_iff.mpr ⟨rfl, killed⟩) unframed
      exact ⟨[.main r, .main ⟨0, 0, t.t0⟩], run_hide_pair ((steps r).trans first) second rfl⟩
  | now0 _ pc => exact ⟨[.main r], one (by simp only [mainStep, ofTapper, pc, pauseless]) rfl⟩
  | write _ pc =>
    have first : mainStep b args (ofTapper t) r =
        some ({ ofTapper t with pc := .now1 }, [.wrote t.midiMsg r.ret]) := by
      simp only [mainStep, ofTapper, pc, pauseless]
    cases debug : b.debug with
    | true => exact ⟨[.main r], one first rfl⟩
    | false =>
      have second := @main_step b args { ofTapper t with pc := .now1 } r
        (over_iff.mpr ⟨rfl, killed⟩) unframed
      exact ⟨[.main r, .main r], run_hide_pair ((steps r).trans first) second rfl⟩
  | now1 _ pc =>
    exact ⟨[.main r], one (by simp only [mainStep, ofTapper, pc, pauseless]; rfl)
      (by rw [took_unseen]; rfl)⟩
  | uncounted _ pc => exact ⟨[], by simp only [run, ofTapper, pc, pauseless]; rfl⟩
  | counted _ _ given => exact absurd rfl given
  | «break» _ _ given => exact absurd rfl given
  | close _ pc =>
    exact ⟨[.main r], one (by simp only [mainStep, ofTapper, pc, pauseless]) rfl⟩

/-- `handler` is installed for the signal whose handler the tapper has installed. -/
theorem handler_installed {t : Tapper.State} {sig : Signal} {h : Handler}
    (installed : t.handlerFor sig = some h) : signalOf h = sig := by
  cases sig <;> simp only [Tapper.State.handlerFor] at installed
  case sigterm => cases installed
  all_goals
    split at installed <;> cases installed
    rfl

theorem tapper_checked {b : Build} {args : ArgsInfo} {t u : Tapper.State} {a : Tapper.Act}
    {out : List Event} (behind : checked t.pc = true)
    (hs : Tapper.step b args t a = some (u, out)) : checked u.pc = true := by
  cases Tapper.step_move hs with
  | call c r pc =>
    cases Tapper.callStep_next b args t r c with
    | inl on => rw [on]; exact checked_next c (pc ▸ behind)
    | inr gone => rw [gone]; rfl
  | enter | kill | tick | interrupt => exact behind
  | clear | write => cases debug : b.debug <;> rfl
  | _ => rfl

/-- What the tapper does behind its checks its older version does. -/
theorem tapper_simulated (b : Build) (args : ArgsInfo) :
    Simulates (Tapper.step b (endless args)) (hide device (step b args))
      (fun t => checked t.pc = true) ofTapper device where
  keep _ _ _ _ behind hs := tapper_checked behind hs
  follow t a u out behind hs := by
    have alive : (ofTapper t).over = false := (ofTapper_over t).trans (Tapper.step_alive hs)
    cases a with
    | main r => exact main_followed b args behind hs
    | signal sig =>
      have handled := ofTapper_handled t sig
      refine ⟨[.signal sig], run_hide_single ?_ rfl⟩
      simp only [Tapper.step, Tapper.step_alive hs] at hs
      cases installed : t.handlerFor sig with
      | some h =>
        rw [installed] at hs handled
        cases hs
        simp only [step, alive, handled]
        simp [ofTapper, handler_installed installed]
      | none =>
        rw [installed] at hs handled
        cases hs
        simp only [step, alive, handled]
        rfl
    | handler =>
      refine ⟨[.handler], run_hide_single ?_ rfl⟩
      simp only [step, alive]
      cases Tapper.step_move hs with
      | tick rest top => simp only [ofTapper, top]; rfl
      | interrupt rest top => simp only [ofTapper, top]; rfl

/-! ## The older version by the tapper -/

/-- Where the tapper stands, which takes the times with DEBUG only. -/
def timed (b : Build) : Pc → Pc
  | .now0 => if b.debug then .now0 else .write
  | .now1 => if b.debug then .now1 else .checkRepeats
  | pc => pc

def asTapper (b : Build) (s : State) : Tapper.State :=
  { s.tapper with pc := timed b s.pc, t0 := if b.debug then s.t0 else 0 }

theorem timed_exits (b : Build) (pc : Pc) : (timed b pc).exits = pc.exits := by
  cases debug : b.debug <;> cases pc <;> simp [timed, debug, Pc.exits]

theorem timed_fate (b : Build) (pc : Pc) (killedBy : Option Signal) :
    fate (timed b pc) killedBy = fate pc killedBy := by
  cases debug : b.debug <;> cases pc <;> simp [timed, debug, fate]

theorem asTapper_over (b : Build) (s : State) : (asTapper b s).over = s.over := by
  simp only [State.over, Tapper.State.over, asTapper, State.tapper, timed_exits]

theorem timed_call (b : Build) (args : ArgsInfo) (s : Tapper.State) (r : Sys) (c : Call) :
    timed b (callStep b args s r c).1.pc = (callStep b args s r c).1.pc :=
  Tapper.callStep_pc (fun pc => timed b pc = pc) (by rintro ⟨⟩ <;> rfl) rfl b args s r c

theorem asTapper_called (b : Build) (s : State) (t : Tapper.State) (stays : timed b t.pc = t.pc) :
    asTapper b (s.called t) =
      { asTapper b s with pc := t.pc, serialFd := t.serialFd, ttyRead := t.ttyRead,
                          timerInstalled := t.timerInstalled, intInstalled := t.intInstalled } := by
  simp only [asTapper, State.tapper, State.called, stays]

/-- What may move may be taken as a step of the tapper's `main`. -/
theorem step_of_move {b : Build} {args : ArgsInfo} {t u : Tapper.State} {r : Sys} {out : List Event}
    (lives : t.killedBy = none) (free : t.frames = []) (h : Tapper.Move b args t (.main r) u out) :
    Tapper.step b args t (.main r) = some (u, out) := by
  have go (going : t.pc.exits = false) (h : Tapper.mainStep b args t r = some (u, out)) :
      Tapper.step b args t (.main r) = some (u, out) :=
    (if_pos ⟨by simp [Tapper.State.over, going, lives], free⟩).trans h
  cases h with
  | stay _ pc on => exact go (by rw [pc]; rfl) (by simp only [Tapper.mainStep, pc, on, if_true])
  | leave _ pc off =>
    exact go (by rw [pc]; rfl) (by simp only [Tapper.mainStep, pc, off]; rfl)
  | fired _ pc set => exact go (by rw [pc]; rfl) (by simp only [Tapper.mainStep, pc, set, if_true])
  | quiet _ pc unset =>
    exact go (by rw [pc]; rfl) (by simp only [Tapper.mainStep, pc, unset]; rfl)
  | uncounted _ pc absent =>
    exact go (by rw [pc]; rfl) (by simp [Tapper.mainStep, pc, absent])
  | counted _ pc given more =>
    exact go (by rw [pc]; rfl) (by simp [Tapper.mainStep, pc, given, not_le.mpr more])
  | «break» _ pc given reached =>
    exact go (by rw [pc]; rfl) (by simp [Tapper.mainStep, pc, given, reached])
  | call _ _ pc | encode _ pc | slept _ pc | clear _ pc | now0 _ pc | write _ pc | now1 _ pc
  | close _ pc => exact go (by rw [pc]; rfl) (by simp only [Tapper.mainStep, pc])

/-- A step of the older `main` is at most two of the tapper's, which sleeps in
front of the test of `trigger` and counts behind a message. -/
theorem main_led (b : Build) (args : ArgsInfo) {s u : State} {r : Sys} {out : List Event}
    (behind : checked s.pc = true) (hs : step b args s (.main r) = some (u, out)) :
    ∃ acts, run (hide device (Tapper.step b (endless args))) (asTapper b s) acts =
      some (asTapper b u, out.flatMap device) := by
  obtain ⟨⟨alive, free⟩, hs⟩ :
      (s.over = false ∧ s.frames = []) ∧ mainStep b args s r = some (u, out) := by
    simp only [step] at hs
    split at hs
    · rename_i go; exact ⟨go, hs⟩
    · cases hs
  have killed := (over_iff.mp alive).2
  have unframed : s.frames.map handlerOf = [] := by simp [free]
  have one {v : Tapper.State} {seen : List Event}
      (h : Tapper.Move b (endless args) (asTapper b s) (.main r) v seen)
      (same : seen.flatMap device = out.flatMap device) :
      run (hide device (Tapper.step b (endless args))) (asTapper b s) [.main r] =
        some (v, out.flatMap device) :=
    run_hide_single (step_of_move killed unframed h) same
  have two {v w : Tapper.State} {seen rest : List Event}
      (h : Tapper.Move b (endless args) (asTapper b s) (.main r) v seen)
      (h' : Tapper.Move b (endless args) v (.main r) w rest) (lives : v.killedBy = s.killedBy)
      (frames : v.frames = s.frames.map handlerOf)
      (same : (seen ++ rest).flatMap device = out.flatMap device) :
      run (hide device (Tapper.step b (endless args))) (asTapper b s) [.main r, .main r] =
        some (w, out.flatMap device) :=
    run_hide_pair (step_of_move killed unframed h)
      (step_of_move (lives.trans killed) (frames.trans unframed) h') same
  simp only [mainStep] at hs
  split at hs
  case h_1 pc =>
    cases hs
    exact ⟨[.main r], one (.encode r (congrArg (timed b) pc)) (encode_unseen b _)⟩
  case h_2 c pc =>
    have front : checked (.call c) = true := pc ▸ behind
    have standing : (asTapper b s).pc = .call c := congrArg (timed b) pc
    have move : Tapper.Move b (endless args) (asTapper b s) (.main r) _ _ := .call c r standing
    rw [callStep_alike b (endless args) args (s := s.tapper) (t := asTapper b s) r front rfl rfl
      rfl rfl, ← asTapper_called b s _ (timed_call b args s.tapper r c)] at move
    cases hs
    exact ⟨[.main r], one move rfl⟩
  case h_3 pc =>
    have standing : (asTapper b s).pc = .testRunning := congrArg (timed b) pc
    by_cases on : s.running = true
    · rw [if_pos on] at hs
      cases hs
      exact ⟨[.main r, .main r], two (.stay r standing on) (.slept r rfl) rfl rfl rfl⟩
    · rw [if_neg on] at hs
      cases hs
      exact ⟨[.main r], one (.leave r standing (eq_false_of_ne_true on)) rfl⟩
  case h_4 pc =>
    have standing : (asTapper b s).pc = .testTrigger := congrArg (timed b) pc
    by_cases set : s.trigger = true
    · rw [if_pos set] at hs
      cases hs
      exact ⟨[.main r], one (.fired r standing set) rfl⟩
    · rw [if_neg set] at hs
      cases hs
      exact ⟨[.main r], one (.quiet r standing (eq_false_of_ne_true set)) rfl⟩
  case h_5 pc =>
    cases hs
    exact ⟨[.main r], one (.clear r (congrArg (timed b) pc)) rfl⟩
  case h_6 pc =>
    cases hs
    cases debug : b.debug with
    | true =>
      have standing : (asTapper b s).pc = .now0 := by simp [asTapper, timed, pc, debug]
      have lands : asTapper b { s with pc := .write, t0 := r.out } =
          { asTapper b s with pc := .write, t0 := r.out } := by
        simp [asTapper, State.tapper, timed, debug]
      rw [lands]
      exact ⟨[.main r], one (.now0 r standing) rfl⟩
    | false =>
      refine ⟨[], ?_⟩
      simp [run, asTapper, State.tapper, timed, pc, debug]
  case h_7 pc =>
    cases hs
    exact ⟨[.main r], one (.write r (congrArg (timed b) pc)) rfl⟩
  case h_8 pc =>
    cases hs
    cases debug : b.debug with
    | true =>
      have standing : (asTapper b s).pc = .now1 := by simp [asTapper, timed, pc, debug]
      exact ⟨[.main r, .main r], two (.now1 r standing) (.uncounted r rfl rfl) rfl rfl
        (by rw [List.append_nil, took_unseen]; rfl)⟩
    | false =>
      have standing : (asTapper b s).pc = .checkRepeats := by simp [asTapper, timed, pc, debug]
      exact ⟨[.main r], one (.uncounted r standing rfl) rfl⟩
  case h_9 pc =>
    cases hs
    exact ⟨[.main r], one (.close r (congrArg (timed b) pc)) rfl⟩
  all_goals cases hs

theorem asTapper_handler (b : Build) (s : State) (sig : Signal) :
    (asTapper b s).handlerFor sig = if s.handled sig then some (handlerOf sig) else none := by
  cases sig <;> rfl

theorem main_checked {b : Build} {args : ArgsInfo} {s u : State} {r : Sys} {out : List Event}
    (behind : checked s.pc = true) (hs : mainStep b args s r = some (u, out)) :
    checked u.pc = true ∧ u.frames = s.frames := by
  simp only [mainStep] at hs
  split at hs
  case h_2 c pc =>
    cases hs
    refine ⟨?_, rfl⟩
    change checked (callStep b args s.tapper r c).1.pc = true
    cases Tapper.callStep_next b args s.tapper r c with
    | inl on => rw [on]; exact checked_next c (pc ▸ behind)
    | inr gone => rw [gone]; rfl
  case h_3 => cases hs; exact ⟨by split <;> rfl, rfl⟩
  case h_4 => cases hs; exact ⟨by split <;> rfl, rfl⟩
  case h_10 | h_11 | h_12 => cases hs
  all_goals cases hs; exact ⟨rfl, rfl⟩

/-- The older version makes no checks, and `handler` only runs where it was installed. -/
theorem older_checked {b : Build} {args : ArgsInfo} {s u : State} {a : Tapper.Act}
    {out : List Event} (behind : checked s.pc = true ∧ .sigterm ∉ s.frames)
    (hs : step b args s a = some (u, out)) : checked u.pc = true ∧ .sigterm ∉ u.frames := by
  cases a with
  | main r =>
    simp only [step] at hs
    split at hs
    · obtain ⟨pc, frames⟩ := main_checked behind.1 hs
      exact ⟨pc, frames ▸ behind.2⟩
    · cases hs
  | signal sig =>
    simp only [step] at hs
    split at hs
    · cases hs
    · split at hs
      · rename_i handled
        cases hs
        refine ⟨behind.1, fun mem => ?_⟩
        cases mem with
        | head => cases handled
        | tail _ mem => exact behind.2 mem
      · cases hs
        exact behind
  | handler =>
    simp only [step] at hs
    split at hs
    · cases hs
    · split at hs
      · cases hs
      · rename_i sig rest top
        have free : .sigterm ∉ rest := fun mem => behind.2 (top ▸ List.mem_cons_of_mem sig mem)
        cases sig <;> cases hs <;> exact ⟨behind.1, free⟩

/-- What the older version does the tapper does behind its checks. -/
theorem older_simulated (b : Build) (args : ArgsInfo) :
    Simulates (step b args) (hide device (Tapper.step b (endless args)))
      (fun s => checked s.pc = true ∧ .sigterm ∉ s.frames) (asTapper b) device where
  keep _ _ _ _ behind hs := older_checked behind hs
  follow s a u out behind hs := by
    cases a with
    | main r => exact main_led b args behind.1 hs
    | signal sig =>
      refine ⟨[.signal sig], run_hide_single ?_ rfl⟩
      simp only [step] at hs
      split at hs
      · cases hs
      · rename_i alive
        simp only [Tapper.step, asTapper_over, alive, asTapper_handler]
        split at hs
        · rename_i handled
          cases hs
          simp only [handled]
          rfl
        · rename_i bare
          cases hs
          simp only [bare]
          rfl
    | handler =>
      refine ⟨[.handler], run_hide_single ?_ rfl⟩
      simp only [step] at hs
      split at hs
      · cases hs
      · rename_i alive
        simp only [Tapper.step, asTapper_over, alive]
        split at hs
        · cases hs
        · rename_i sig rest top
          have frames : (asTapper b s).frames = handlerOf sig :: rest.map handlerOf := by
            simp [asTapper, State.tapper, top]
          simp only [frames]
          cases sig with
          | sigterm => exact absurd (top ▸ List.mem_cons_self) behind.2
          | sigrtmin => cases hs; rfl
          | sigint => cases hs; rfl

/-! ## Two programs, one tapping -/

/-- The tapper behind its checks. -/
def behindChecks : Tapper.State := { Tapper.start with pc := .encode, isChr := true }

theorem ofTapper_behindChecks : ofTapper behindChecks = start := rfl

theorem asTapper_start (b : Build) : asTapper b start = behindChecks := by
  simp [asTapper, behindChecks, start, State.tapper, timed, Tapper.start]

/-- The tapper in front of a check, or over. -/
inductive InFront : Tapper.State → Prop
  | gone {s : Tapper.State} (done : s.over = true) : InFront s
  | stat : InFront Tapper.start
  | sIsChr (isChr : Bool) : InFront { Tapper.start with pc := .call .sIsChr, isChr := isChr }
  | checkChannel : InFront { Tapper.start with pc := .call .checkChannel, isChr := true }

theorem inFront_main {b : Build} {args : ArgsInfo} {s t : Tapper.State} {c : Call} {x : Bool}
    {r : Sys} {out : List Event}
    (here : s = { Tapper.start with pc := .call c, isChr := x })
    (hs : Tapper.step b args s (.main r) = some (t, out)) :
    (t, out) = callStep b args s r c := by
  subst here
  exact (Option.some.inj hs).symm

/-- No signal has a handler yet. -/
theorem inFront_other {b : Build} {args : ArgsInfo} {s t : Tapper.State} {c : Call} {x : Bool}
    {a : Tapper.Act} {out : List Event}
    (here : s = { Tapper.start with pc := .call c, isChr := x }) (other : ∀ r, a ≠ .main r)
    (hs : Tapper.step b args s a = some (t, out)) : t.over = true ∧ out = [] := by
  subst here
  cases a with
  | main r => exact absurd rfl (other r)
  | signal sig => cases sig <;> cases hs <;> exact ⟨rfl, rfl⟩
  | handler => cases hs

/-- A check that passes leads to the next one, the last one to the message. -/
theorem inFront_step {b : Build} {args : ArgsInfo} {s t : Tapper.State} {a : Tapper.Act}
    {out : List Event} (front : InFront s) (hs : Tapper.step b args s a = some (t, out)) :
    out.flatMap device = [] ∧ ((InFront t ∧ .called .checkChannel true ∉ out) ∨
      (0 ≤ args.channel.arg ∧ args.channel.arg ≤ 15) ∧ t = behindChecks) := by
  have quiet {c : Call} {x : Bool} (here : s = { Tapper.start with pc := .call c, isChr := x })
      (other : ∀ r, a ≠ .main r) :
      out.flatMap device = [] ∧ ((InFront t ∧ .called .checkChannel true ∉ out) ∨
        (0 ≤ args.channel.arg ∧ args.channel.arg ≤ 15) ∧ t = behindChecks) := by
    obtain ⟨done, rfl⟩ := inFront_other here other hs
    exact ⟨rfl, .inl ⟨.gone done, List.not_mem_nil⟩⟩
  cases a with
  | signal | handler =>
    cases front with
    | gone done => exact absurd (Tapper.step_alive hs) (by simp [done])
    | stat => exact quiet (c := .stat) (x := false) rfl (by simp)
    | sIsChr isChr => exact quiet rfl (by simp)
    | checkChannel => exact quiet rfl (by simp)
  | main r =>
    cases front with
    | gone done => exact absurd (Tapper.step_alive hs) (by simp [done])
    | stat =>
      have next := inFront_main (c := .stat) (x := false) rfl hs
      simp only [callStep, Tapper.fail] at next
      split at next
      · cases next; exact ⟨rfl, .inl ⟨.gone rfl, by simp⟩⟩
      · cases next; exact ⟨rfl, .inl ⟨.sIsChr _, by simp⟩⟩
    | sIsChr isChr =>
      have next := inFront_main (c := .sIsChr) rfl hs
      simp only [callStep] at next
      split at next
      · rename_i is; cases is; cases next; exact ⟨rfl, .inl ⟨.checkChannel, by simp⟩⟩
      · cases next; exact ⟨rfl, .inl ⟨.gone rfl, by simp⟩⟩
    | checkChannel =>
      have next := inFront_main (c := .checkChannel) rfl hs
      simp only [callStep] at next
      split at next
      · cases next; exact ⟨rfl, .inl ⟨.gone rfl, by simp⟩⟩
      · rename_i inside
        cases next
        simp only [not_or, Int32.not_lt] at inside
        exact ⟨rfl, .inr ⟨inside, rfl⟩⟩

/-- A run of the tapper that has passed the last check goes on behind the checks. -/
theorem passed {b : Build} {args : ArgsInfo} {acts : List Tapper.Act} {s : Tapper.State}
    {tr : List Event} (h : run (Tapper.step b args) Tapper.start acts = some (s, tr))
    (passes : .called .checkChannel true ∈ tr) :
    (0 ≤ args.channel.arg ∧ args.channel.arg ≤ 15) ∧
      ∃ later tr', run (Tapper.step b args) behindChecks later = some (s, tr') ∧
        tr'.flatMap device = tr.flatMap device := by
  have inv := run_invariant (fun s tr =>
      (InFront s ∧ .called .checkChannel true ∉ tr ∧ tr.flatMap device = []) ∨
      (0 ≤ args.channel.arg ∧ args.channel.arg ≤ 15) ∧
        ∃ later tr', run (Tapper.step b args) behindChecks later = some (s, tr') ∧
          tr'.flatMap device = tr.flatMap device)
    (.inl ⟨.stat, List.not_mem_nil, rfl⟩) h fun s seen a t out inv hs => by
      obtain ⟨front, absent, unseen⟩ | ⟨range, later, tr', hr, same⟩ := inv
      · obtain ⟨silent, ⟨next, still⟩ | ⟨range, rfl⟩⟩ := inFront_step front hs
        · exact .inl ⟨next, by simp [absent, still], by simp [unseen, silent]⟩
        · exact .inr ⟨range, [], [], rfl, by simp [unseen, silent]⟩
      · exact .inr ⟨range, later ++ [a], tr' ++ out,
          run_append.mpr ⟨s, tr', out, hr, run_single.mpr hs, rfl⟩, by simp [same]⟩
  obtain ⟨-, absent, -⟩ | behind := inv
  · exact absurd passes absent
  · exact behind

/-- Arguments in range pass the checks, if the file is a character device. -/
theorem passes_checks (b : Build) (args : ArgsInfo)
    (range : 0 ≤ args.channel.arg ∧ args.channel.arg ≤ 15) :
    run (Tapper.step b args) Tapper.start
        [.main ⟨0, 0, 1⟩, .main ⟨0, 0, 0⟩, .main ⟨0, 0, 0⟩] =
      some (behindChecks,
        [.called .stat true, .called .sIsChr true, .called .checkChannel true]) := by
  have inside : ¬(args.channel.arg < 0 ∨ args.channel.arg > 15) := by
    simpa only [not_or, Int32.not_lt] using range
  have last : Tapper.step b args
      { Tapper.start with pc := .call .checkChannel, isChr := true } (.main ⟨0, 0, 0⟩) =
        some (behindChecks, [.called .checkChannel true]) :=
    congrArg some (if_neg inside)
  exact run_cons.mpr ⟨_, _, _, rfl, run_cons.mpr ⟨_, _, _, rfl, run_single.mpr last, rfl⟩, rfl⟩

/-- **Two programs, one tapping.** Behind the tapper's checks, and without
`--repeats`, the tapper and its older version show the same to the port, the
timer and the line, and end alike: whatever the one can do, under whatever
answers and signals, the other can do as well. The checks only keep a channel
out that is none. -/
theorem same_tapping (b : Build) (args : ArgsInfo) (o : List Event)
    (e : Option Int × Option Signal) :
    (∃ acts s tr, run (Tapper.step b (endless args)) Tapper.start acts = some (s, tr) ∧
      .called .checkChannel true ∈ tr ∧ tr.flatMap device = o ∧ fate s.pc s.killedBy = e) ↔
    (0 ≤ args.channel.arg ∧ args.channel.arg ≤ 15) ∧
      Shows (step b args) device (fun s => fate s.pc s.killedBy) start o e := by
  constructor
  · rintro ⟨acts, s, tr, h, passes, rfl, rfl⟩
    obtain ⟨range, later, tr', behind, same⟩ := passed h passes
    refine ⟨range, ?_⟩
    rw [← ofTapper_behindChecks]
    exact (tapper_simulated b args).shows (fun t => pauseless_fate t.pc t.killedBy) rfl
      ⟨later, s, tr', behind, same, rfl⟩
  · rintro ⟨range, older⟩
    have behind : Shows (Tapper.step b (endless args)) device (fun t => fate t.pc t.killedBy)
        (asTapper b start) o e :=
      (older_simulated b args).shows (fun s => timed_fate b s.pc s.killedBy)
        ⟨rfl, List.not_mem_nil⟩ older
    rw [asTapper_start] at behind
    obtain ⟨later, s, tr, hr, rfl, rfl⟩ := behind
    have front := passes_checks b (endless args) range
    exact ⟨_, s, _, run_append.mpr ⟨_, _, _, front, hr, rfl⟩, by simp, rfl, rfl⟩

end MidiGw.MidiSo
