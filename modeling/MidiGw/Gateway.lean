import MidiGw.Runs
import MidiGw.Tapper

/-!
# The gateway's tap routes

`midi-gw.py` with requests handled one after the other: the reference
`tap_proc`, the tappers that were spawned, and the start and stop routes. Which
histories of requests and exits keep every live tapper within reach of a stop,
and which stops are answered truthfully.
-/

namespace MidiGw.Gateway

open C (CStr)
open Runs (Along Always along_iff always_of_along run run_append run_single)
open Tapper (Signal)

/-! ## State -/

/-- The globals of the program, and the processes behind its Popen objects: a
process is known by its position among all that were spawned. -/
structure World where
  serialDev : CStr
  tapProcCmd : CStr
  tapProc : Option Nat
  /-- the command lines of the processes spawned so far -/
  spawned : List (List CStr)
  /-- those that have not ended -/
  live : List Nat
  deriving DecidableEq, Repr

/-- `main` in front of `app.run`. -/
def launch (serialDev tapProcCmd : CStr) : World := ⟨serialDev, tapProcCmd, none, [], []⟩

/-- `Popen(cmd, stdout=PIPE, stderr=PIPE)`, or `none` where it raises: on an
argument with a NUL, and when the system does not give it a process. -/
def popen (w : World) (cmd : List CStr) (forks : Bool) : Option (Nat × World) :=
  if cmd.any (·.contains '\x00') || !forks then none
  else
    some (w.spawned.length,
      { w with spawned := w.spawned ++ [cmd], live := w.live ++ [w.spawned.length] })

/-- The process ends, and with it what it was doing. -/
def World.ended (w : World) (p : Nat) : World := { w with live := w.live.filter (· ≠ p) }

/-- `Popen.send_signal`, which does nothing once the process has ended. A
tapper that SIGINT reaches leaves its loop later, on its own; SIGTERM, for
which it installs no handler, ends it. -/
def sendSignal (w : World) (p : Nat) : Signal → World
  | .sigterm => w.ended p
  | .sigint | .sigrtmin => w

/-! ## Routes -/

/-- The argument vector of a start request. -/
def tapCmd (w : World) (channel message value bpm : CStr) : List CStr :=
  [w.tapProcCmd,
    "-s".toList, w.serialDev,
    "-c".toList, channel,
    "-m".toList, message,
    "-v".toList, value,
    "-t".toList, bpm]

/-- `start_tap_proc`; `none` where Popen raises, before `tap_proc` is assigned. -/
def startTapProc (w : World) (channel message value bpm : CStr) (forks : Bool) : Option World :=
  match popen w (tapCmd w channel message value bpm) forks with
  | none => none
  | some (p, w') => some { w' with tapProc := some p }

/-- `stop_tap_proc`; `none` where `tap_proc` is None and has no `send_signal`. -/
def stopTapProc (w : World) : Option World :=
  match w.tapProc with
  | none => none
  | some p => some { sendSignal (sendSignal w p .sigint) p .sigterm with tapProc := none }

/-- What the client gets: a body and a status, or the error page of a handler
that raised. -/
inductive Reply where
  | answer (body : CStr) (status : Nat)
  | raised
  deriving DecidableEq, Repr

def Reply.ok : Reply := .answer "OK".toList 200

def Reply.notRunning : Reply := .answer "Not running".toList 400

def midiTapStart (w : World) (channel message value bpm : CStr) (forks : Bool) : World × Reply :=
  match startTapProc w channel message value bpm forks with
  | none => (w, .raised)
  | some w' => (w', .ok)

def midiTapStop (w : World) : World × Reply :=
  if w.tapProc = none then (w, .notRunning)
  else
    match stopTapProc w with
    | none => (w, .raised)
    | some w' => (w', .ok)

/-- What happens to the gateway. `forks` is the answer of the system. -/
inductive Event where
  | start (channel message value bpm : CStr) (forks : Bool)
  | stop
  /-- a tapper ends on its own -/
  | exit (p : Nat)
  deriving DecidableEq, Repr

/-- One event, with the reply to a request. -/
def handle : Runs.Step World Event Reply
  | w, .start channel message value bpm forks =>
    let r := midiTapStart w channel message value bpm forks
    some (r.1, [r.2])
  | w, .stop => some ((midiTapStop w).1, [(midiTapStop w).2])
  | w, .exit p => if p ∈ w.live then some (w.ended p, []) else none

/-! ## What a request can do -/

/-- The event is a start request whose Popen yields a process. -/
def Spawns (w : World) : Event → Prop
  | .start channel message value bpm forks =>
    (popen w (tapCmd w channel message value bpm) forks).isSome
  | _ => False

/-- A start either raises and changes nothing, or it adds a fresh process and
makes `tap_proc` refer to that. -/
theorem midiTapStart_cases (w : World) (channel message value bpm : CStr) (forks : Bool) :
    (popen w (tapCmd w channel message value bpm) forks = none ∧
      midiTapStart w channel message value bpm forks = (w, .raised)) ∨
    (Spawns w (.start channel message value bpm forks) ∧
      (midiTapStart w channel message value bpm forks).2 = .ok ∧
      (midiTapStart w channel message value bpm forks).1.tapProc = some w.spawned.length ∧
      (midiTapStart w channel message value bpm forks).1.live = w.live ++ [w.spawned.length]) := by
  simp only [Spawns, midiTapStart, startTapProc, popen]
  split
  · exact .inl ⟨rfl, rfl⟩
  · exact .inr ⟨rfl, rfl, rfl, rfl⟩

theorem midiTapStop_none {w : World} (h : w.tapProc = none) :
    midiTapStop w = (w, .notRunning) := by
  simp [midiTapStop, h]

theorem midiTapStop_some {w : World} {p : Nat} (h : w.tapProc = some p) :
    midiTapStop w = ({ w.ended p with tapProc := none }, .ok) := by
  simp [midiTapStop, stopTapProc, h, sendSignal]

/-- What a stop leaves live: the tappers `tap_proc` does not refer to. -/
theorem midiTapStop_live (w : World) :
    (midiTapStop w).1.tapProc = none ∧
      (midiTapStop w).1.live = w.live.filter (fun q => w.tapProc ≠ some q) := by
  cases h : w.tapProc with
  | none =>
    rw [midiTapStop_none h]
    exact ⟨h, (List.filter_eq_self.mpr (by simp)).symm⟩
  | some p =>
    rw [midiTapStop_some h]
    refine ⟨rfl, ?_⟩
    apply List.filter_congr
    intro q _
    simp only [ne_eq, Option.some.injEq, eq_comm]

/-! ## Orphans -/

/-- No tapper is out of reach: `tap_proc` refers to every live one, so there is
at most one and a stop ends it; and a start that raises changes nothing. -/
structure Tidy (w : World) : Prop where
  known : ∀ p ∈ w.live, w.tapProc = some p
  single : w.live.length ≤ 1
  stops : (midiTapStop w).1.live = []
  raises : ∀ channel message value bpm forks,
    (midiTapStart w channel message value bpm forks).2 = .raised →
      (midiTapStart w channel message value bpm forks).1.tapProc = w.tapProc ∧
      (midiTapStart w channel message value bpm forks).1.live = w.live

/-- Nothing is live, or the one process that `tap_proc` refers to. -/
def Reachable (w : World) : Prop := w.live = [] ∨ ∃ p, w.tapProc = some p ∧ w.live = [p]

theorem Reachable.tidy {w : World} (h : Reachable w) : Tidy w where
  known := by
    rcases h with idle | ⟨p, tap, one⟩
    · simp [idle]
    · simp [one, tap]
  single := by
    rcases h with idle | ⟨p, -, one⟩
    · simp [idle]
    · simp [one]
  stops := by
    rw [(midiTapStop_live w).2]
    rcases h with idle | ⟨p, tap, one⟩
    · simp [idle]
    · simp [one, tap]
  raises := by
    intro channel message value bpm forks raised
    rcases midiTapStart_cases w channel message value bpm forks with ⟨-, same⟩ | ⟨-, ok, -⟩
    · rw [same]; exact ⟨rfl, rfl⟩
    · rw [raised] at ok; cases ok

theorem ended_live (w : World) (p : Nat) : (w.ended p).live = w.live.filter (· ≠ p) := rfl

theorem reachable_step {w w' : World} {e : Event} {out : List Reply} (h : Reachable w)
    (calm : Spawns w e → w.live = []) (hs : handle w e = some (w', out)) : Reachable w' := by
  cases e with
  | start channel message value bpm forks =>
    cases hs
    rcases midiTapStart_cases w channel message value bpm forks with ⟨-, same⟩ |
      ⟨spawns, -, tap, live⟩
    · rw [same]; exact h
    · right
      rw [calm spawns] at live
      exact ⟨_, tap, live⟩
  | stop =>
    cases hs
    exact .inl h.tidy.stops
  | exit p =>
    simp only [handle] at hs
    split at hs
    · cases hs
      rcases h with idle | ⟨q, tap, one⟩
      · exact .inl (by rw [ended_live, idle]; rfl)
      · rename_i mem
        rw [one, List.mem_singleton] at mem
        exact .inl (by rw [ended_live, one, mem]; simp)
    · cases hs

/-- **No orphan tapper.** In a history every live tapper is always within reach
of a stop if and only if every start that spawns one arrives when none is
live. -/
theorem no_orphan_iff (serialDev tapProcCmd : CStr) (events : List Event) :
    Always handle (fun w _ => Tidy w) (launch serialDev tapProcCmd) events ↔
      Along handle (fun w _ e => Spawns w e → w.live = []) (launch serialDev tapProcCmd) []
        events := by
  constructor
  · intro tidy
    apply along_iff.mpr
    intro pre e hp w tr hr spawns
    cases e with
    | start channel message value bpm forks =>
      have after : run handle (launch serialDev tapProcCmd)
          (pre ++ [.start channel message value bpm forks]) = some _ :=
        run_append.mpr ⟨w, tr, _, hr, run_single.mpr rfl, rfl⟩
      have single := (tidy _ hp _ _ after).single
      rcases midiTapStart_cases w channel message value bpm forks with ⟨raised, -⟩ |
        ⟨-, -, -, live⟩
      · simp [Spawns, raised] at spawns
      · rw [live, List.length_append, List.length_singleton] at single
        exact List.length_eq_zero_iff.mp (by omega)
    | stop | exit => cases spawns
  · intro calm pre hp w tr hr
    have all := always_of_along (fun w _ => Reachable w) (.inl rfl) calm
      fun _ _ _ _ _ hi ok hs => reachable_step hi ok hs
    exact (all pre hp w tr hr).tidy

/-- Two start requests in a row. -/
def twoStarts : List Event :=
  [.start "0".toList "44".toList "0".toList "120".toList true,
    .start "1".toList "44".toList "0".toList "120".toList true]

theorem two_tappers : ¬Always handle (fun w _ => Tidy w)
    (launch "/dev/serial0".toList "/usr/local/bin/midi-tapper".toList) twoStarts := by
  intro tidy
  have single := (tidy twoStarts (List.prefix_refl _) _ _ rfl).single
  exact absurd single (by decide)

/-! ## Truthful stops -/

/-- The answer of a stop that arrives now is right. -/
structure Truthful (w : World) : Prop where
  notRunning : (midiTapStop w).2 = .notRunning ↔ w.live = []
  ok : (midiTapStop w).2 = .ok ↔ w.live ≠ [] ∧ (midiTapStop w).1.live = []

/-- `tap_proc` is None and nothing is live, or its process is live and no other. -/
def Synced (w : World) : Prop :=
  (w.tapProc = none ∧ w.live = []) ∨
    ∃ p, w.tapProc = some p ∧ w.live ≠ [] ∧ ∀ q ∈ w.live, q = p

theorem truthful_iff (w : World) : Truthful w ↔ Synced w := by
  have other : Reply.ok ≠ .notRunning := by decide
  cases tap : w.tapProc with
  | none =>
    have stop := midiTapStop_none tap
    constructor
    · intro h
      exact .inl ⟨tap, h.notRunning.mp (by rw [stop])⟩
    · rintro (⟨-, idle⟩ | ⟨p, running, -⟩)
      · constructor
        · simp [stop, idle]
        · simp [stop, idle, other.symm]
      · rw [tap] at running; cases running
  | some p =>
    have stop := midiTapStop_some tap
    have left := (midiTapStop_live w).2
    rw [tap] at left
    constructor
    · intro h
      obtain ⟨running, gone⟩ := h.ok.mp (by rw [stop])
      refine .inr ⟨p, tap, running, fun q mem => ?_⟩
      rw [left, List.filter_eq_nil_iff] at gone
      have := gone q mem
      simp only [ne_eq, Option.some.injEq, decide_not, Bool.not_eq_true', decide_eq_false_iff_not,
        not_not] at this
      exact this.symm
    · rintro (⟨idle, -⟩ | ⟨q, same, running, all⟩)
      · rw [tap] at idle; cases idle
      · cases tap.symm.trans same
        have gone : (midiTapStop w).1.live = [] := by
          rw [left, List.filter_eq_nil_iff]
          intro q mem
          simp [all q mem]
        constructor
        · rw [stop]
          exact ⟨fun e => absurd e other, fun e => absurd e running⟩
        · exact ⟨fun _ => ⟨running, gone⟩, fun _ => by rw [stop]⟩

theorem synced_step {w w' : World} {e : Event} {out : List Reply} (h : Synced w)
    (calm : Spawns w e → w.live = []) (held : ∀ p, e = .exit p → w.tapProc ≠ some p)
    (hs : handle w e = some (w', out)) : Synced w' := by
  cases e with
  | start channel message value bpm forks =>
    cases hs
    rcases midiTapStart_cases w channel message value bpm forks with ⟨-, same⟩ |
      ⟨spawns, -, tap, live⟩
    · rw [same]; exact h
    · right
      rw [calm spawns, List.nil_append] at live
      exact ⟨_, tap, by rw [live]; simp, by rw [live]; simp⟩
  | stop =>
    cases hs
    obtain ⟨idle, live⟩ := midiTapStop_live w
    refine .inl ⟨idle, ?_⟩
    rw [live, List.filter_eq_nil_iff]
    rcases h with ⟨-, empty⟩ | ⟨p, tap, -, all⟩
    · simp [empty]
    · intro q mem
      simp [tap, all q mem]
  | exit p =>
    simp only [handle] at hs
    split at hs
    · rename_i mem
      rcases h with ⟨-, empty⟩ | ⟨q, tap, -, all⟩
      · rw [empty] at mem; cases mem
      · exact absurd (all p mem ▸ tap) (held p rfl)
    · cases hs

/-- **Truthful stops.** In a history every stop is answered truthfully if and
only if each arrives when `tap_proc` and the live tappers agree. They do if
starts spawn only when nothing is live and no tapper that `tap_proc` refers to
ends on its own. -/
theorem stops_truthful_iff (serialDev tapProcCmd : CStr) (events : List Event) :
    (Along handle (fun w _ e => e = .stop → Truthful w) (launch serialDev tapProcCmd) [] events ↔
      Along handle (fun w _ e => e = .stop → Synced w) (launch serialDev tapProcCmd) [] events) ∧
    (Along handle
        (fun w _ e => (Spawns w e → w.live = []) ∧ ∀ p, e = .exit p → w.tapProc ≠ some p)
        (launch serialDev tapProcCmd) [] events →
      Along handle (fun w _ e => e = .stop → Truthful w) (launch serialDev tapProcCmd) [] events) := by
  constructor
  · simp only [truthful_iff]
  · intro calm
    have all := always_of_along (fun w _ => Synced w) (.inl ⟨rfl, rfl⟩) calm
      fun _ _ _ _ _ hi ok hs => synced_step hi ok.1 ok.2 hs
    apply along_iff.mpr
    intro pre e hp w tr hr _
    exact (truthful_iff w).mpr (all pre ((List.prefix_append pre [e]).trans hp) w tr hr)

/-- A tapper is started, ends on its own, and is stopped. -/
def stopAfterExit : List Event :=
  [.start "16".toList "44".toList "0".toList "120".toList true, .exit 0, .stop]

theorem stop_not_truthful :
    ¬Along handle (fun w _ e => e = .stop → Truthful w)
      (launch "/dev/serial0".toList "/usr/local/bin/midi-tapper".toList) [] stopAfterExit := by
  intro truthful
  have stop := along_iff.mp truthful (stopAfterExit.take 2) .stop (List.prefix_refl _) _ _ rfl rfl
  exact absurd (stop.notRunning.mpr rfl) (by decide)

end MidiGw.Gateway
