import MidiGw.Lineage
import MidiGw.PyGetopt
import MidiGw.PyInt

/-!
# Starting the gateway

`main` of `midi-gw.py` in front of `app.run`: its options, and what
`check_deps` asks of the serial device and the tapper program. What becomes of
every command line, and which device and program the tappers are then given.
-/

namespace MidiGw.Startup

open C (CStr)
open Gateway (World launch)
open PyGetopt (Named Returns getopt getopt_returns)
open PyInt (pyInt)
open Runs (run)
open Spawned (Process)

/-! ## The program -/

/-- What `main` makes of its options. -/
structure Settings where
  bindIp : CStr
  /-- the text of the option; without one the port is the integer 5000 -/
  bindPort : Option CStr
  serialDev : CStr
  tapProcCmd : CStr
  deriving DecidableEq, Repr

def defaults : Settings where
  bindIp := "0.0.0.0".toList
  bindPort := none
  serialDev := "/dev/serial0".toList
  tapProcCmd := "/usr/local/bin/midi-tapper".toList

def table : PyGetopt.Table where
  shortopts := "hp:i:s:t:".toList
  longopts := ["help".toList, "port=".toList, "ip=".toList, "serial=".toList, "tap-proc=".toList]

/-- How `main` ends, with what it has printed. -/
inductive Ended where
  /-- `app.run` -/
  | serves (w : World) (host : CStr) (port : Int) (out : CStr)
  | exits (status : Nat) (out : CStr)
  /-- an exception that nothing catches -/
  | raised
  /-- `assert False` -/
  | unhandled
  deriving DecidableEq, Repr

/-- `usage`; `print` ends the line. -/
def usage (argv0 : CStr) : CStr :=
  "\nUsage: ".toList ++ argv0 ++ (" [-h/-p/-i/-s/-t]\n" ++
  "-h --help        display this help\n" ++
  "-p --port <>     port to listen for connections (default 5000)\n" ++
  "-i --ip <>       ip address to bind to (default 0.0.0.0)\n" ++
  "-s --serial <>   serial port to write to (default /dev/serial0)\n" ++
  "-t --tap-proc <> path to the serial midi tapper program " ++
  "(default /usr/local/bin/midi-tapper)\n\n").toList

/-- The loop over the returned options. -/
def readOptions (argv0 : CStr) (s : Settings) : List (CStr × CStr) → Except Ended Settings
  | [] => .ok s
  | (o, a) :: opts =>
    if o = "-h".toList ∨ o = "--help".toList then .error (.exits 0 (usage argv0))
    else if o = "-p".toList ∨ o = "--port".toList then
      readOptions argv0 { s with bindPort := some a } opts
    else if o = "-i".toList ∨ o = "--ip".toList then
      readOptions argv0 { s with bindIp := a } opts
    else if o = "-s".toList ∨ o = "--serial".toList then
      readOptions argv0 { s with serialDev := a } opts
    else if o = "-t".toList ∨ o = "--tap-proc".toList then
      readOptions argv0 { s with tapProcCmd := a } opts
    else .error .unhandled

/-- `S_ISCHR` -/
def isChr (mode : Nat) : Bool := mode &&& 0o170000 == 0o020000

/-- One of `S_IXUSR`, `S_IXGRP` and `S_IXOTH` is set. -/
def executable (mode : Nat) : Bool :=
  mode &&& 0o100 != 0 || mode &&& 0o010 != 0 || mode &&& 0o001 != 0

/-- `check_deps`, or `none` where it returns. `stat` are the modes that its
three looks at a path find; where there is none, `os.stat` raises. -/
def checkDeps (stat : Nat → CStr → Option Nat) (s : Settings) : Option Ended :=
  match stat 0 s.serialDev with
  | none => some .raised
  | some mode =>
    if !isChr mode then
      some (.exits 1 (s.serialDev ++ " is not a character device. Exiting.\n".toList))
    else if (stat 1 s.tapProcCmd).isNone then
      some (.exits 1 (s.tapProcCmd ++ " does not exist. Exiting.\n".toList))
    else
      match stat 2 s.tapProcCmd with
      | none => some .raised
      | some mode =>
        if !executable mode then
          some (.exits 1 (s.tapProcCmd ++ " not executable. Exiting.\n".toList))
        else none

/-- `int(bind_port)` -/
def port (s : Settings) : Option Int :=
  match s.bindPort with
  | none => some 5000
  | some text => pyInt text

def announced (s : Settings) : CStr :=
  "Using serial port ".toList ++ s.serialDev ++ "\nUsing tapper proc ".toList ++ s.tapProcCmd ++
    "\n".toList

/-- `main`; `argv` is the argument vector without the program name. -/
def main (stat : Nat → CStr → Option Nat) (argv0 : CStr) (argv : List CStr) : Ended :=
  match getopt table none argv with
  | .error err => .exits 2 (err ++ "\n".toList ++ usage argv0)
  | .ok (opts, _) =>
    match readOptions argv0 defaults opts with
    | .error e => e
    | .ok s =>
      match checkDeps stat s with
      | some e => e
      | none =>
        match port s with
        | none => .raised
        | some port => .serves (launch s.serialDev s.tapProcCmd) s.bindIp port (announced s)

/-! ## The options -/

/-- The options that set something. -/
inductive Field where
  | bindPort | bindIp | serialDev | tapProcCmd
  deriving DecidableEq, Repr

def Field.names : Field → List CStr
  | .bindPort => ["-p".toList, "--port".toList]
  | .bindIp => ["-i".toList, "--ip".toList]
  | .serialDev => ["-s".toList, "--serial".toList]
  | .tapProcCmd => ["-t".toList, "--tap-proc".toList]

/-- The option asks for the help text. -/
def Helps (o : CStr × CStr) : Prop := o.1 = "-h".toList ∨ o.1 = "--help".toList

/-- The argument of the last option that sets the field. -/
def last (f : Field) (opts : List (CStr × CStr)) : Option CStr :=
  ((opts.filter fun o => f.names.contains o.1).map Prod.snd).getLast?

/-- Each setting is that of its last option, or what it was. -/
def settled (s : Settings) (opts : List (CStr × CStr)) : Settings where
  bindIp := (last .bindIp opts).getD s.bindIp
  bindPort := (last .bindPort opts).or s.bindPort
  serialDev := (last .serialDev opts).getD s.serialDev
  tapProcCmd := (last .tapProcCmd opts).getD s.tapProcCmd

def Field.put (f : Field) (a : CStr) (s : Settings) : Settings :=
  match f with
  | .bindPort => { s with bindPort := some a }
  | .bindIp => { s with bindIp := a }
  | .serialDev => { s with serialDev := a }
  | .tapProcCmd => { s with tapProcCmd := a }

theorem names_apart {f g : Field} {name : CStr} (here : name ∈ f.names) (there : name ∈ g.names) :
    f = g := by
  cases f <;> cases g <;> first
    | rfl
    | simp [Field.names] at here there; obtain rfl | rfl := here <;> simp at there

theorem readOptions_help {argv0 : CStr} {s : Settings} {o : CStr × CStr} {opts : List (CStr × CStr)}
    (helps : Helps o) : readOptions argv0 s (o :: opts) = .error (.exits 0 (usage argv0)) :=
  if_pos helps

theorem readOptions_field {argv0 : CStr} {s : Settings} {o : CStr × CStr} {f : Field}
    (opts : List (CStr × CStr)) (sets : o.1 ∈ f.names) :
    readOptions argv0 s (o :: opts) = readOptions argv0 (f.put o.2 s) opts := by
  obtain ⟨name, a⟩ := o
  cases f <;> simp only [Field.names, List.mem_cons, List.not_mem_nil, or_false] at sets <;>
    obtain rfl | rfl := sets <;> simp [readOptions, Field.put]

theorem shortHasArg_cases {c : Char} {takes : Bool}
    (known : PyGetopt.shortHasArg c table.shortopts = .ok takes) :
    takes = false ∧ c = 'h' ∨
      takes = true ∧ (c = 'p' ∨ c = 'i' ∨ c = 's' ∨ c = 't') := by
  have letters : table.shortopts = ['h', 'p', ':', 'i', ':', 's', ':', 't', ':'] := rfl
  rw [letters] at known
  simp only [PyGetopt.shortHasArg, ne_eq, Char.reduceEq, not_false_eq_true, and_true,
    not_true_eq_false, and_false, ↓reduceIte, List.head?_cons] at known
  split at known
  · rename_i e; cases known; exact .inl ⟨rfl, e.symm⟩
  right
  split at known
  · rename_i e; cases known; exact ⟨rfl, .inl e.symm⟩
  split at known
  · rename_i e; cases known; exact ⟨rfl, .inr (.inl e.symm)⟩
  split at known
  · rename_i e; cases known; exact ⟨rfl, .inr (.inr (.inl e.symm))⟩
  split at known
  · rename_i e; cases known; exact ⟨rfl, .inr (.inr (.inr e.symm))⟩
  · cases known

theorem longopts_cases {name : CStr} (known : name ∈ table.longopts) :
    name = "help".toList ∨ name = "port=".toList ∨ name = "ip=".toList ∨
      name = "serial=".toList ∨ name = "tap-proc=".toList := by
  rcases List.mem_cons.mp known with help | known
  · exact .inl help
  rcases List.mem_cons.mp known with port | known
  · exact .inr (.inl port)
  rcases List.mem_cons.mp known with ip | known
  · exact .inr (.inr (.inl ip))
  rcases List.mem_cons.mp known with serial | known
  · exact .inr (.inr (.inr (.inl serial)))
  · exact .inr (.inr (.inr (.inr (List.mem_singleton.mp known))))

/-- The names that the scanner can return are those that `main` handles. -/
theorem named_cases {name : CStr} {takes : Bool} (named : Named table name takes) :
    (name = "-h".toList ∨ name = "--help".toList) ∨ ∃ f : Field, name ∈ f.names := by
  cases named with
  | short known =>
    obtain ⟨-, rfl⟩ | ⟨-, rfl | rfl | rfl | rfl⟩ := shortHasArg_cases known
    · exact .inl (.inl rfl)
    · exact .inr ⟨.bindPort, List.mem_cons_self⟩
    · exact .inr ⟨.bindIp, List.mem_cons_self⟩
    · exact .inr ⟨.serialDev, List.mem_cons_self⟩
    · exact .inr ⟨.tapProcCmd, List.mem_cons_self⟩
  | flag known bare =>
    obtain help | port | ip | serial | tap := longopts_cases known
    · exact .inl (.inr (by rw [help]; rfl))
    · exact (bare (by rw [port]; decide)).elim
    · exact (bare (by rw [ip]; decide)).elim
    · exact (bare (by rw [serial]; decide)).elim
    · exact (bare (by rw [tap]; decide)).elim
  | @long base known =>
    have base_of (n : CStr) {o : CStr} (same : base ++ ['='] = o) (ends : o = n ++ ['=']) :
        base = n := List.append_cancel_right (same.trans ends)
    obtain help | port | ip | serial | tap := longopts_cases known
    · have ends : (base ++ ['=']).getLast? = some 'p' := by rw [help]; decide
      simp at ends
    · obtain rfl := base_of "port".toList port (by decide)
      exact .inr ⟨.bindPort, by decide⟩
    · obtain rfl := base_of "ip".toList ip (by decide)
      exact .inr ⟨.bindIp, by decide⟩
    · obtain rfl := base_of "serial".toList serial (by decide)
      exact .inr ⟨.serialDev, by decide⟩
    · obtain rfl := base_of "tap-proc".toList tap (by decide)
      exact .inr ⟨.tapProcCmd, by decide⟩

theorem returns_cases {o : CStr × CStr} (returned : Returns table o) :
    Helps o ∨ ∃ f : Field, o.1 ∈ f.names := by
  cases returned with
  | inl named => exact named_cases named
  | inr named => exact named_cases named.1

theorem last_cons (f : Field) (o : CStr × CStr) (opts : List (CStr × CStr)) :
    last f (o :: opts) = (last f opts).or (if o.1 ∈ f.names then some o.2 else none) := by
  unfold last
  by_cases sets : o.1 ∈ f.names
  · simp only [List.contains_eq_mem, sets, decide_true, List.filter_cons_of_pos, List.map_cons,
      List.getLast?_cons, ↓reduceIte]
    cases ((opts.filter fun o => decide (o.1 ∈ f.names)).map Prod.snd).getLast? <;> rfl
  · simp [sets]

theorem settled_field {s : Settings} {o : CStr × CStr} {f : Field} (opts : List (CStr × CStr))
    (sets : o.1 ∈ f.names) : settled s (o :: opts) = settled (f.put o.2 s) opts := by
  have own : last f (o :: opts) = (last f opts).or (some o.2) := by rw [last_cons, if_pos sets]
  have others (g : Field) (ne : g ≠ f) : last g (o :: opts) = last g opts := by
    rw [last_cons, if_neg fun there => ne (names_apart there sets), Option.or_none]
  cases f with
  | bindPort =>
    simp only [settled, own, others .bindIp (by decide), others .serialDev (by decide),
      others .tapProcCmd (by decide), Field.put]
    cases last .bindPort opts <;> rfl
  | bindIp =>
    simp only [settled, own, others .bindPort (by decide), others .serialDev (by decide),
      others .tapProcCmd (by decide), Field.put]
    cases last .bindIp opts <;> rfl
  | serialDev =>
    simp only [settled, own, others .bindIp (by decide), others .bindPort (by decide),
      others .tapProcCmd (by decide), Field.put]
    cases last .serialDev opts <;> rfl
  | tapProcCmd =>
    simp only [settled, own, others .bindIp (by decide), others .serialDev (by decide),
      others .bindPort (by decide), Field.put]
    cases last .tapProcCmd opts <;> rfl

/-- The loop over the options ends with the help text if one of them asks for
it, and otherwise the last option of each setting holds. -/
theorem readOptions_settled {argv0 : CStr} {opts : List (CStr × CStr)}
    (known : ∀ o ∈ opts, Helps o ∨ ∃ f : Field, o.1 ∈ f.names) (s : Settings) :
    ((∃ o ∈ opts, Helps o) ∧ readOptions argv0 s opts = .error (.exits 0 (usage argv0))) ∨
      (∀ o ∈ opts, ¬Helps o) ∧ readOptions argv0 s opts = .ok (settled s opts) := by
  induction opts generalizing s with
  | nil => exact .inr ⟨by simp, by simp [readOptions, settled, last]⟩
  | cons o opts ih =>
    by_cases helps : Helps o
    · exact .inl ⟨⟨o, List.mem_cons_self, helps⟩, readOptions_help helps⟩
    · obtain ⟨f, sets⟩ := (known o List.mem_cons_self).resolve_left helps
      rw [readOptions_field opts sets, settled_field opts sets]
      cases ih (fun x mem => known x (List.mem_cons_of_mem o mem)) (f.put o.2 s) with
      | inl asked =>
        obtain ⟨⟨x, mem, asks⟩, ends⟩ := asked
        exact .inl ⟨⟨x, List.mem_cons_of_mem o mem, asks⟩, ends⟩
      | inr reads =>
        refine .inr ⟨fun x mem => ?_, reads.2⟩
        cases List.mem_cons.mp mem with
        | inl first => rw [first]; exact helps
        | inr later => exact reads.1 x later

/-! ## What becomes of a command line -/

/-- All that `check_deps` asks for is there. -/
structure Checked (stat : Nat → CStr → Option Nat) (s : Settings) : Prop where
  device : ∃ mode, stat 0 s.serialDev = some mode ∧ isChr mode = true
  program : (stat 1 s.tapProcCmd).isSome
  runs : ∃ mode, stat 2 s.tapProcCmd = some mode ∧ executable mode = true

theorem checkDeps_none {stat : Nat → CStr → Option Nat} {s : Settings} :
    checkDeps stat s = none ↔ Checked stat s := by
  constructor
  · intro passed
    simp only [checkDeps] at passed
    split at passed
    · cases passed
    rename_i mode device
    split at passed
    · cases passed
    rename_i chr
    split at passed
    · cases passed
    rename_i there
    split at passed
    · cases passed
    rename_i mode' program
    split at passed
    · cases passed
    rename_i runs
    exact ⟨⟨mode, device, by simpa using chr⟩, by simpa [Option.isSome_iff_ne_none] using there,
      ⟨mode', program, by simpa using runs⟩⟩
  · rintro ⟨⟨mode, device, chr⟩, there, mode', program, runs⟩
    obtain ⟨found, there⟩ := Option.isSome_iff_exists.mp there
    simp [checkDeps, device, chr, there, program, runs]

/-- Where `check_deps` does not return, a path could not be looked at, or the
status is 1. -/
theorem checkDeps_some {stat : Nat → CStr → Option Nat} {s : Settings} {e : Ended}
    (failed : checkDeps stat s = some e) : e = .raised ∨ ∃ out, e = .exits 1 out := by
  simp only [checkDeps] at failed
  split at failed
  · cases failed; exact .inl rfl
  split at failed
  · cases failed; exact .inr ⟨_, rfl⟩
  split at failed
  · cases failed; exact .inr ⟨_, rfl⟩
  split at failed
  · cases failed; exact .inl rfl
  split at failed
  · cases failed; exact .inr ⟨_, rfl⟩
  · cases failed

/-- How `main` ends, and why. -/
inductive Ends (stat : Nat → CStr → Option Nat) (argv0 : CStr) (argv : List CStr) : Ended → Prop
  | misused (err : CStr) (refused : getopt table none argv = .error err) :
      Ends stat argv0 argv (.exits 2 (err ++ "\n".toList ++ usage argv0))
  | help (opts : List (CStr × CStr)) (rest : List CStr)
      (read : getopt table none argv = .ok (opts, rest)) (asked : ∃ o ∈ opts, Helps o) :
      Ends stat argv0 argv (.exits 0 (usage argv0))
  | missing (opts : List (CStr × CStr)) (rest : List CStr)
      (read : getopt table none argv = .ok (opts, rest)) (unasked : ∀ o ∈ opts, ¬Helps o)
      (e : Ended) (failed : checkDeps stat (settled defaults opts) = some e) :
      Ends stat argv0 argv e
  | noPort (opts : List (CStr × CStr)) (rest : List CStr)
      (read : getopt table none argv = .ok (opts, rest)) (unasked : ∀ o ∈ opts, ¬Helps o)
      (checked : Checked stat (settled defaults opts))
      (noInt : port (settled defaults opts) = none) : Ends stat argv0 argv .raised
  | serves (opts : List (CStr × CStr)) (rest : List CStr)
      (read : getopt table none argv = .ok (opts, rest)) (unasked : ∀ o ∈ opts, ¬Helps o)
      (checked : Checked stat (settled defaults opts)) (p : Int)
      (isInt : port (settled defaults opts) = some p) :
      Ends stat argv0 argv
        (.serves
          (launch (settled defaults opts).serialDev (settled defaults opts).tapProcCmd)
          (settled defaults opts).bindIp p (announced (settled defaults opts)))

theorem main_ends (stat : Nat → CStr → Option Nat) (argv0 : CStr) (argv : List CStr) :
    Ends stat argv0 argv (main stat argv0 argv) := by
  unfold main
  split
  · rename_i err refused
    exact .misused err refused
  · rename_i opts rest read
    have known : ∀ o ∈ opts, Helps o ∨ ∃ f : Field, o.1 ∈ f.names := fun o mem =>
      returns_cases (getopt_returns (fun opt waits => by cases waits) read o mem)
    rcases @readOptions_settled argv0 opts known defaults with ⟨asked, ends⟩ | ⟨unasked, reads⟩
    · rw [ends]
      exact .help opts rest read asked
    · rw [reads]
      dsimp only
      split
      · rename_i e failed
        exact .missing opts rest read unasked e failed
      · rename_i passed
        have checked := checkDeps_none.mp passed
        split
        · rename_i noInt
          exact .noPort opts rest read unasked checked noInt
        · rename_i p isInt
          exact .serves opts rest read unasked checked p isInt

/-- **Starting the gateway.** On every command line `main` ends in one of five
ways, and never in its assertion. The status is 2 exactly if the scanner raises
an error, and 0 exactly if the scanner raises none and some option asks for
help, whatever else is wrong then. It serves exactly if no option does, the
device and the program of the last options that name them pass the checks, and
the last port is a number. -/
theorem gateway_starts (stat : Nat → CStr → Option Nat) (argv0 : CStr) (argv : List CStr) :
    Ends stat argv0 argv (main stat argv0 argv) ∧
    main stat argv0 argv ≠ .unhandled ∧
    ((∃ out, main stat argv0 argv = .exits 2 out) ↔
      ∃ err, getopt table none argv = .error err) ∧
    ((∃ out, main stat argv0 argv = .exits 0 out) ↔
      ∃ opts rest, getopt table none argv = .ok (opts, rest) ∧ ∃ o ∈ opts, Helps o) ∧
    ((∃ w host p out, main stat argv0 argv = .serves w host p out) ↔
      ∃ opts rest, getopt table none argv = .ok (opts, rest) ∧ (∀ o ∈ opts, ¬Helps o) ∧
        Checked stat (settled defaults opts) ∧ (port (settled defaults opts)).isSome) := by
  have ends := main_ends stat argv0 argv
  refine ⟨ends, ?_⟩
  generalize main stat argv0 argv = ended at ends
  cases ends with
  | misused err refused => simp [refused]
  | help opts rest read asked =>
    refine ⟨by simp, by simp [read], by simp [read]; simpa using asked, ?_⟩
    simp only [read, Except.ok.injEq, Prod.mk.injEq, reduceCtorEq, exists_false, false_iff]
    rintro ⟨opts', rest', ⟨rfl, rfl⟩, unasked, -⟩
    obtain ⟨o, mem, helps⟩ := asked
    exact unasked o mem helps
  | missing opts rest read unasked e failed =>
    have unchecked : ¬Checked stat (settled defaults opts) := by
      rw [← checkDeps_none, failed]
      simp
    obtain rfl | ⟨out, rfl⟩ := checkDeps_some failed
    all_goals
      exact ⟨by simp, by simp [read], by simpa [read] using unasked, by simp [read, unchecked]⟩
  | noPort opts rest read unasked checked noInt =>
    exact ⟨by simp, by simp [read], by simpa [read] using unasked, by simp [read, noInt]⟩
  | serves opts rest read unasked checked p isInt =>
    refine ⟨by simp, by simp [read], by simpa [read] using unasked, ?_⟩
    simpa [read, checked, isInt] using unasked

/-! ## What the tappers are given -/

theorem main_serves {stat : Nat → CStr → Option Nat} {argv0 : CStr} {argv : List CStr} {w : World}
    {host out : CStr} {p : Int}
    (started : main stat argv0 argv = .serves w host p out) :
    ∃ opts rest, getopt table none argv = .ok (opts, rest) ∧
      Checked stat (settled defaults opts) ∧
      w = launch (settled defaults opts).serialDev (settled defaults opts).tapProcCmd := by
  have ends := main_ends stat argv0 argv
  rw [started] at ends
  cases ends with
  | missing opts rest read unasked _ failed =>
    obtain raised | ⟨out, exits⟩ := checkDeps_some failed
    · cases raised
    · cases exits
  | serves opts rest read unasked checked p isInt => exact ⟨opts, rest, read, checked, rfl⟩

/-- **The tappers get what was checked.** Once `main` serves, the first argument
of every process that any run of the system spawns is the name that the last
`--tap-proc` gave, which `check_deps` looked at, and every tapper's serial device
is that of the last `--serial`, which was found to be a character device,
whatever the requests hold. A name without a slash is looked at in the working
directory, while `Popen` goes through `PATH` for it. -/
theorem tappers_as_checked {stat : Nat → CStr → Option Nat} {argv0 : CStr} {argv : List CStr}
    {w : World} {host out : CStr} {p : Int}
    (started : main stat argv0 argv = .serves w host p out) (b : Tapper.Build)
    {acts : List System.Act} {s : System.State} {tr : List System.Event}
    (h : run (System.step b) ⟨⟨w, fun _ => none⟩, []⟩ acts = some (s, tr)) :
    ∃ opts rest, getopt table none argv = .ok (opts, rest) ∧
      Checked stat (settled defaults opts) ∧
      (∀ cmd ∈ s.gateway.world.spawned,
        cmd.head? = some ((last .tapProcCmd opts).getD defaults.tapProcCmd)) ∧
      ∀ (k : Nat) (q : Process) (args : Cmdline.ArgsInfo) (u : Tapper.State),
        s.procs[k]? = some q → q.program = .tapping args u →
        args.serial.arg = (last .serialDev opts).getD defaults.serialDev := by
  obtain ⟨opts, rest, read, checked, rfl⟩ := main_serves started
  refine ⟨opts, rest, read, checked, fun cmd mem => ?_, fun k q args u there taps => ?_⟩
  · obtain ⟨k, inside, here⟩ := List.mem_iff_getElem.mp mem
    rw [← (System.reachable_synced h).known] at inside
    obtain ⟨g, channel, message, value, bpm, -, -, given⟩ :=
      (System.reachable_origins h).request k inside
    rw [List.getElem?_eq_some_iff] at given
    obtain ⟨_, given⟩ := given
    rw [← here, given]
    rfl
  · obtain ⟨g, -, ⟨channel, message, value, bpm, numbers, -, -, rfl⟩, -⟩ :=
      System.tapper_started h there taps
    rfl

theorem tappers_as_checked_first :
    ∃ s tr q args u, run (System.step (Tapper.Build.plain false))
        ⟨⟨launch "/dev/ttyAMA0".toList defaults.tapProcCmd, fun _ => none⟩, []⟩ System.firstTapper =
          some (s, tr) ∧
      s.procs[0]? = some q ∧ q.program = .tapping args u ∧
      args.serial.arg = "/dev/ttyAMA0".toList := by
  have started : ∃ out, main (fun _ _ => some 0o020755) "midi-gw.py".toList
      ["-s".toList, "/dev/null".toList, "--ser=/dev/ttyAMA0".toList] =
        .serves (launch "/dev/ttyAMA0".toList defaults.tapProcCmd) "0.0.0.0".toList 5000 out :=
    ⟨_, rfl⟩
  obtain ⟨out, started⟩ := started
  obtain ⟨s, tr, q, args, u, ran, there, taps⟩ : ∃ s tr q args u,
      run (System.step (Tapper.Build.plain false))
        ⟨⟨launch "/dev/ttyAMA0".toList defaults.tapProcCmd, fun _ => none⟩, []⟩ System.firstTapper =
          some (s, tr) ∧ s.procs[0]? = some q ∧ q.program = .tapping args u :=
    ⟨_, _, _, _, _, rfl, rfl, rfl⟩
  obtain ⟨opts, rest, read, -, -, serial⟩ := tappers_as_checked started _ ran
  refine ⟨s, tr, q, args, u, ran, there, taps, ?_⟩
  rw [serial 0 q args u there taps]
  cases read
  rfl

end MidiGw.Startup
