import MidiGw.Getopt

/-!
# The tapper's command line

`cmdline.c`: the option table of the tapper, the conversion and bookkeeping of
one option argument, and the parser loop over what `getopt_long` returns.
-/

namespace MidiGw.Cmdline

open C (CStr)
open Getopt (Item Table)

/-- One option of `struct gengetopt_args_info`: `x_arg`, `x_orig`, `x_given`. -/
structure Opt (α : Type) where
  arg : α
  orig : Option CStr
  given : UInt32
  deriving DecidableEq, Repr

/-- `struct gengetopt_args_info` without its help texts. -/
structure ArgsInfo where
  serial : Opt CStr
  tempo : Opt Int32
  channel : Opt Int32
  message : Opt Int32
  value : Opt Int32
  repeats : Opt Int32
  inputs : List CStr
  deriving DecidableEq, Repr

/-- `cmdline_parser_init`: no option given, every argument at its default. -/
def cmdlineParserInit : ArgsInfo where
  serial := ⟨"/dev/ttyS0".toList, none, 0⟩
  tempo := ⟨120, none, 0⟩
  channel := ⟨0, none, 0⟩
  message := ⟨0, none, 0⟩
  value := ⟨0, none, 0⟩
  repeats := ⟨-1, none, 0⟩
  inputs := []

/-- `struct cmdline_parser_params`; `initializes` is its `initialize`. -/
structure Params where
  override : Bool
  initializes : Bool
  checkRequired : Bool
  checkAmbiguity : Bool
  printErrors : Bool
  deriving DecidableEq, Repr

/-- `cmdline_parser_params_init` -/
def cmdlineParserParamsInit : Params where
  override := false
  initializes := true
  checkRequired := true
  checkAmbiguity := false
  printErrors := true

/-- The option string and `long_options`. -/
def table : Table where
  optstring := "hVs:t:c:m:v:r:".toList
  longOptions := [
    ⟨"help".toList, false, 'h'⟩, ⟨"version".toList, false, 'V'⟩,
    ⟨"serial".toList, true, 's'⟩, ⟨"tempo".toList, true, 't'⟩,
    ⟨"channel".toList, true, 'c'⟩, ⟨"message".toList, true, 'm'⟩,
    ⟨"value".toList, true, 'v'⟩, ⟨"repeats".toList, true, 'r'⟩]

/-- The numeric branch of `update_arg`: base 0, the result assigned to an
`int`, and refused unless the whole text was read. -/
def convertInt (w : Nat) (packageName val : CStr) : Except CStr Int32 :=
  let (n, stop) := C.strtol w val
  if stop = [] then .ok (Int32.ofInt n)
  else .error (packageName ++ ": invalid numeric value: ".toList ++ val ++ "\n".toList)

/-- A digit string is converted unless it has a leading zero and an 8 or 9. -/
theorem convertInt_digits {w : Nat} {packageName val : CStr} (ne : val ≠ [])
    (digits : C.Digits val) :
    (C.Readable val → convertInt w packageName val =
      .ok (Int32.ofInt (C.clampLong w (C.reading val)))) ∧
    (¬C.Readable val → ∃ e, convertInt w packageName val = .error e) := by
  have rest := C.strtol_rest w ne digits
  constructor
  · intro readable
    simp only [convertInt, rest.mpr readable, ↓reduceIte, C.strtol_value w ne digits readable]
  · intro unread
    simp only [convertInt, mt rest.mp unread, ↓reduceIte]
    exact ⟨_, rfl⟩

/-- The string branch of `update_arg`. -/
def convertString (val : CStr) : Except CStr CStr := .ok val

/-- `update_arg` as the parser calls it, for an option that may be given once,
with no list of possible values: the new field and the new count of earlier
occurrences, or the diagnostic. The counts are `unsigned int` and wrap. -/
def updateArg {α : Type} (p : Params) (convert : CStr → Except CStr α)
    (packageName longOpt : CStr) (shortOpt : Char) (field : Opt α) (prevGiven : UInt32)
    (val : CStr) : Except CStr (Opt α × UInt32) :=
  if prevGiven ≠ 0 ∨ p.checkAmbiguity = true ∧ field.given ≠ 0 then
    .error (packageName ++ ": `--".toList ++ longOpt ++ "' (`-".toList ++ [shortOpt] ++
      "') option given more than once\n".toList)
  else if field.given ≠ 0 ∧ p.override = false then .ok (field, prevGiven)
  else
    match convert val with
    | .error e => .error e
    | .ok a => .ok (⟨a, some val, field.given + 1⟩, prevGiven + 1)

/-- What the parser leaves behind. `help` and `version` have exited with
success, `failure` with its diagnostic and `aborted` have ended the program. -/
inductive Parsed where
  | ok (args : ArgsInfo)
  | help
  | version
  | failure (diagnostic : CStr)
  | aborted
  deriving DecidableEq, Repr

/-- The option cases of the switch. `seen` is `local_args_info`, of which only
the counts are used. -/
def optionCase (p : Params) (w : Nat) (packageName : CStr) (args seen : ArgsInfo) (c : Char)
    (optarg : CStr) : Option (Except CStr (ArgsInfo × ArgsInfo)) :=
  let int := convertInt w packageName
  match c with
  | 's' => some <|
    (updateArg p convertString packageName "serial".toList 's' args.serial seen.serial.given
      optarg).map fun r => ({ args with serial := r.1 }, { seen with serial.given := r.2 })
  | 't' => some <|
    (updateArg p int packageName "tempo".toList 't' args.tempo seen.tempo.given
      optarg).map fun r => ({ args with tempo := r.1 }, { seen with tempo.given := r.2 })
  | 'c' => some <|
    (updateArg p int packageName "channel".toList 'c' args.channel seen.channel.given
      optarg).map fun r => ({ args with channel := r.1 }, { seen with channel.given := r.2 })
  | 'm' => some <|
    (updateArg p int packageName "message".toList 'm' args.message seen.message.given
      optarg).map fun r => ({ args with message := r.1 }, { seen with message.given := r.2 })
  | 'v' => some <|
    (updateArg p int packageName "value".toList 'v' args.value seen.value.given
      optarg).map fun r => ({ args with value := r.1 }, { seen with value.given := r.2 })
  | 'r' => some <|
    (updateArg p int packageName "repeats".toList 'r' args.repeats seen.repeats.given
      optarg).map fun r => ({ args with repeats := r.1 }, { seen with repeats.given := r.2 })
  | _ => none

/-- The `while (1)` loop over the returned options. -/
def parseItems (p : Params) (w : Nat) (packageName : CStr) (args seen : ArgsInfo) :
    List Item → Parsed
  | [] => .ok args
  | .option 'h' _ :: _ => .help
  | .option 'V' _ :: _ => .version
  | .option c (some optarg) :: items =>
    match optionCase p w packageName args seen c optarg with
    | none => .aborted
    | some (.error e) => .failure e
    | some (.ok (args', seen')) => parseItems p w packageName args' seen' items
  | .option _ none :: _ => .aborted
  -- `getopt_long` has printed its own diagnostic
  | .invalid :: _ => .failure []

/-- `cmdline_parser` on a `long` of `w` bits; `argv0` is the program name and
`argv` the rest of the argument vector. -/
def cmdlineParser (w : Nat) (argv0 : CStr) (argv : List CStr) : Parsed :=
  let (items, inputs) := Getopt.scan table none argv
  match parseItems cmdlineParserParamsInit w argv0 cmdlineParserInit cmdlineParserInit items with
  | .ok args => .ok { args with inputs := inputs }
  | stop => stop

/-- The four numeric conversions of a start request, in the order of its
options; the first text that is refused decides the diagnostic. -/
def startNumbers (w : Nat) (argv0 channel message value bpm : CStr) :
    Except CStr (Int32 × Int32 × Int32 × Int32) := do
  let c ← convertInt w argv0 channel
  let m ← convertInt w argv0 message
  let v ← convertInt w argv0 value
  let t ← convertInt w argv0 bpm
  .ok (c, m, v, t)

/-- Only a text of the request is ever refused. -/
theorem startNumbers_error {w : Nat} {argv0 channel message value bpm e : CStr}
    (h : startNumbers w argv0 channel message value bpm = .error e) :
    ∃ text ∈ [channel, message, value, bpm], convertInt w argv0 text = .error e := by
  simp only [startNumbers, bind, Except.bind] at h
  split at h
  · rename_i refused; cases h; exact ⟨channel, by simp, refused⟩
  · split at h
    · rename_i refused; cases h; exact ⟨message, by simp, refused⟩
    · split at h
      · rename_i refused; cases h; exact ⟨value, by simp, refused⟩
      · split at h
        · rename_i refused; cases h; exact ⟨bpm, by simp, refused⟩
        · cases h

/-- Five options given once each, every other field at its default. -/
def startArgs (dev channel message value bpm : CStr) :
    Int32 × Int32 × Int32 × Int32 → ArgsInfo
  | (c, m, v, t) =>
    { cmdlineParserInit with
      serial := ⟨dev, some dev, 1⟩
      channel := ⟨c, some channel, 1⟩
      message := ⟨m, some message, 1⟩
      value := ⟨v, some value, 1⟩
      tempo := ⟨t, some bpm, 1⟩ }

/-- The options of `start_tap_proc`, in its order. -/
def startOptions (dev channel message value bpm : CStr) : List (Char × CStr) :=
  [('s', dev), ('c', channel), ('m', message), ('v', value), ('t', bpm)]

theorem scan_start (dev channel message value bpm : CStr) :
    Getopt.scan table none (Getopt.separate (startOptions dev channel message value bpm)) =
      ((startOptions dev channel message value bpm).map fun o => .option o.1 (some o.2), []) := by
  apply Getopt.scan_separate
  · intro o mem
    simp only [startOptions, List.mem_cons, List.not_mem_nil, or_false] at mem
    rcases mem with rfl | rfl | rfl | rfl | rfl <;> rfl
  · intro o mem
    simp only [startOptions, List.mem_cons, List.not_mem_nil, or_false] at mem
    rcases mem with rfl | rfl | rfl | rfl | rfl <;> simp

/-- The first occurrence of an option is converted, stored and counted. -/
theorem updateArg_first {α : Type} {p : Params} {convert : CStr → Except CStr α}
    {packageName longOpt val : CStr} {c : Char} {field : Opt α} {prevGiven : UInt32}
    (first : prevGiven = 0) (fresh : field.given = 0) :
    updateArg p convert packageName longOpt c field prevGiven val =
      (convert val).map fun a => (⟨a, some val, 1⟩, 1) := by
  simp only [updateArg, first, fresh, ne_eq, not_true_eq_false, and_false, false_and, or_self,
    ↓reduceIte]
  cases convert val <;> rfl

theorem parseItems_first {α : Type} {p : Params} {w : Nat} {packageName longOpt optarg : CStr}
    {args seen : ArgsInfo} {c : Char} {field : Opt α} {prevGiven : UInt32}
    {convert : CStr → Except CStr α} {store : Opt α × UInt32 → ArgsInfo × ArgsInfo}
    {items : List Item} (help : c ≠ 'h') (version : c ≠ 'V')
    (case : optionCase p w packageName args seen c optarg =
      some ((updateArg p convert packageName longOpt c field prevGiven optarg).map store))
    (fresh : field.given = 0) (first : prevGiven = 0) :
    parseItems p w packageName args seen (.option c (some optarg) :: items) =
      match convert optarg with
      | .error e => .failure e
      | .ok a =>
        parseItems p w packageName (store (⟨a, some optarg, 1⟩, 1)).1
          (store (⟨a, some optarg, 1⟩, 1)).2 items := by
  simp only [parseItems, case, updateArg_first first fresh]
  cases convert optarg <;> rfl

theorem parseItems_start (p : Params) (w : Nat) (argv0 dev channel message value bpm : CStr) :
    parseItems p w argv0 cmdlineParserInit cmdlineParserInit
        ((startOptions dev channel message value bpm).map fun o => .option o.1 (some o.2)) =
      match startNumbers w argv0 channel message value bpm with
      | .error e => .failure e
      | .ok numbers => .ok (startArgs dev channel message value bpm numbers) := by
  simp only [startOptions, List.map_cons, List.map_nil, startNumbers]
  rw [parseItems_first (by decide) (by decide) (optionCase.eq_1 ..) rfl rfl]
  simp only [convertString]
  rw [parseItems_first (by decide) (by decide) (optionCase.eq_3 ..) rfl rfl]
  cases convertInt w argv0 channel with
  | error e => rfl
  | ok c =>
    simp only
    rw [parseItems_first (by decide) (by decide) (optionCase.eq_4 ..) rfl rfl]
    cases convertInt w argv0 message with
    | error e => rfl
    | ok m =>
      simp only
      rw [parseItems_first (by decide) (by decide) (optionCase.eq_5 ..) rfl rfl]
      cases convertInt w argv0 value with
      | error e => rfl
      | ok v =>
        simp only
        rw [parseItems_first (by decide) (by decide) (optionCase.eq_2 ..) rfl rfl]
        cases convertInt w argv0 bpm <;> rfl

/-- A start request reaches the tapper as the five options with the five
strings, unless a numeric conversion refuses one of them. -/
theorem cmdlineParser_start (w : Nat) (argv0 dev channel message value bpm : CStr) :
    cmdlineParser w argv0 (Getopt.separate (startOptions dev channel message value bpm)) =
      match startNumbers w argv0 channel message value bpm with
      | .error e => .failure e
      | .ok numbers => .ok (startArgs dev channel message value bpm numbers) := by
  rw [cmdlineParser, scan_start]
  dsimp only
  rw [parseItems_start]
  cases startNumbers w argv0 channel message value bpm <;> rfl

end MidiGw.Cmdline
