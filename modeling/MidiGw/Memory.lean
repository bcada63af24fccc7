import MidiGw.Blocks
import MidiGw.Merge

/-!
# The parser's memory

`cmdline.c` as it allocates and frees: the strings that `struct
gengetopt_args_info` points at and the array of its inputs. The parser that
computes with plain values has no memory to run out of, and none to lose.
-/

namespace MidiGw.Memory

open Blocks
open C (CStr)
open Cmdline (Params)
open Getopt (Item)

/-! ## The parser on the heap -/

/-- `char *`, the null pointer included. -/
abbrev Ptr := Option Nat

/-- A block holds a string, or an array of strings: for each element what has
been stored there, if anything has. -/
inductive Block where
  | text (s : CStr)
  | strings (slots : List (Option Ptr))
  deriving DecidableEq, Repr

/-- One option of `struct gengetopt_args_info`. -/
structure Opt (α : Type) where
  arg : α
  orig : Ptr
  given : UInt32
  deriving DecidableEq, Repr

/-- `struct gengetopt_args_info` without its help texts. -/
structure ArgsInfo where
  serial : Opt Ptr
  tempo : Opt Int32
  channel : Opt Int32
  message : Opt Int32
  value : Opt Int32
  repeats : Opt Int32
  inputs : Ptr
  inputsNum : Nat
  deriving DecidableEq, Repr

/-- How a call ends; but for `ok` and `failure` the program ends with it. -/
inductive Outcome where
  | ok
  | help
  | version
  | failure (diagnostic : CStr)
  | aborted
  /-- a write through the null pointer -/
  | crashed
  deriving DecidableEq, Repr

section
variable (grants : Nat → Bool)

def gengetoptStrdup (s : CStr) : Prog Block Ptr := malloc grants (.text s)

/-- `cmdline_parser_init`, which reads nothing of the structure. -/
def cmdlineParserInit : Prog Block ArgsInfo := do
  let serial ← gengetoptStrdup grants "/dev/ttyS0".toList
  return {
    serial := ⟨serial, none, 0⟩
    tempo := ⟨120, none, 0⟩
    channel := ⟨0, none, 0⟩
    message := ⟨0, none, 0⟩
    value := ⟨0, none, 0⟩
    repeats := ⟨-1, none, 0⟩
    inputs := none
    inputsNum := 0 }

def freeStringField (s : Ptr) : Prog Block Ptr := do
  free s
  return none

/-- `inputs[i]`; what has not been stored cannot be read. -/
def slot (inputs : Ptr) (i : Nat) : Prog Block Ptr := do
  match ← load inputs with
  | .strings slots =>
    match slots[i]? with
    | some (some s) => return s
    | _ => failure
  | .text _ => failure

/-- `inputs[i] = s` -/
def setSlot (inputs : Ptr) (i : Nat) (s : Ptr) : Prog Block Unit := do
  match ← load inputs with
  | .strings slots =>
    if i < slots.length then store inputs (.strings (slots.set i (some s))) else failure
  | .text _ => failure

/-- The loop of `cmdline_parser_release`, with `n` inputs to go. -/
def freeInputs (inputs : Ptr) : Nat → Nat → Prog Block Unit
  | _, 0 => return
  | i, n + 1 => do
    free (← slot inputs i)
    freeInputs inputs (i + 1) n

/-- `cmdline_parser_release`, and so `cmdline_parser_free`: the pointer to the
inputs and their number stay as they are. -/
def cmdlineParserRelease (a : ArgsInfo) : Prog Block ArgsInfo := do
  let serialArg ← freeStringField a.serial.arg
  let serialOrig ← freeStringField a.serial.orig
  let tempoOrig ← freeStringField a.tempo.orig
  let channelOrig ← freeStringField a.channel.orig
  let messageOrig ← freeStringField a.message.orig
  let valueOrig ← freeStringField a.value.orig
  let repeatsOrig ← freeStringField a.repeats.orig
  freeInputs a.inputs 0 a.inputsNum
  if a.inputsNum = 0 then pure () else free a.inputs
  return {
    serial := ⟨serialArg, serialOrig, 0⟩
    tempo := ⟨a.tempo.arg, tempoOrig, 0⟩
    channel := ⟨a.channel.arg, channelOrig, 0⟩
    message := ⟨a.message.arg, messageOrig, 0⟩
    value := ⟨a.value.arg, valueOrig, 0⟩
    repeats := ⟨a.repeats.arg, repeatsOrig, 0⟩
    inputs := a.inputs
    inputsNum := a.inputsNum }

/-- `ARG_STRING` of `update_arg`: the string before is freed. -/
def assignString (val : CStr) (field : Ptr) : Prog Block (Ptr × Option CStr) := do
  free field
  let field ← gengetoptStrdup grants val
  return (field, none)

/-- `ARG_INT` of `update_arg`: the number is assigned before it is checked. -/
def assignInt (w : Nat) (packageName val : CStr) (_field : Int32) :
    Prog Block (Int32 × Option CStr) :=
  let (n, stop) := C.strtol w val
  return (Int32.ofInt n, if stop = [] then none else
    some (packageName ++ ": invalid numeric value: ".toList ++ val ++ "\n".toList))

/-- `update_arg` with `no_free` off: the field, the count of this command line
and the diagnostic, if there is one. -/
def updateArg {α : Type} (p : Params) (assign : α → Prog Block (α × Option CStr))
    (packageName longOpt : CStr) (shortOpt : Char) (field : Opt α) (prevGiven : UInt32) (val : CStr) :
    Prog Block (Opt α × UInt32 × Option CStr) :=
  if prevGiven ≠ 0 ∨ p.checkAmbiguity = true ∧ field.given ≠ 0 then
    return (field, prevGiven, some (packageName ++ ": `--".toList ++ longOpt ++ "' (`-".toList ++
      [shortOpt] ++ "') option given more than once\n".toList))
  else if field.given ≠ 0 ∧ p.override = false then return (field, prevGiven, none)
  else do
    let (arg, refused) ← assign field.arg
    match refused with
    | some e => return (⟨arg, field.orig, field.given + 1⟩, prevGiven + 1, some e)
    | none =>
      free field.orig
      let orig ← gengetoptStrdup grants val
      return (⟨arg, orig, field.given + 1⟩, prevGiven + 1, none)

/-- The option cases of the switch. -/
def optionCase (p : Params) (w : Nat) (packageName : CStr) (args seen : ArgsInfo) (c : Char)
    (optarg : CStr) : Option (Prog Block ((ArgsInfo × ArgsInfo) × Option CStr)) :=
  let string := assignString grants optarg
  let int := assignInt w packageName optarg
  match c with
  | 's' => some do
    let (o, n, e) ← updateArg grants p string packageName "serial".toList 's' args.serial
      seen.serial.given optarg
    return (({ args with serial := o }, { seen with serial.given := n }), e)
  | 't' => some do
    let (o, n, e) ← updateArg grants p int packageName "tempo".toList 't' args.tempo
      seen.tempo.given optarg
    return (({ args with tempo := o }, { seen with tempo.given := n }), e)
  | 'c' => some do
    let (o, n, e) ← updateArg grants p int packageName "channel".toList 'c' args.channel
      seen.channel.given optarg
    return (({ args with channel := o }, { seen with channel.given := n }), e)
  | 'm' => some do
    let (o, n, e) ← updateArg grants p int packageName "message".toList 'm' args.message
      seen.message.given optarg
    return (({ args with message := o }, { seen with message.given := n }), e)
  | 'v' => some do
    let (o, n, e) ← updateArg grants p int packageName "value".toList 'v' args.value
      seen.value.given optarg
    return (({ args with value := o }, { seen with value.given := n }), e)
  | 'r' => some do
    let (o, n, e) ← updateArg grants p int packageName "repeats".toList 'r' args.repeats
      seen.repeats.given optarg
    return (({ args with repeats := o }, { seen with repeats.given := n }), e)
  | _ => none

/-- The `while (1)` loop; `seen` is `local_args_info`, released on every way out
but `abort`. -/
def parseItems (p : Params) (w : Nat) (packageName : CStr) (args seen : ArgsInfo) :
    List Item → Prog Block (ArgsInfo × Outcome)
  | [] => do
    let _ ← cmdlineParserRelease seen
    return (args, .ok)
  | .option 'h' _ :: _ => do
    let _ ← cmdlineParserRelease seen
    return (args, .help)
  | .option 'V' _ :: _ => do
    let _ ← cmdlineParserRelease seen
    return (args, .version)
  | .option c (some optarg) :: items =>
    match optionCase grants p w packageName args seen c optarg with
    | none => return (args, .aborted)
    | some call => do
      let ((args, seen), refused) ← call
      match refused with
      | some e =>
        let _ ← cmdlineParserRelease seen
        return (args, .failure e)
      | none => parseItems p w packageName args seen items
  | .option _ none :: _ => return (args, .aborted)
  | .invalid :: _ => do
    let _ ← cmdlineParserRelease seen
    return (args, .failure [])

/-- The loop that copies the inputs into their array. -/
def fillInputs (inputs : Ptr) : Nat → List CStr → Prog Block Unit
  | _, [] => return
  | i, s :: rest => do
    let copy ← gengetoptStrdup grants s
    setSlot inputs i copy
    fillInputs inputs (i + 1) rest

/-- The inputs: an array that is there before is not freed. -/
def storeInputs (args : ArgsInfo) (inputs : List CStr) : Prog Block (ArgsInfo × Outcome) :=
  if inputs = [] then return (args, .ok)
  else do
    let array ← malloc grants (.strings (List.replicate inputs.length none))
    match array with
    | none => return ({ args with inputs := none, inputsNum := inputs.length }, .crashed)
    | some _ =>
      fillInputs grants array 0 inputs
      return ({ args with inputs := array, inputsNum := inputs.length }, .ok)

def cmdlineParserInternal (p : Params) (w : Nat) (argv0 : CStr) (argv : List CStr)
    (args : ArgsInfo) : Prog Block (ArgsInfo × Outcome) := do
  let args ← if p.initializes then cmdlineParserInit grants else pure args
  let seen ← cmdlineParserInit grants
  let (args, outcome) ←
    parseItems grants p w argv0 args seen (Getopt.scan Cmdline.table none argv).1
  match outcome with
  | .ok => storeInputs grants args (Getopt.scan Cmdline.table none argv).2
  | stop => return (args, stop)

/-- `cmdline_parser2`, which frees the arguments in front of its `exit`. -/
def cmdlineParser2 (w : Nat) (argv0 : CStr) (argv : List CStr) (args : ArgsInfo)
    (override initializes checkRequired : Bool) : Prog Block (ArgsInfo × Outcome) := do
  let (args, outcome) ← cmdlineParserInternal grants
    ⟨override, initializes, checkRequired, false, true⟩ w argv0 argv args
  match outcome with
  | .failure e =>
    let args ← cmdlineParserRelease args
    return (args, .failure e)
  | other => return (args, other)

end

end MidiGw.Memory
