import MidiGw.Options
import Mathlib.Data.List.Nodup

/-!
# Writing the options out

`cmdline_parser_dump`, and what it keeps of a command line: the options it
writes, given back in their long form, mean the same again, and two dumps agree
exactly if the options do, as long as no value runs over its line.
-/

namespace MidiGw

open C (CStr)

namespace Getopt

/-! ## Long options with the argument behind an equals sign -/

/-- The element `--name=val`. -/
def assignment (o : LongOption × CStr) : CStr := '-' :: '-' :: (o.1.name ++ '=' :: o.2)

/-- A row that its full name finds, with an argument, and no `=` in the name. -/
structure Table.Assigns (t : Table) (o : LongOption) : Prop where
  found : t.longOptions.find? (·.name = o.name) = some o
  takes : o.hasArg = true
  plain : '=' ∉ o.name

theorem long_assignment {t : Table} {o : LongOption} (h : t.Assigns o) (val : CStr) :
    long t.longOptions (o.name ++ '=' :: val) = ([.option o.val (some val)], none) := by
  have before : ∀ c ∈ o.name, decide (c ≠ '=') = true := by
    intro c mem
    apply decide_eq_true
    rintro rfl
    exact h.plain mem
  have name : (o.name ++ '=' :: val).takeWhile (· ≠ '=') = o.name := by
    rw [List.takeWhile_append_of_pos before]
    simp
  have given : (o.name ++ '=' :: val).dropWhile (· ≠ '=') = '=' :: val := by
    rw [List.dropWhile_append_of_pos before]
    simp
  simp only [long, name, given, findLong, h.found, h.takes]

theorem element_assignment {t : Table} {o : LongOption} (h : t.Assigns o) (val : CStr) :
    element t (assignment (o, val)) = .options [.option o.val (some val)] none := by
  have body : o.name ++ '=' :: val ≠ [] := by simp
  unfold element assignment
  split
  · rename_i ends
    simp at ends
  · rename_i same
    simp only [List.cons.injEq, true_and] at same
    subst same
    rw [long_assignment h]
  · rename_i noDash same
    simp only [List.cons.injEq, true_and] at same
    exact (noDash same.1.symm).elim
  · rename_i other
    exact absurd rfl (other '-' _)

/-- **Assignments are read back.** Long options with their arguments behind
them, and inputs behind the terminator, are returned as they are. -/
theorem scan_assignments (t : Table) (opts : List (LongOption × CStr))
    (known : ∀ o ∈ opts, t.Assigns o.1) (inputs : List CStr) :
    scan t none (opts.map assignment ++ ['-', '-'] :: inputs) =
      (opts.map fun o => .option o.1.val (some o.2), inputs) := by
  induction opts with
  | nil => rfl
  | cons o opts ih =>
    have rest := ih fun x mem => known x (List.mem_cons_of_mem o mem)
    have first := element_assignment (known o List.mem_cons_self) o.2
    simp only [List.map_cons, List.cons_append, scan, first, rest, List.nil_append]

end Getopt

namespace Cmdline

/-! ## What is written -/

def writeIntoFile (opt : CStr) (arg : Option CStr) : CStr :=
  match arg with
  | some arg => opt ++ "=\"".toList ++ arg ++ "\"\n".toList
  | none => opt ++ "\n".toList

/-- `cmdline_parser_dump` on an open stream, for arguments that were returned:
neither help nor version was given then. -/
def cmdlineParserDump (args : ArgsInfo) : CStr :=
  (if args.serial.given ≠ 0 then writeIntoFile "serial".toList args.serial.orig else []) ++
  (if args.tempo.given ≠ 0 then writeIntoFile "tempo".toList args.tempo.orig else []) ++
  (if args.channel.given ≠ 0 then writeIntoFile "channel".toList args.channel.orig else []) ++
  (if args.message.given ≠ 0 then writeIntoFile "message".toList args.message.orig else []) ++
  (if args.value.given ≠ 0 then writeIntoFile "value".toList args.value.orig else []) ++
  (if args.repeats.given ≠ 0 then writeIntoFile "repeats".toList args.repeats.orig else [])

def Field.all : List Field := [.serial, .tempo, .channel, .message, .value, .repeats]

/-- The option that gave the field its value. -/
def Field.source (args : ArgsInfo) (f : Field) : Option (Field × CStr) :=
  if (f.get args).given ≠ 0 then (f.get args).orig.map fun val => (f, val) else none

/-- The options behind the arguments, in the order of the dump. -/
def options (args : ArgsInfo) : List (Field × CStr) := Field.all.filterMap (Field.source args)

/-- A line of the dump without its end. -/
def dumpLine (o : Field × CStr) : CStr := o.1.name ++ '=' :: ('"' :: o.2 ++ ['"'])

def Field.longOption (f : Field) : Getopt.LongOption := ⟨f.name, true, f.letter⟩

/-- Options in their long form, and inputs behind the terminator. -/
def lineOf (opts : List (Field × CStr)) (inputs : List CStr) : List CStr :=
  (opts.map fun o => Getopt.assignment (o.1.longOption, o.2)) ++ ['-', '-'] :: inputs

/-- The dumped options in their long form, and the inputs. -/
def commandLine (args : ArgsInfo) : List CStr := lineOf (options args) args.inputs

theorem Field.source_eq_some {args : ArgsInfo} {f : Field} {o : Field × CStr} :
    f.source args = some o ↔
      o.1 = f ∧ (f.get args).given ≠ 0 ∧ (f.get args).orig = some o.2 := by
  obtain ⟨g, val⟩ := o
  unfold Field.source
  split
  · rename_i given
    simp only [Option.map_eq_some_iff, Prod.mk.injEq]
    constructor
    · rintro ⟨val, orig, rfl, rfl⟩
      exact ⟨rfl, given, orig⟩
    · rintro ⟨rfl, -, orig⟩
      exact ⟨val, orig, rfl, rfl⟩
  · rename_i absent
    simp [absent]

theorem mem_options {args : ArgsInfo} {o : Field × CStr} :
    o ∈ options args ↔ (o.1.get args).given ≠ 0 ∧ (o.1.get args).orig = some o.2 := by
  simp only [options, List.mem_filterMap, Field.source_eq_some]
  constructor
  · rintro ⟨f, -, rfl, here⟩
    exact here
  · intro here
    exact ⟨o.1, by cases o.1 <;> simp [Field.all], rfl, here⟩

theorem options_nodup (args : ArgsInfo) : (options args).Nodup := by
  apply List.Nodup.filterMap
  · intro f g o here there
    rw [Option.mem_def, Field.source_eq_some] at here there
    exact here.1.symm.trans there.1
  · decide

/-! ## The options behind accepted arguments -/

/-- Arguments keep the options that they come from. -/
theorem Holds.perm_options {w : Nat} {packageName : CStr} {opts : List (Field × CStr)}
    {args : ArgsInfo} (h : Holds w packageName opts args) : opts.Perm (options args) := by
  have once : opts.Nodup := List.Nodup.of_map Prod.fst h.once
  apply (List.perm_ext_iff_of_nodup once (options_nodup args)).mpr
  intro o
  rw [mem_options]
  constructor
  · intro mem
    obtain ⟨given, orig⟩ := read_orig (h.set o mem)
    exact ⟨by rw [given]; decide, orig⟩
  · rintro ⟨given, orig⟩
    have mentioned : o.1 ∈ opts.map Prod.fst := by
      by_contra absent
      rw [h.default o.1 absent, get_given, default_given] at given
      exact given rfl
    obtain ⟨o', mem, same⟩ := List.mem_map.mp mentioned
    have set := (read_orig (h.set o' mem)).2
    rw [same, orig] at set
    rwa [show o = o' from Prod.ext same.symm (Option.some.inj set)]

theorem accepted_options {w : Nat} {argv0 : CStr} {argv : List CStr} {args : ArgsInfo}
    (accepted : cmdlineParser w argv0 argv = .ok args) : Holds w argv0 (options args) args := by
  obtain ⟨opts, -, holds, -⟩ := (cmdlineParser_accepted w argv0 argv args).mp accepted
  exact holds.perm holds.perm_options

theorem cmdlineParserDump_eq {args : ArgsInfo}
    (kept : ∀ f : Field, (f.get args).given ≠ 0 → ((f.get args).orig).isSome) :
    cmdlineParserDump args = ((options args).map dumpLine).flatMap (· ++ ['\n']) := by
  have fields : cmdlineParserDump args = Field.all.flatMap fun f =>
      if (f.get args).given ≠ 0 then writeIntoFile f.name (f.get args).orig else [] := by
    simp only [cmdlineParserDump, Field.all, List.flatMap_cons, List.flatMap_nil, List.append_nil,
      List.append_assoc]
    rfl
  rw [fields, options]
  generalize Field.all = fs
  induction fs with
  | nil => rfl
  | cons f fs ih =>
    rw [List.flatMap_cons, ih, List.filterMap_cons]
    by_cases given : (f.get args).given ≠ 0
    · obtain ⟨val, orig⟩ := Option.isSome_iff_exists.mp (kept f given)
      simp [Field.source, given, orig, writeIntoFile, dumpLine]
    · simp [Field.source, given]

/-- Every option that is counted has kept its text. -/
theorem accepted_kept {w : Nat} {argv0 : CStr} {argv : List CStr} {args : ArgsInfo}
    (accepted : cmdlineParser w argv0 argv = .ok args) (f : Field)
    (given : (f.get args).given ≠ 0) : ((f.get args).orig).isSome := by
  have holds := accepted_options accepted
  by_cases mentioned : f ∈ (options args).map Prod.fst
  · obtain ⟨o, mem, rfl⟩ := List.mem_map.mp mentioned
    rw [(mem_options.mp mem).2]
    rfl
  · rw [holds.default f mentioned, get_given, default_given] at given
    exact absurd rfl given

/-- The dump of an accepted command line has one line for each of its options. -/
theorem accepted_dump {w : Nat} {argv0 : CStr} {argv : List CStr} {args : ArgsInfo}
    (accepted : cmdlineParser w argv0 argv = .ok args) :
    cmdlineParserDump args = ((options args).map dumpLine).flatMap (· ++ ['\n']) :=
  cmdlineParserDump_eq (accepted_kept accepted)

theorem longOption_assigns (f : Field) : table.Assigns f.longOption := by
  cases f <;> exact ⟨rfl, rfl, by decide⟩

theorem scan_lineOf (opts : List (Field × CStr)) (inputs : List CStr) :
    Getopt.scan table none (lineOf opts inputs) = (opts.map Field.item, inputs) := by
  have scanned := Getopt.scan_assignments table (opts.map fun o => (o.1.longOption, o.2))
    (by
      intro o mem
      obtain ⟨o', -, rfl⟩ := List.mem_map.mp mem
      exact longOption_assigns o'.1) inputs
  rw [List.map_map, List.map_map] at scanned
  exact scanned

/-- **Back from the dump.** The dump of an accepted command line is one line for
each option that it gave, and these options, given again in their long form and
in the order of the dump, with the same inputs behind the terminator, mean what
the command line meant. -/
theorem dumped_options_accepted {w : Nat} {argv0 : CStr} {argv : List CStr} {args : ArgsInfo}
    (accepted : cmdlineParser w argv0 argv = .ok args) :
    cmdlineParserDump args = ((options args).map dumpLine).flatMap (· ++ ['\n']) ∧
      cmdlineParser w argv0 (commandLine args) = .ok args := by
  refine ⟨accepted_dump accepted, ?_⟩
  rw [cmdlineParser_accepted, commandLine, scan_lineOf]
  exact ⟨options args, rfl, accepted_options accepted, rfl⟩

theorem dumped_options_accepted_two :
    ∃ args, cmdlineParser 64 "tapper".toList
        ["-c3".toList, "in".toList, "-t".toList, "90".toList] = .ok args ∧
      cmdlineParserDump args = "tempo=\"90\"\nchannel=\"3\"\n".toList ∧
      cmdlineParser 64 "tapper".toList
        ["--tempo=90".toList, "--channel=3".toList, "--".toList, "in".toList] = .ok args := by
  obtain ⟨args, accepted⟩ : ∃ args, cmdlineParser 64 "tapper".toList
      ["-c3".toList, "in".toList, "-t".toList, "90".toList] = .ok args := ⟨_, rfl⟩
  obtain ⟨dump, back⟩ := dumped_options_accepted accepted
  refine ⟨args, accepted, ?_, ?_⟩
  · rw [dump]
    cases accepted
    rfl
  · cases accepted
    exact back

/-! ## Dumps that agree -/

theorem cut_injective {α : Type} {stop : α} {front front' back back' : List α}
    (plain : stop ∉ front) (plain' : stop ∉ front')
    (same : front ++ stop :: back = front' ++ stop :: back') : front = front' ∧ back = back' := by
  induction front generalizing front' with
  | nil =>
    cases front' with
    | nil => exact ⟨rfl, (List.cons.inj same).2⟩
    | cons a front' => exact absurd ((List.cons.inj same).1 ▸ List.mem_cons_self) plain'
  | cons a front ih =>
    cases front' with
    | nil => exact absurd ((List.cons.inj same).1 ▸ List.mem_cons_self) plain
    | cons b front' =>
      obtain ⟨rfl, rest⟩ := List.cons.inj same
      obtain ⟨rfl, rfl⟩ := ih (fun mem => plain (List.mem_cons_of_mem _ mem))
        (fun mem => plain' (List.mem_cons_of_mem _ mem)) rest
      exact ⟨rfl, rfl⟩

theorem terminated_injective {α : Type} {stop : α} {xs ys : List (List α)}
    (plain : ∀ x ∈ xs, stop ∉ x) (plain' : ∀ y ∈ ys, stop ∉ y)
    (same : xs.flatMap (· ++ [stop]) = ys.flatMap (· ++ [stop])) : xs = ys := by
  induction xs generalizing ys with
  | nil =>
    cases ys with
    | nil => rfl
    | cons y ys => simp at same
  | cons x xs ih =>
    cases ys with
    | nil => simp at same
    | cons y ys =>
      simp only [List.flatMap_cons, List.append_assoc, List.singleton_append] at same
      obtain ⟨rfl, rest⟩ := cut_injective (plain x List.mem_cons_self)
        (plain' y List.mem_cons_self) same
      rw [ih (fun l mem => plain l (List.mem_cons_of_mem _ mem))
        (fun l mem => plain' l (List.mem_cons_of_mem _ mem)) rest]

theorem name_plain (f : Field) : '=' ∉ f.name ∧ '\n' ∉ f.name := by cases f <;> decide

theorem name_injective : Function.Injective Field.name := by
  intro f g same
  cases f <;> cases g <;> first | rfl | exact absurd same (by decide)

theorem dumpLine_injective : Function.Injective dumpLine := by
  rintro ⟨f, val⟩ ⟨g, val'⟩ same
  obtain ⟨name, rest⟩ := cut_injective (name_plain f).1 (name_plain g).1 same
  obtain rfl := name_injective name
  obtain rfl : val = val' := List.append_cancel_right (List.cons.inj rest).2
  rfl

/-- **Dumps tell command lines apart.** Where no value runs over its line, two
accepted command lines are dumped alike exactly if every option has the same
text, value and count in both. -/
theorem dumps_agree_iff {w : Nat} {argv0 : CStr} {argv argv' : List CStr} {args args' : ArgsInfo}
    (accepted : cmdlineParser w argv0 argv = .ok args)
    (accepted' : cmdlineParser w argv0 argv' = .ok args')
    (plain : ∀ o ∈ options args, '\n' ∉ o.2) (plain' : ∀ o ∈ options args', '\n' ∉ o.2) :
    cmdlineParserDump args = cmdlineParserDump args' ↔ ∀ f : Field, f.get args = f.get args' := by
  have oneLine {args : ArgsInfo} (plain : ∀ o ∈ options args, '\n' ∉ o.2) :
      ∀ line ∈ (options args).map dumpLine, '\n' ∉ line := by
    intro line mem
    obtain ⟨o, given, rfl⟩ := List.mem_map.mp mem
    simp [dumpLine, (name_plain o.1).2, plain o given]
  constructor
  · intro same
    rw [accepted_dump accepted, accepted_dump accepted'] at same
    have lines := terminated_injective (oneLine plain) (oneLine plain') same
    have opts : options args = options args' := List.map_injective_iff.mpr dumpLine_injective lines
    have holds := accepted_options accepted
    have holds' := accepted_options accepted'
    rw [← opts] at holds'
    intro f
    by_cases given : f ∈ (options args).map Prod.fst
    · obtain ⟨o, mem, rfl⟩ := List.mem_map.mp given
      exact Except.ok.inj ((holds.set o mem).symm.trans (holds'.set o mem))
    · rw [holds.default f given, holds'.default f given]
  · intro same
    have source : Field.source args = Field.source args' := by
      funext f
      rw [Field.source, Field.source, same f]
    rw [accepted_dump accepted, accepted_dump accepted', options, options, source]

theorem dumps_agree_iff_tempos :
    ∃ args args', cmdlineParser 64 "tapper".toList ["-t".toList, "90".toList] = .ok args ∧
      cmdlineParser 64 "tapper".toList ["--tempo=0x5a".toList] = .ok args' ∧
      cmdlineParserDump args ≠ cmdlineParserDump args' := by
  obtain ⟨args, accepted⟩ : ∃ args, cmdlineParser 64 "tapper".toList
      ["-t".toList, "90".toList] = .ok args := ⟨_, rfl⟩
  obtain ⟨args', accepted'⟩ : ∃ args', cmdlineParser 64 "tapper".toList
      ["--tempo=0x5a".toList] = .ok args' := ⟨_, rfl⟩
  refine ⟨args, args', accepted, accepted', fun same => ?_⟩
  have agree := (dumps_agree_iff accepted accepted'
    (by cases accepted; decide) (by cases accepted'; decide)).mp same .tempo
  cases accepted
  cases accepted'
  exact absurd agree (by decide)

end Cmdline

end MidiGw
