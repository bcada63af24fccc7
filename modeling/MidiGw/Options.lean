import MidiGw.Cmdline
import Mathlib.Data.List.Perm.Basic

/-!
# What the command line means

The parser of `cmdline.c` against its meaning: which argument vectors are
accepted, what the arguments are then, and which element decides when they are
not. The six options are one family; each keeps its letter, its name and the
field it fills.
-/

namespace MidiGw

open C (CStr)

namespace Getopt

/-! ## What the scanner can return -/

/-- The long options stand for letters of the option string, with an argument
where those take one. -/
def Table.Consistent (t : Table) : Prop :=
  ∀ o ∈ t.longOptions, lookup t.optstring o.val = some o.hasArg

/-- An item has a letter of the option string, with an argument where it takes one. -/
def Item.Of (t : Table) : Item → Prop
  | .option c optarg => lookup t.optstring c = some optarg.isSome
  | .invalid => True

theorem cluster_items (t : Table) (cs : CStr) :
    (∀ item ∈ (cluster t.optstring cs).1, item.Of t) ∧
      ∀ c, (cluster t.optstring cs).2 = some c → lookup t.optstring c = some true := by
  induction cs with
  | nil => exact ⟨by simp [cluster], fun c waits => by cases waits⟩
  | cons c cs ih =>
    obtain ⟨items, waits⟩ := ih
    simp only [cluster]
    split
    · refine ⟨fun item mem => ?_, waits⟩
      cases List.mem_cons.mp mem with
      | inl new => rw [new]; trivial
      | inr old => exact items item old
    · rename_i flag
      refine ⟨fun item mem => ?_, waits⟩
      cases List.mem_cons.mp mem with
      | inl new => rw [new]; exact flag
      | inr old => exact items item old
    · rename_i takes
      split
      · exact ⟨by simp, fun d waits => by cases waits; exact takes⟩
      · refine ⟨fun item mem => ?_, fun d waits => by cases waits⟩
        rw [List.mem_singleton] at mem
        rw [mem]
        exact takes

theorem findLong_mem {table : List LongOption} {name : CStr} {o : LongOption}
    (found : findLong table name = some o) : o ∈ table := by
  unfold findLong at found
  split at found
  · rename_i named
    cases found
    exact List.mem_of_find?_eq_some named
  · split at found
    · rename_i o' only
      cases found
      have mem : o ∈ table.filter fun o => name.isPrefixOf o.name := by
        rw [only]
        exact List.mem_cons_self
      exact (List.mem_filter.mp mem).1
    · cases found

theorem long_items {t : Table} (consistent : t.Consistent) (body : CStr) :
    (∀ item ∈ (long t.longOptions body).1, item.Of t) ∧
      ∀ c, (long t.longOptions body).2 = some c → lookup t.optstring c = some true := by
  unfold long
  dsimp only
  split
  · exact ⟨by simp [Item.Of], fun c waits => by cases waits⟩
  · rename_i o found
    have known := consistent o (findLong_mem found)
    split
    · rename_i flag _
      refine ⟨fun item mem => ?_, fun c waits => by cases waits⟩
      rw [List.mem_singleton] at mem
      rw [mem]
      exact known.trans (congrArg some flag)
    · exact ⟨by simp [Item.Of], fun c waits => by cases waits⟩
    · rename_i takes _
      exact ⟨by simp, fun c waits => by cases waits; exact known.trans (congrArg some takes)⟩
    · rename_i takes _
      refine ⟨fun item mem => ?_, fun c waits => by cases waits⟩
      rw [List.mem_singleton] at mem
      rw [mem]
      exact known.trans (congrArg some takes)

theorem element_items {t : Table} (consistent : t.Consistent) {a : CStr} {items : List Item}
    {waits : Option Char} (here : element t a = .options items waits) :
    (∀ item ∈ items, item.Of t) ∧ ∀ c, waits = some c → lookup t.optstring c = some true := by
  unfold element at here
  split at here
  · cases here
  · cases here; exact long_items consistent _
  · cases here; exact cluster_items t _
  · cases here

/-- Whatever the argument vector is, the scanner only returns what its table has. -/
theorem scan_items {t : Table} (consistent : t.Consistent) (argv : List CStr) :
    ∀ waits : Option Char, (∀ c, waits = some c → lookup t.optstring c = some true) →
      ∀ item ∈ (scan t waits argv).1, item.Of t := by
  induction argv with
  | nil =>
    intro waits _ item mem
    cases waits with
    | none => cases mem
    | some c => rw [List.mem_singleton.mp mem]; trivial
  | cons a argv ih =>
    intro waits takes item mem
    cases waits with
    | some c =>
      cases List.mem_cons.mp mem with
      | inl new => rw [new]; exact takes c rfl
      | inr old => exact ih none (fun c waits => by cases waits) item old
    | none =>
      simp only [scan] at mem
      split at mem
      · cases mem
      · exact ih none (fun c waits => by cases waits) item mem
      · rename_i items waits here
        obtain ⟨own, waiting⟩ := element_items consistent here
        cases List.mem_append.mp mem with
        | inl now => exact own item now
        | inr later => exact ih waits waiting item later

end Getopt

namespace Cmdline

open Getopt (Item lookup)

/-! ## The six options -/

inductive Field where
  | serial | tempo | channel | message | value | repeats
  deriving DecidableEq, Repr

def Field.letter : Field → Char
  | .serial => 's'
  | .tempo => 't'
  | .channel => 'c'
  | .message => 'm'
  | .value => 'v'
  | .repeats => 'r'

def Field.name : Field → CStr
  | .serial => "serial".toList
  | .tempo => "tempo".toList
  | .channel => "channel".toList
  | .message => "message".toList
  | .value => "value".toList
  | .repeats => "repeats".toList

/-- What a field of `struct gengetopt_args_info` holds. -/
inductive Setting where
  | text (o : Opt CStr)
  | number (o : Opt Int32)
  deriving DecidableEq, Repr

def Setting.given : Setting → UInt32
  | .text o => o.given
  | .number o => o.given

def Setting.orig : Setting → Option CStr
  | .text o => o.orig
  | .number o => o.orig

def Setting.counted (n : UInt32) : Setting → Setting
  | .text o => .text { o with given := n }
  | .number o => .number { o with given := n }

def Field.get (args : ArgsInfo) : Field → Setting
  | .serial => .text args.serial
  | .tempo => .number args.tempo
  | .channel => .number args.channel
  | .message => .number args.message
  | .value => .number args.value
  | .repeats => .number args.repeats

/-- What an option with the argument `val` sets its field to. -/
def Field.read (w : Nat) (packageName val : CStr) : Field → Except CStr Setting
  | .serial => .ok (.text ⟨val, some val, 1⟩)
  | .tempo | .channel | .message | .value | .repeats =>
    (convertInt w packageName val).map fun n => .number ⟨n, some val, 1⟩

def Field.given (args : ArgsInfo) : Field → UInt32
  | .serial => args.serial.given
  | .tempo => args.tempo.given
  | .channel => args.channel.given
  | .message => args.message.given
  | .value => args.value.given
  | .repeats => args.repeats.given

/-- The diagnostic of an option that was given before. -/
def Field.twice (packageName : CStr) (f : Field) : CStr :=
  packageName ++ ": `--".toList ++ f.name ++ "' (`-".toList ++ [f.letter] ++
    "') option given more than once\n".toList

theorem get_ext {args args' : ArgsInfo} (same : ∀ f : Field, f.get args = f.get args')
    (inputs : args.inputs = args'.inputs) : args = args' := by
  have serial := same .serial
  have tempo := same .tempo
  have channel := same .channel
  have message := same .message
  have value := same .value
  have repeats := same .repeats
  simp only [Field.get, Setting.text.injEq, Setting.number.injEq] at *
  cases args
  cases args'
  simp_all

/-- An option of the family, as the scanner returns it. -/
def Field.item (o : Field × CStr) : Item := .option o.1.letter (some o.2)

theorem get_given (args : ArgsInfo) (f : Field) : (f.get args).given = f.given args := by
  cases f <;> rfl

theorem default_given (f : Field) : f.given cmdlineParserInit = 0 := by cases f <;> rfl

theorem read_orig {w : Nat} {packageName val : CStr} {f : Field} {s : Setting}
    (read : f.read w packageName val = .ok s) : s.given = 1 ∧ s.orig = some val := by
  cases f with
  | serial => cases read; exact ⟨rfl, rfl⟩
  | tempo | channel | message | value | repeats =>
    simp only [Field.read] at read
    cases number : convertInt w packageName val with
    | error e => rw [number] at read; cases read
    | ok n => rw [number] at read; cases read; exact ⟨rfl, rfl⟩

theorem read_counted {w : Nat} {packageName val : CStr} {f : Field} {s : Setting}
    (read : f.read w packageName val = .ok s) : s.counted 1 = s := by
  obtain ⟨given, -⟩ := read_orig read
  cases s with
  | text o => cases o; cases given; rfl
  | number o => cases o; cases given; rfl

/-! ## One option -/

/-- An option was seen before in this command line, or it is in the way. -/
def Again (p : Params) (args seen : ArgsInfo) (f : Field) : Prop :=
  f.given seen ≠ 0 ∨ p.checkAmbiguity = true ∧ f.given args ≠ 0

/-- What is there stays. -/
def Stays (p : Params) (args : ArgsInfo) (f : Field) : Prop :=
  f.given args ≠ 0 ∧ p.override = false

/-- An option changes its own field, and nothing else. -/
structure Puts (f : Field) (s : Setting) (args seen args' seen' : ArgsInfo) : Prop where
  inputs : args'.inputs = args.inputs
  own : f.get args' = s
  counted : f.given seen' = 1
  others : ∀ g : Field, g ≠ f → g.get args' = g.get args ∧ g.given seen' = g.given seen

inductive Updates (p : Params) (w : Nat) (packageName : CStr) (args seen : ArgsInfo) (f : Field)
    (val : CStr) : Except CStr (ArgsInfo × ArgsInfo) → Prop
  | refused (again : Again p args seen f) :
      Updates p w packageName args seen f val (.error (f.twice packageName))
  | stayed (first : ¬Again p args seen f) (stays : Stays p args f) :
      Updates p w packageName args seen f val (.ok (args, seen))
  | unread (first : ¬Again p args seen f) (moves : ¬Stays p args f) (e : CStr)
      (read : f.read w packageName val = .error e) :
      Updates p w packageName args seen f val (.error e)
  | put (first : ¬Again p args seen f) (moves : ¬Stays p args f) (s : Setting)
      (read : f.read w packageName val = .ok s) (args' seen' : ArgsInfo)
      (puts : Puts f (s.counted (f.given args + 1)) args seen args' seen') :
      Updates p w packageName args seen f val (.ok (args', seen'))

theorem updateArg_cases {α : Type} (p : Params) (convert : CStr → Except CStr α)
    (packageName longOpt : CStr) (shortOpt : Char) (field : Opt α) (prevGiven : UInt32)
    (val : CStr) :
    ((prevGiven ≠ 0 ∨ p.checkAmbiguity = true ∧ field.given ≠ 0) ∧
      updateArg p convert packageName longOpt shortOpt field prevGiven val =
        .error (packageName ++ ": `--".toList ++ longOpt ++ "' (`-".toList ++ [shortOpt] ++
          "') option given more than once\n".toList)) ∨
    ¬(prevGiven ≠ 0 ∨ p.checkAmbiguity = true ∧ field.given ≠ 0) ∧
      ((field.given ≠ 0 ∧ p.override = false) ∧
        updateArg p convert packageName longOpt shortOpt field prevGiven val =
          .ok (field, prevGiven) ∨
      ¬(field.given ≠ 0 ∧ p.override = false) ∧
        ((∃ e, convert val = .error e ∧
          updateArg p convert packageName longOpt shortOpt field prevGiven val = .error e) ∨
        ∃ a, convert val = .ok a ∧
          updateArg p convert packageName longOpt shortOpt field prevGiven val =
            .ok (⟨a, some val, field.given + 1⟩, prevGiven + 1))) := by
  by_cases again : prevGiven ≠ 0 ∨ p.checkAmbiguity = true ∧ field.given ≠ 0
  · exact .inl ⟨again, if_pos again⟩
  · refine .inr ⟨again, ?_⟩
    by_cases stays : field.given ≠ 0 ∧ p.override = false
    · exact .inl ⟨stays, (if_neg again).trans (if_pos stays)⟩
    · refine .inr ⟨stays, ?_⟩
      cases read : convert val with
      | error e =>
        refine .inl ⟨e, rfl, ?_⟩
        rw [updateArg, if_neg again, if_neg stays, read]
      | ok a =>
        refine .inr ⟨a, rfl, ?_⟩
        rw [updateArg, if_neg again, if_neg stays, read]

/-- A case of the switch, as the call of `update_arg` for its own field. -/
theorem updates_of {α : Type} {p : Params} {w : Nat} {packageName val : CStr}
    {args seen : ArgsInfo} {f : Field} {convert : CStr → Except CStr α} {field : Opt α}
    {store : Opt α × UInt32 → ArgsInfo × ArgsInfo} (setting : Opt α → Setting)
    (call : optionCase p w packageName args seen f.letter val =
      some ((updateArg p convert packageName f.name f.letter field (f.given seen) val).map store))
    (given : field.given = f.given args)
    (read : f.read w packageName val = (convert val).map fun a => setting ⟨a, some val, 1⟩)
    (same : store (field, f.given seen) = (args, seen))
    (puts : ∀ a, Puts f ((setting ⟨a, some val, 1⟩).counted (f.given args + 1)) args seen
      (store (⟨a, some val, f.given args + 1⟩, 1)).1
      (store (⟨a, some val, f.given args + 1⟩, 1)).2) :
    ∃ r, optionCase p w packageName args seen f.letter val = some r ∧
      Updates p w packageName args seen f val r := by
  refine ⟨_, call, ?_⟩
  rcases updateArg_cases p convert packageName f.name f.letter field (f.given seen) val with
    ⟨again, result⟩ | ⟨first, ⟨stays, result⟩ | ⟨moves, ⟨e, reads, result⟩ | ⟨a, reads, result⟩⟩⟩
  all_goals rw [result]
  all_goals rw [given] at *
  · exact .refused again
  · rw [Except.map, same]
    exact .stayed first stays
  · exact .unread first moves e (by rw [read, reads]; rfl)
  · have unseen : f.given seen = 0 := not_not.mp fun seen => first (.inl seen)
    have one : f.given seen + 1 = 1 := by rw [unseen]; rfl
    rw [one]
    exact .put first moves _ (by rw [read, reads]; rfl) _ _ (puts a)

theorem optionCase_updates (p : Params) (w : Nat) (packageName : CStr) (args seen : ArgsInfo)
    (f : Field) (val : CStr) :
    ∃ r, optionCase p w packageName args seen f.letter val = some r ∧
      Updates p w packageName args seen f val r := by
  cases f
  case serial =>
    refine updates_of .text rfl rfl rfl rfl fun a => ⟨rfl, rfl, rfl, fun g ne => ?_⟩
    cases g <;> first | exact absurd rfl ne | exact ⟨rfl, rfl⟩
  all_goals
    refine updates_of .number rfl rfl rfl rfl fun a => ⟨rfl, rfl, rfl, fun g ne => ?_⟩
    cases g <;> first | exact absurd rfl ne | exact ⟨rfl, rfl⟩

/-! ## The first element that decides -/

/-- Each option of the list is given once and sets its field; the other fields
have their defaults. -/
structure Holds (w : Nat) (packageName : CStr) (opts : List (Field × CStr)) (args : ArgsInfo) :
    Prop where
  once : (opts.map Prod.fst).Nodup
  set : ∀ o ∈ opts, o.1.read w packageName o.2 = .ok (o.1.get args)
  default : ∀ f, f ∉ opts.map Prod.fst → f.get args = f.get cmdlineParserInit

theorem Holds.add {w : Nat} {packageName val : CStr} {before : List (Field × CStr)}
    {f : Field} {s : Setting} {args seen args' seen' : ArgsInfo}
    (holds : Holds w packageName before args) (fresh : f ∉ before.map Prod.fst)
    (read : f.read w packageName val = .ok s) (puts : Puts f s args seen args' seen') :
    Holds w packageName (before ++ [(f, val)]) args' := by
  constructor
  · rw [List.map_append, List.map_singleton, List.nodup_append]
    refine ⟨holds.once, by simp, fun g mem g' last => ?_⟩
    rw [List.mem_singleton.mp last]
    rintro rfl
    exact fresh mem
  · intro o mem
    cases List.mem_append.mp mem with
    | inl old =>
      have apart : o.1 ≠ f := by
        rintro rfl
        exact fresh (List.mem_map_of_mem old)
      rw [(puts.others o.1 apart).1]
      exact holds.set o old
    | inr new =>
      rw [List.mem_singleton.mp new, puts.own]
      exact read
  · intro g absent
    rw [List.map_append, List.map_singleton, List.mem_append, List.mem_singleton, not_or] at absent
    rw [(puts.others g absent.2).1]
    exact holds.default g absent.1

/-- How the element behind some accepted options ends the parse. -/
inductive Decides (w : Nat) (packageName : CStr) (opts : List (Field × CStr)) :
    List Item → Parsed → Prop
  | help (optarg : Option CStr) (rest : List Item) :
      Decides w packageName opts (.option 'h' optarg :: rest) .help
  | version (optarg : Option CStr) (rest : List Item) :
      Decides w packageName opts (.option 'V' optarg :: rest) .version
  | invalid (rest : List Item) : Decides w packageName opts (.invalid :: rest) (.failure [])
  | twice (f : Field) (val : CStr) (rest : List Item) (before : f ∈ opts.map Prod.fst) :
      Decides w packageName opts (Field.item (f, val) :: rest) (.failure (f.twice packageName))
  | refused (f : Field) (val e : CStr) (rest : List Item) (fresh : f ∉ opts.map Prod.fst)
      (read : f.read w packageName val = .error e) :
      Decides w packageName opts (Field.item (f, val) :: rest) (.failure e)

theorem table_consistent : table.Consistent := by
  unfold Getopt.Table.Consistent
  decide

/-- The letters of the option string: the two that exit, and the six fields. -/
theorem letter_cases {c : Char} {takes : Bool} (known : lookup table.optstring c = some takes) :
    takes = false ∧ (c = 'h' ∨ c = 'V') ∨ takes = true ∧ ∃ f : Field, c = f.letter := by
  have letters : table.optstring =
      ['h', 'V', 's', ':', 't', ':', 'c', ':', 'm', ':', 'v', ':', 'r', ':'] := rfl
  rw [letters] at known
  simp [lookup] at known
  split at known
  · rename_i e; cases known; exact .inl ⟨rfl, .inl e.symm⟩
  split at known
  · rename_i e; cases known; exact .inl ⟨rfl, .inr e.symm⟩
  right
  split at known
  · rename_i e; cases known; exact ⟨rfl, .serial, e.symm⟩
  split at known
  · rename_i e; cases known; exact ⟨rfl, .tempo, e.symm⟩
  split at known
  · rename_i e; cases known; exact ⟨rfl, .channel, e.symm⟩
  split at known
  · rename_i e; cases known; exact ⟨rfl, .message, e.symm⟩
  split at known
  · rename_i e; cases known; exact ⟨rfl, .value, e.symm⟩
  split at known
  · rename_i e; cases known; exact ⟨rfl, .repeats, e.symm⟩
  · cases known

theorem parseItems_field (p : Params) (w : Nat) (packageName : CStr) (args seen : ArgsInfo)
    (o : Field × CStr) (items : List Item) :
    parseItems p w packageName args seen (Field.item o :: items) =
      match optionCase p w packageName args seen o.1.letter o.2 with
      | none => .aborted
      | some (.error e) => .failure e
      | some (.ok (args', seen')) => parseItems p w packageName args' seen' items := by
  obtain ⟨f, val⟩ := o
  cases f <;> rfl

/-- The loop behind some accepted options: it accepts the rest, or the first
element that it does not accept decides. -/
theorem parseItems_decided {p : Params} {w : Nat} {packageName : CStr} {items : List Item}
    (known : ∀ item ∈ items, item.Of table) {before : List (Field × CStr)}
    {args seen : ArgsInfo} (holds : Holds w packageName before args)
    (counted : ∀ f : Field, f.given args = f.given seen ∧
      (f.given seen ≠ 0 ↔ f ∈ before.map Prod.fst)) :
    ∃ opts rest args', items = opts.map Field.item ++ rest ∧
      Holds w packageName (before ++ opts) args' ∧ args'.inputs = args.inputs ∧
      (rest = [] ∧ parseItems p w packageName args seen items = .ok args' ∨
        Decides w packageName (before ++ opts) rest
          (parseItems p w packageName args seen items)) := by
  induction items generalizing before args seen with
  | nil => exact ⟨[], [], args, rfl, by simpa using holds, rfl, .inl ⟨rfl, rfl⟩⟩
  | cons item items ih =>
    have stops (decides : Decides w packageName before (item :: items)
        (parseItems p w packageName args seen (item :: items))) :
        ∃ opts rest args', item :: items = opts.map Field.item ++ rest ∧
          Holds w packageName (before ++ opts) args' ∧ args'.inputs = args.inputs ∧
          (rest = [] ∧ parseItems p w packageName args seen (item :: items) = .ok args' ∨
            Decides w packageName (before ++ opts) rest
              (parseItems p w packageName args seen (item :: items))) :=
      ⟨[], item :: items, args, rfl, by simpa using holds, rfl, .inr (by simpa using decides)⟩
    cases item with
    | invalid => exact stops (.invalid items)
    | option c optarg =>
      have here := known (.option c optarg) List.mem_cons_self
      obtain ⟨-, rfl | rfl⟩ | ⟨takes, f, rfl⟩ := letter_cases here
      · exact stops (.help optarg items)
      · exact stops (.version optarg items)
      · obtain ⟨val, rfl⟩ := Option.isSome_iff_exists.mp takes
        have loop := parseItems_field p w packageName args seen (f, val) items
        rw [Field.item] at loop
        obtain ⟨r, taken, updates⟩ := optionCase_updates p w packageName args seen f val
        rw [taken] at loop
        have fresh (first : ¬Again p args seen f) : f.given seen = 0 ∧ f ∉ before.map Prod.fst :=
          have unseen : ¬f.given seen ≠ 0 := fun given => first (.inl given)
          ⟨not_not.mp unseen, fun mem => unseen ((counted f).2.mpr mem)⟩
        cases updates with
        | refused again =>
          have before' : f ∈ before.map Prod.fst := by
            apply (counted f).2.mp
            rcases again with seen | ⟨-, there⟩
            · exact seen
            · exact (counted f).1 ▸ there
          apply stops
          rw [loop]
          exact .twice f val items before'
        | stayed first stays =>
          exact absurd ((counted f).1.trans (fresh first).1) stays.1
        | unread first moves e read =>
          apply stops
          rw [loop]
          exact .refused f val e items (fresh first).2 read
        | put first moves s read args' seen' puts =>
          have absent : f.given args = 0 := (counted f).1.trans (fresh first).1
          rw [absent, UInt32.zero_add, read_counted read] at puts
          have counted' : ∀ g : Field, g.given args' = g.given seen' ∧
              (g.given seen' ≠ 0 ↔ g ∈ (before ++ [(f, val)]).map Prod.fst) := by
            intro g
            by_cases self : g = f
            · subst self
              rw [← get_given, puts.own, (read_orig read).1, puts.counted]
              simp
            · obtain ⟨inArgs, inSeen⟩ := puts.others g self
              rw [← get_given, inArgs, get_given, inSeen, List.map_append, List.mem_append]
              simpa [self] using counted g
          obtain ⟨opts, rest, last, split, holds', inputs, ends⟩ :=
            ih (fun item mem => known item (List.mem_cons_of_mem _ mem))
              (holds.add (fresh first).2 read puts) counted'
          refine ⟨(f, val) :: opts, rest, last, by rw [split]; rfl, by simpa using holds',
            inputs.trans puts.inputs, ?_⟩
          rw [loop]
          simpa using ends

theorem cmdlineParser_decided (w : Nat) (argv0 : CStr) (argv : List CStr) :
    ∃ opts rest args, (Getopt.scan table none argv).1 = opts.map Field.item ++ rest ∧
      Holds w argv0 opts args ∧ args.inputs = (Getopt.scan table none argv).2 ∧
      (rest = [] ∧ cmdlineParser w argv0 argv = .ok args ∨
        Decides w argv0 opts rest (cmdlineParser w argv0 argv)) := by
  have known := Getopt.scan_items table_consistent argv none fun c waits => by cases waits
  have empty : Holds w argv0 [] cmdlineParserInit := ⟨List.nodup_nil, by simp, fun _ _ => rfl⟩
  obtain ⟨opts, rest, args, split, holds, inputs, ends⟩ :=
    @parseItems_decided cmdlineParserParamsInit w argv0 _ known [] cmdlineParserInit
      cmdlineParserInit empty fun f => by simp [default_given]
  rw [List.nil_append] at holds ends
  have carried : Holds w argv0 opts { args with inputs := (Getopt.scan table none argv).2 } :=
    ⟨holds.once, fun o mem => (holds.set o mem).trans (by cases o.1 <;> rfl),
      fun f absent => Eq.trans (by cases f <;> rfl) (holds.default f absent)⟩
  refine ⟨opts, rest, _, split, carried, rfl, ?_⟩
  unfold cmdlineParser
  dsimp only
  rcases ends with ⟨empty, accepted⟩ | decides
  · left
    rw [accepted]
    exact ⟨empty, rfl⟩
  · right
    revert decides
    generalize parseItems cmdlineParserParamsInit w argv0 cmdlineParserInit cmdlineParserInit
      (Getopt.scan table none argv).1 = result
    intro decides
    cases decides with
    | help optarg rest => exact .help optarg rest
    | version optarg rest => exact .version optarg rest
    | invalid rest => exact .invalid rest
    | twice f val rest before => exact .twice f val rest before
    | refused f val e rest fresh read => exact .refused f val e rest fresh read

/-! ## What is accepted -/

theorem Holds.unique {w : Nat} {packageName : CStr} {opts : List (Field × CStr)}
    {args args' : ArgsInfo} (h : Holds w packageName opts args)
    (h' : Holds w packageName opts args') (inputs : args.inputs = args'.inputs) :
    args = args' := by
  apply get_ext _ inputs
  intro f
  by_cases given : f ∈ opts.map Prod.fst
  · obtain ⟨o, mem, rfl⟩ := List.mem_map.mp given
    exact Except.ok.inj ((h.set o mem).symm.trans (h'.set o mem))
  · rw [h.default f given, h'.default f given]

/-- What is accepted depends on which options there are, not on their order. -/
theorem Holds.perm {w : Nat} {packageName : CStr} {opts opts' : List (Field × CStr)}
    {args : ArgsInfo} (h : Holds w packageName opts args) (perm : opts.Perm opts') :
    Holds w packageName opts' args where
  once := ((perm.map Prod.fst).nodup_iff).mp h.once
  set o mem := h.set o (perm.mem_iff.mpr mem)
  default f absent := h.default f fun given => absent ((perm.map Prod.fst).mem_iff.mp given)

theorem item_injective : Function.Injective Field.item := by
  rintro ⟨f, val⟩ ⟨f', val'⟩ same
  simp only [Field.item, Item.option.injEq, Option.some.injEq] at same
  obtain ⟨letter, rfl⟩ := same
  have : f = f' := by
    cases f <;> cases f' <;> first | rfl | exact absurd letter (by decide)
  rw [this]

/-- What follows accepted options and decides is no further accepted option. -/
theorem Decides.not_accepted {w : Nat} {packageName : CStr} {opts opts' : List (Field × CStr)}
    {rest : List Item} {result : Parsed} {args : ArgsInfo}
    (h : Decides w packageName opts rest result)
    (all : opts'.map Field.item = opts.map Field.item ++ rest) :
    ¬Holds w packageName opts' args := by
  intro holds
  obtain ⟨front, back, rfl, same, rfl⟩ := List.map_eq_append_iff.mp all
  rw [List.map_inj_right fun _ _ e => item_injective e] at same
  subst same
  cases back with
  | nil => cases h
  | cons o back =>
    rw [List.map_cons] at h
    have other (c : Char) (letter : ∀ f : Field, f.letter ≠ c) (optarg : Option CStr) :
        Field.item o ≠ .option c optarg := by
      intro e
      exact letter o.1 (Item.option.inj e).1
    generalize first : Field.item o = item at h
    cases h with
    | help optarg => exact other 'h' (by intro f; cases f <;> decide) optarg first
    | version optarg => exact other 'V' (by intro f; cases f <;> decide) optarg first
    | invalid => cases first
    | twice f val _ before =>
      obtain rfl := item_injective first
      have once := holds.once
      rw [List.map_append, List.map_cons, List.nodup_append] at once
      exact once.2.2 f before f List.mem_cons_self rfl
    | refused f val e _ fresh read =>
      obtain rfl := item_injective first
      have set := holds.set (f, val) (by simp)
      rw [read] at set
      cases set

theorem cmdlineParser_accepted (w : Nat) (argv0 : CStr) (argv : List CStr) (args : ArgsInfo) :
    cmdlineParser w argv0 argv = .ok args ↔
      ∃ opts, (Getopt.scan table none argv).1 = opts.map Field.item ∧ Holds w argv0 opts args ∧
        args.inputs = (Getopt.scan table none argv).2 := by
  obtain ⟨opts, rest, args', split, holds, inputs, ends⟩ := cmdlineParser_decided w argv0 argv
  constructor
  · intro accepted
    rcases ends with ⟨rfl, same⟩ | decides
    · rw [same] at accepted
      cases accepted
      exact ⟨opts, by simpa using split, holds, inputs⟩
    · rw [accepted] at decides
      cases decides
  · rintro ⟨all, same, holds', inputs'⟩
    rcases ends with ⟨rfl, accepted⟩ | decides
    · rw [List.append_nil, same, List.map_inj_right fun _ _ e => item_injective e] at split
      subst split
      rw [accepted, holds.unique holds' (inputs.trans inputs'.symm)]
    · exact absurd holds' (decides.not_accepted (same.symm.trans split))

/-- **What a command line means.** On any argument vector the parser accepts
some options, each once, and the first element that is none decides: help,
version, one that `getopt_long` refuses, an option given again, or an argument
that is no number. It never runs into its `abort`. It returns exactly when all
elements are accepted options, with the arguments that these say and a default
for every other field. -/
theorem command_line_meaning (w : Nat) (argv0 : CStr) (argv : List CStr) :
    (∃ opts rest args, (Getopt.scan table none argv).1 = opts.map Field.item ++ rest ∧
      Holds w argv0 opts args ∧
      (rest = [] ∧ cmdlineParser w argv0 argv = .ok args ∨
        Decides w argv0 opts rest (cmdlineParser w argv0 argv))) ∧
    ∀ args, cmdlineParser w argv0 argv = .ok args ↔
      ∃ opts, (Getopt.scan table none argv).1 = opts.map Field.item ∧ Holds w argv0 opts args ∧
        args.inputs = (Getopt.scan table none argv).2 := by
  obtain ⟨opts, rest, args, split, holds, -, ends⟩ := cmdlineParser_decided w argv0 argv
  exact ⟨⟨opts, rest, args, split, holds, ends⟩, cmdlineParser_accepted w argv0 argv⟩

theorem exists_map_of_perm {α β : Type} {f : α → β} {xs : List α} {ys : List β}
    (perm : (xs.map f).Perm ys) : ∃ zs : List α, ys = zs.map f := by
  have image : ∀ y ∈ ys, ∃ x, f x = y := by
    intro y mem
    obtain ⟨x, -, same⟩ := List.mem_map.mp (perm.mem_iff.mpr mem)
    exact ⟨x, same⟩
  clear perm
  induction ys with
  | nil => exact ⟨[], rfl⟩
  | cons y ys ih =>
    obtain ⟨x, rfl⟩ := image y List.mem_cons_self
    obtain ⟨zs, rfl⟩ := ih fun y mem => image y (List.mem_cons_of_mem _ mem)
    exact ⟨x :: zs, rfl⟩

/-- **Options in any order.** Two command lines with the same options in another
order, written in whatever way, and the same inputs are accepted alike and mean
the same. -/
theorem options_in_any_order (w : Nat) (argv0 : CStr) {argv argv' : List CStr}
    (perm : (Getopt.scan table none argv).1.Perm (Getopt.scan table none argv').1)
    (inputs : (Getopt.scan table none argv).2 = (Getopt.scan table none argv').2)
    (args : ArgsInfo) :
    cmdlineParser w argv0 argv = .ok args ↔ cmdlineParser w argv0 argv' = .ok args := by
  have one_way {argv argv' : List CStr}
      (perm : (Getopt.scan table none argv).1.Perm (Getopt.scan table none argv').1)
      (inputs : (Getopt.scan table none argv).2 = (Getopt.scan table none argv').2)
      (accepted : cmdlineParser w argv0 argv = .ok args) :
      cmdlineParser w argv0 argv' = .ok args := by
    obtain ⟨opts, items, holds, same⟩ := (cmdlineParser_accepted w argv0 argv args).mp accepted
    rw [items] at perm
    obtain ⟨opts', items'⟩ := exists_map_of_perm perm
    rw [items'] at perm
    have perm' : opts.Perm opts' := (List.map_perm_map_iff item_injective).mp perm
    exact (cmdlineParser_accepted w argv0 argv' args).mpr
      ⟨opts', items', holds.perm perm', same.trans inputs⟩
  exact ⟨one_way perm inputs, one_way perm.symm inputs.symm⟩

theorem options_in_any_order_two :
    cmdlineParser 64 "tapper".toList ["--channel".toList, "2".toList, "-t90".toList] =
      cmdlineParser 64 "tapper".toList ["-t".toList, "90".toList, "--chan=2".toList] := by
  obtain ⟨args, accepted⟩ : ∃ args, cmdlineParser 64 "tapper".toList
      ["--channel".toList, "2".toList, "-t90".toList] = .ok args := ⟨_, rfl⟩
  rw [accepted]
  exact ((options_in_any_order 64 "tapper".toList (by decide) rfl args).mp accepted).symm

end Cmdline

end MidiGw
