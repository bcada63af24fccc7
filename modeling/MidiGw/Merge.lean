import MidiGw.Dump

/-!
# Parsing into arguments that are there

`cmdline_parser_internal` with all its parameters, of which `cmdline_parser` is
one case: a command line is parsed into arguments that may come from another
one. Which options of it count then, and when the result is that of a single
command line.
-/

namespace MidiGw.Cmdline

open C (CStr)
open Getopt (Item)

/-! ## The parser with its parameters -/

/-- `cmdline_parser_internal` -/
def cmdlineParserInternal (p : Params) (w : Nat) (argv0 : CStr) (argv : List CStr)
    (argsInfo : ArgsInfo) : Parsed :=
  let argsInfo := if p.initializes then cmdlineParserInit else argsInfo
  let (items, inputs) := Getopt.scan table none argv
  match parseItems p w argv0 argsInfo cmdlineParserInit items with
  | .ok args => .ok (if inputs = [] then args else { args with inputs := inputs })
  | stop => stop

/-- `cmdline_parser2` -/
def cmdlineParser2 (w : Nat) (argv0 : CStr) (argv : List CStr) (argsInfo : ArgsInfo)
    (override initializes checkRequired : Bool) : Parsed :=
  cmdlineParserInternal ⟨override, initializes, checkRequired, false, true⟩ w argv0 argv argsInfo

/-! ## A whole command line -/

/-- The options that change what is there: all of them with `override`, and
otherwise those of which nothing is there. -/
def moving (p : Params) (args : ArgsInfo) (opts : List (Field × CStr)) : List (Field × CStr) :=
  opts.filter fun o => p.override || o.1.given args == 0

/-- The options are put into the arguments, each once, and the rest stays. -/
structure Merges (w : Nat) (packageName : CStr) (opts : List (Field × CStr))
    (args args' : ArgsInfo) : Prop where
  once : (opts.map Prod.fst).Nodup
  set : ∀ o ∈ opts, ∃ s, o.1.read w packageName o.2 = .ok s ∧
    o.1.get args' = s.counted (o.1.given args + 1)
  kept : ∀ f, f ∉ opts.map Prod.fst → f.get args' = f.get args
  inputs : args'.inputs = args.inputs

theorem mem_moving {p : Params} {args : ArgsInfo} {opts : List (Field × CStr)} {o : Field × CStr} :
    o ∈ moving p args opts ↔ o ∈ opts ∧ ¬Stays p args o.1 := by
  unfold moving Stays
  rw [List.mem_filter]
  cases p.override <;> simp

/-- An option that moves, in front of others. -/
theorem Merges.cons_iff {w : Nat} {packageName : CStr} {f : Field} {val : CStr}
    {opts : List (Field × CStr)} {args seen mid seen' args' : ArgsInfo} {s : Setting}
    (read : f.read w packageName val = .ok s)
    (puts : Puts f (s.counted (f.given args + 1)) args seen mid seen') (apart : f ∉ opts.map Prod.fst) :
    Merges w packageName opts mid args' ↔ Merges w packageName ((f, val) :: opts) args args' := by
  have others {o : Field × CStr} (mem : o ∈ opts) : o.1 ≠ f := by
    rintro rfl
    exact apart (List.mem_map_of_mem mem)
  have given {o : Field × CStr} (mem : o ∈ opts) : o.1.given mid = o.1.given args := by
    rw [← get_given, ← get_given, (puts.others o.1 (others mem)).1]
  constructor
  · intro h
    refine ⟨List.nodup_cons.mpr ⟨apart, h.once⟩, fun o mem => ?_, fun g absent => ?_,
      h.inputs.trans puts.inputs⟩
    · cases List.mem_cons.mp mem with
      | inl first =>
        rw [first]
        exact ⟨s, read, (h.kept f apart).trans puts.own⟩
      | inr later =>
        rw [← given later]
        exact h.set o later
    · rw [List.map_cons, List.mem_cons, not_or] at absent
      exact (h.kept g absent.2).trans (puts.others g absent.1).1
  · intro h
    refine ⟨(List.nodup_cons.mp h.once).2, fun o mem => ?_, fun g absent => ?_,
      h.inputs.trans puts.inputs.symm⟩
    · rw [given mem]
      exact h.set o (List.mem_cons_of_mem _ mem)
    · by_cases self : g = f
      · subst self
        obtain ⟨s', read', own⟩ := h.set (g, val) List.mem_cons_self
        cases read.symm.trans read'
        exact own.trans puts.own.symm
      · rw [h.kept g (by simp [self, absent]), (puts.others g self).1]

/-- What the loop makes of options only. -/
theorem parseItems_fields {p : Params} {w : Nat} {packageName : CStr}
    {opts : List (Field × CStr)} {args seen args' : ArgsInfo} :
    parseItems p w packageName args seen (opts.map Field.item) = .ok args' ↔
      (∀ o ∈ opts, ¬Again p args seen o.1) ∧ Merges w packageName (moving p args opts) args args' := by
  induction opts generalizing args seen with
  | nil =>
    simp only [List.map_nil, parseItems, Parsed.ok.injEq, List.not_mem_nil, false_implies,
      implies_true, true_and]
    constructor
    · rintro rfl
      exact ⟨List.nodup_nil, by simp [moving], fun _ _ => rfl, rfl⟩
    · intro h
      exact get_ext (fun f => (h.kept f (by simp [moving])).symm) h.inputs.symm
  | cons o opts ih =>
    obtain ⟨f, val⟩ := o
    obtain ⟨r, taken, updates⟩ := optionCase_updates p w packageName args seen f val
    rw [List.map_cons, parseItems_field, taken]
    cases updates with
    | refused again =>
      simp only [reduceCtorEq, false_iff]
      rintro ⟨first, -⟩
      exact first (f, val) List.mem_cons_self again
    | unread first moves e read =>
      simp only [reduceCtorEq, false_iff]
      rintro ⟨-, merges⟩
      obtain ⟨s, read', -⟩ := merges.set (f, val) (mem_moving.mpr ⟨List.mem_cons_self, moves⟩)
      rw [read] at read'
      cases read'
    | stayed first stays =>
      have same : moving p args ((f, val) :: opts) = moving p args opts := by
        apply List.filter_cons_of_neg
        simpa [Stays] using And.intro stays.2 stays.1
      dsimp only
      rw [ih, same]
      simp [first]
    | put first moves s read mid seen' puts =>
      have more : moving p args ((f, val) :: opts) = (f, val) :: moving p args opts := by
        apply List.filter_cons_of_pos
        have free := (@mem_moving p args [(f, val)] (f, val)).mpr ⟨List.mem_cons_self, moves⟩
        exact (List.mem_filter.mp free).2
      dsimp only
      rw [ih, more]
      by_cases again : f ∈ opts.map Prod.fst
      · -- the option is given twice: the second one is refused
        obtain ⟨o, mem, same⟩ := List.mem_map.mp again
        constructor
        · rintro ⟨fresh, -⟩
          apply absurd _ (fresh o mem)
          rw [same]
          exact .inl (by rw [puts.counted]; decide)
        · rintro ⟨-, merges⟩
          apply absurd _ (List.nodup_cons.mp merges.once).1
          apply List.mem_map.mpr
          exact ⟨o, mem_moving.mpr ⟨mem, same ▸ moves⟩, same⟩
      · have apart {o : Field × CStr} (mem : o ∈ opts) : o.1 ≠ f := by
          rintro rfl
          exact again (List.mem_map_of_mem mem)
        have given {o : Field × CStr} (mem : o ∈ opts) : o.1.given mid = o.1.given args := by
          rw [← get_given, ← get_given, (puts.others o.1 (apart mem)).1]
        have rest : moving p mid opts = moving p args opts := by
          apply List.filter_congr
          intro o mem
          rw [given mem]
        have fresh : (∀ o ∈ opts, ¬Again p mid seen' o.1) ↔
            ∀ o ∈ (f, val) :: opts, ¬Again p args seen o.1 := by
          have each {o : Field × CStr} (mem : o ∈ opts) :
              Again p mid seen' o.1 ↔ Again p args seen o.1 := by
            unfold Again
            rw [given mem, (puts.others o.1 (apart mem)).2]
          constructor
          · intro all o mem
            cases List.mem_cons.mp mem with
            | inl first' => rw [first']; exact first
            | inr later => exact fun bad => all o later ((each later).mpr bad)
          · intro all o mem bad
            exact all o (List.mem_cons_of_mem _ mem) ((each mem).mp bad)
        have out : f ∉ (moving p args opts).map Prod.fst := by
          intro mem
          obtain ⟨o, inside, same⟩ := List.mem_map.mp mem
          exact apart (mem_moving.mp inside).1 same
        rw [rest, fresh, Merges.cons_iff read puts out]

theorem parseItems_options {p : Params} {w : Nat} {packageName : CStr} {items : List Item}
    (known : ∀ item ∈ items, item.Of table) {args seen args' : ArgsInfo}
    (accepted : parseItems p w packageName args seen items = .ok args') :
    ∃ opts : List (Field × CStr), items = opts.map Field.item := by
  induction items generalizing args seen with
  | nil => exact ⟨[], rfl⟩
  | cons item items ih =>
    cases item with
    | invalid => cases accepted
    | option c optarg =>
      have here := known (.option c optarg) List.mem_cons_self
      obtain ⟨-, rfl | rfl⟩ | ⟨takes, f, rfl⟩ := letter_cases here
      · cases accepted
      · cases accepted
      · obtain ⟨val, rfl⟩ := Option.isSome_iff_exists.mp takes
        have loop := parseItems_field p w packageName args seen (f, val) items
        rw [Field.item] at loop
        rw [loop] at accepted
        split at accepted
        · cases accepted
        · cases accepted
        · obtain ⟨opts, rfl⟩ := ih (fun item mem => known item (List.mem_cons_of_mem _ mem)) accepted
          exact ⟨(f, val) :: opts, rfl⟩

/-- A whole argument vector, parsed into arguments that are there. -/
theorem parsed_iff_merges (p : Params) (w : Nat) (argv0 : CStr) (argv : List CStr)
    (args merged : ArgsInfo) :
    parseItems p w argv0 args cmdlineParserInit (Getopt.scan table none argv).1 = .ok merged ↔
      ∃ opts, (Getopt.scan table none argv).1 = opts.map Field.item ∧
        (p.checkAmbiguity = true → ∀ o ∈ opts, o.1.given args = 0) ∧
        Merges w argv0 (moving p args opts) args merged := by
  have known := Getopt.scan_items table_consistent argv none (fun c waits => by cases waits)
  have unseen (f : Field) :
      ¬Again p args cmdlineParserInit f ↔ (p.checkAmbiguity = true → f.given args = 0) := by
    simp [Again, default_given]
  constructor
  · intro parsed
    obtain ⟨opts, items⟩ := parseItems_options known parsed
    rw [items, parseItems_fields] at parsed
    exact ⟨opts, items, fun ambiguous o mem => (unseen o.1).mp (parsed.1 o mem) ambiguous, parsed.2⟩
  · rintro ⟨opts, items, free, merges⟩
    rw [items, parseItems_fields]
    exact ⟨fun o mem => (unseen o.1).mpr fun ambiguous => free ambiguous o mem, merges⟩

/-- The inputs are put in behind the options. -/
theorem internal_iff_parsed (p : Params) (w : Nat) (argv0 : CStr) (argv : List CStr)
    (args args' : ArgsInfo) :
    cmdlineParserInternal p w argv0 argv args = .ok args' ↔
      ∃ merged, parseItems p w argv0 (if p.initializes then cmdlineParserInit else args)
          cmdlineParserInit (Getopt.scan table none argv).1 = .ok merged ∧
        args' = if (Getopt.scan table none argv).2 = [] then merged
          else { merged with inputs := (Getopt.scan table none argv).2 } := by
  unfold cmdlineParserInternal
  dsimp only
  constructor
  · intro accepted
    split at accepted
    · rename_i merged parsed
      exact ⟨merged, parsed, (Parsed.ok.inj accepted).symm⟩
    · rename_i stops
      exact absurd accepted (stops _)
  · rintro ⟨merged, parsed, rfl⟩
    rw [parsed]

/-- **Parsing into arguments that are there.** The parser returns exactly when
every element is an option and, of those that move what is there (all of them
with `override`, otherwise those of which nothing is there), none comes twice
and none is refused; with `check_ambiguity`, nothing may be there of any. Each
of these then holds its own value and counts one more, from the last number on
to 0 again, and all else stays, the inputs included where there are none. Options that do not move anything are
not even read, and may come twice. -/
theorem merged_arguments (p : Params) (w : Nat) (argv0 : CStr) (argv : List CStr)
    (args args' : ArgsInfo) :
    cmdlineParserInternal p w argv0 argv args = .ok args' ↔
      ∃ opts merged, (Getopt.scan table none argv).1 = opts.map Field.item ∧
        (p.checkAmbiguity = true → ∀ o ∈ opts,
          o.1.given (if p.initializes then cmdlineParserInit else args) = 0) ∧
        Merges w argv0 (moving p (if p.initializes then cmdlineParserInit else args) opts)
          (if p.initializes then cmdlineParserInit else args) merged ∧
        args' = if (Getopt.scan table none argv).2 = [] then merged
          else { merged with inputs := (Getopt.scan table none argv).2 } := by
  rw [internal_iff_parsed]
  simp only [parsed_iff_merges]
  constructor
  · rintro ⟨merged, ⟨opts, items, free, merges⟩, same⟩
    exact ⟨opts, merged, items, free, merges, same⟩
  · rintro ⟨opts, merged, items, free, merges, same⟩
    exact ⟨merged, ⟨opts, items, free, merges⟩, same⟩

/-! ## One line, and two -/

theorem parseItems_inputs {w : Nat} {argv0 : CStr} {argv : List CStr} {args args' : ArgsInfo}
    {p : Params} {seen : ArgsInfo}
    (parsed : parseItems p w argv0 args seen (Getopt.scan table none argv).1 = .ok args') :
    args'.inputs = args.inputs := by
  have known := Getopt.scan_items table_consistent argv none (fun c waits => by cases waits)
  obtain ⟨opts, items⟩ := parseItems_options known parsed
  rw [items, parseItems_fields] at parsed
  exact parsed.2.inputs

/-- `cmdline_parser` is `cmdline_parser2` with its three numbers, whatever the
structure held before. -/
theorem cmdlineParser_eq (w : Nat) (argv0 : CStr) (argv : List CStr) (argsInfo : ArgsInfo) :
    cmdlineParser2 w argv0 argv argsInfo false true true = cmdlineParser w argv0 argv := by
  have params : (⟨false, true, true, false, true⟩ : Params) = cmdlineParserParamsInit := rfl
  simp only [cmdlineParser2, cmdlineParserInternal, cmdlineParser, params, ↓reduceIte]
  cases parsed : parseItems cmdlineParserParamsInit w argv0 cmdlineParserInit
      cmdlineParserInit (Getopt.scan table none argv).1 with
  | ok args =>
    have inputs : args.inputs = [] := parseItems_inputs parsed
    dsimp only
    split
    · rename_i empty
      rw [empty, ← inputs]
    · rfl
  | help | version | failure | aborted => rfl

theorem get_inputs (args : ArgsInfo) (inputs : List CStr) (f : Field) :
    f.get { args with inputs := inputs } = f.get args := by cases f <;> rfl

theorem Holds.with_inputs {w : Nat} {packageName : CStr} {opts : List (Field × CStr)}
    {args : ArgsInfo} {inputs : List CStr} :
    Holds w packageName opts { args with inputs := inputs } ↔ Holds w packageName opts args := by
  constructor
  · rintro ⟨once, set, default⟩
    simp only [get_inputs] at set default
    exact ⟨once, set, default⟩
  · rintro ⟨once, set, default⟩
    refine ⟨once, ?_, ?_⟩
    all_goals simp only [get_inputs]
    · exact set
    · exact default

/-- Options of which nothing is there are put into accepted arguments: the
result holds both. -/
theorem merges_iff_holds {w : Nat} {packageName : CStr} {new : List (Field × CStr)}
    {args merged : ArgsInfo} (holds : Holds w packageName (options args) args)
    (fresh : ∀ o ∈ new, o.1.given args = 0) (inputs : merged.inputs = args.inputs) :
    Merges w packageName new args merged ↔ Holds w packageName (options args ++ new) merged := by
  have apart : ∀ f ∈ (options args).map Prod.fst, f ∉ new.map Prod.fst := by
    intro f there here
    obtain ⟨o, mem, rfl⟩ := List.mem_map.mp there
    obtain ⟨o', mem', same⟩ := List.mem_map.mp here
    have given := (mem_options.mp mem).1
    rw [get_given, ← same] at given
    exact given (fresh o' mem')
  constructor
  · intro merges
    refine ⟨?_, fun o mem => ?_, fun f absent => ?_⟩
    · rw [List.map_append, List.nodup_append]
      refine ⟨holds.once, merges.once, fun f there g here => ?_⟩
      rintro rfl
      exact apart f there here
    · cases List.mem_append.mp mem with
      | inl old =>
        rw [merges.kept o.1 (apart o.1 (List.mem_map_of_mem old))]
        exact holds.set o old
      | inr added =>
        obtain ⟨s, read, own⟩ := merges.set o added
        rw [own, fresh o added, UInt32.zero_add, read_counted read]
        exact read
    · rw [List.map_append, List.mem_append, not_or] at absent
      rw [merges.kept f absent.2, holds.default f absent.1]
  · intro both
    have once := both.once
    rw [List.map_append, List.nodup_append] at once
    refine ⟨once.2.1, fun o mem => ?_, fun f absent => ?_, inputs⟩
    · have read := both.set o (List.mem_append_right _ mem)
      exact ⟨_, read, by rw [fresh o mem, UInt32.zero_add, read_counted read]⟩
    · by_cases there : f ∈ (options args).map Prod.fst
      · obtain ⟨o, mem, rfl⟩ := List.mem_map.mp there
        have now := both.set o (List.mem_append_left _ mem)
        exact Except.ok.inj (now.symm.trans (holds.set o mem))
      · rw [holds.default f there]
        apply both.default
        rw [List.map_append, List.mem_append, not_or]
        exact ⟨there, absent⟩

/-- **The first line wins.** A second command line that is parsed into the
arguments of a first one, without `override`, means what one command line means
that gives the options of the first, then those of the second that the first
has not given, and the inputs of the second if it has some. -/
theorem first_line_wins (w : Nat) (argv0 : CStr) {argv : List CStr} (argv' : List CStr)
    {args : ArgsInfo} (first : cmdlineParser w argv0 argv = .ok args) (args' : ArgsInfo) :
    cmdlineParser2 w argv0 argv' args false false true = .ok args' ↔
      ∃ opts : List (Field × CStr), (Getopt.scan table none argv').1 = opts.map Field.item ∧
        cmdlineParser w argv0
          (lineOf (options args ++ opts.filter fun o => o.1.given args == 0)
            (if (Getopt.scan table none argv').2 = [] then args.inputs
              else (Getopt.scan table none argv').2)) = .ok args' := by
  have holds := accepted_options first
  have fresh (opts : List (Field × CStr)) :
      ∀ o ∈ opts.filter (fun o => o.1.given args == 0), o.1.given args = 0 := by
    intro o mem
    simpa using (List.mem_filter.mp mem).2
  have one_line (opts : List (Field × CStr)) (inputs : List CStr) :
      cmdlineParser w argv0 (lineOf opts inputs) = .ok args' ↔
        Holds w argv0 opts args' ∧ args'.inputs = inputs := by
    rw [cmdlineParser_accepted, scan_lineOf]
    constructor
    · rintro ⟨opts', same, holds, inputs⟩
      rw [List.map_inj_right fun _ _ e => item_injective e] at same
      exact ⟨same ▸ holds, inputs⟩
    · rintro ⟨holds, inputs⟩
      exact ⟨opts, rfl, holds, inputs⟩
  rw [cmdlineParser2, internal_iff_parsed]
  simp only [parsed_iff_merges, Bool.false_eq_true, ↓reduceIte, false_implies, true_and, moving,
    Bool.false_or, one_line]
  constructor
  · rintro ⟨merged, ⟨opts, items, merges⟩, rfl⟩
    have both := (merges_iff_holds holds (fresh opts) merges.inputs).mp merges
    refine ⟨opts, items, ?_, ?_⟩
    · split
      · exact both
      · exact Holds.with_inputs.mpr both
    · split
      · exact merges.inputs
      · rfl
  · rintro ⟨opts, items, both, inputs⟩
    have merges : Merges w argv0 (opts.filter fun o => o.1.given args == 0) args
        { args' with inputs := args.inputs } := by
      apply (merges_iff_holds holds (fresh opts) ?_).mpr
      · exact Holds.with_inputs.mpr both
      · rfl
    refine ⟨{ args' with inputs := args.inputs }, ⟨opts, items, merges⟩, ?_⟩
    split at inputs
    · rename_i empty
      rw [if_pos empty, ← inputs]
    · rename_i given
      rw [if_neg given, ← inputs]

/-- A tempo that is not even a number, behind one that is given already. -/
theorem first_line_wins_tempo :
    ∃ args args', cmdlineParser 64 "tapper".toList ["-t".toList, "90".toList] = .ok args ∧
      cmdlineParser2 64 "tapper".toList ["-t".toList, "slow".toList, "-c3".toList] args
        false false true = .ok args' ∧ args'.tempo.arg = 90 ∧ args'.channel.arg = 3 := by
  obtain ⟨args, first⟩ : ∃ args, cmdlineParser 64 "tapper".toList ["-t".toList, "90".toList] =
      .ok args := ⟨_, rfl⟩
  have wins := first_line_wins 64 "tapper".toList ["-t".toList, "slow".toList, "-c3".toList] first
  cases first
  obtain ⟨args', both⟩ : ∃ args', cmdlineParser 64 "tapper".toList
      ["--tempo=90".toList, "--channel=3".toList, "--".toList] = .ok args' := ⟨_, rfl⟩
  refine ⟨_, args', rfl, (wins args').mpr ⟨[(.tempo, "slow".toList), (.channel, "3".toList)], rfl,
    both⟩, ?_⟩
  cases both
  exact ⟨rfl, rfl⟩

end MidiGw.Cmdline
