import MidiGw.CNumber

/-!
# Python's option scanner

`getopt.getopt`, for any option table: the options of an argument vector in
their order up to the first element that is none, under their full names, or
the text of the error that it raises.
-/

namespace MidiGw.PyGetopt

open C (CStr)

/-- `shortopts` and `longopts`; a name in the latter ends in `=` where it takes
an argument. -/
structure Table where
  shortopts : CStr
  longopts : List CStr

def shortHasArg (opt : Char) : CStr → Except CStr Bool
  | [] => .error ("option -".toList ++ [opt] ++ " not recognized".toList)
  | x :: shortopts =>
    if x = opt ∧ x ≠ ':' then .ok (shortopts.head? = some ':') else shortHasArg opt shortopts

/-- Whether the option takes an argument, and its full name: the name itself,
or the only one that it abbreviates. -/
def longHasArgs (opt : CStr) (longopts : List CStr) : Except CStr (Bool × CStr) :=
  let possibilities := longopts.filter (opt.isPrefixOf ·)
  if possibilities = [] then .error ("option --".toList ++ opt ++ " not recognized".toList)
  else if opt ∈ possibilities then .ok (false, opt)
  else if opt ++ ['='] ∈ possibilities then .ok (true, opt)
  else
    match possibilities with
    | [unique] =>
      if unique.getLast? = some '=' then .ok (true, unique.dropLast) else .ok (false, unique)
    | _ => .error ("option --".toList ++ opt ++ " not a unique prefix".toList)

/-- The options of one element, and the one that takes the element behind it. -/
abbrev Taken := List (CStr × CStr) × Option CStr

def doShorts (shortopts : CStr) : CStr → Except CStr Taken
  | [] => .ok ([], none)
  | opt :: optstring =>
    match shortHasArg opt shortopts with
    | .error e => .error e
    | .ok true =>
      if optstring = [] then .ok ([], some ['-', opt]) else .ok ([(['-', opt], optstring)], none)
    | .ok false =>
      (doShorts shortopts optstring).map fun r => ((['-', opt], []) :: r.1, r.2)

def doLongs (longopts : List CStr) (body : CStr) : Except CStr Taken :=
  let optarg := body.dropWhile (· ≠ '=')
  match longHasArgs (body.takeWhile (· ≠ '=')) longopts with
  | .error e => .error e
  | .ok (true, opt) =>
    match optarg with
    | [] => .ok ([], some ("--".toList ++ opt))
    | _ :: arg => .ok ([("--".toList ++ opt, arg)], none)
  | .ok (false, opt) =>
    match optarg with
    | [] => .ok ([("--".toList ++ opt, [])], none)
    | _ :: _ => .error ("option --".toList ++ opt ++ " must not have an argument".toList)

/-- One element met where an option may stand; the last two end the options. -/
inductive Element where
  | options (taken : Except CStr Taken)
  | terminator
  | other

def element (t : Table) : CStr → Element
  | ['-', '-'] => .terminator
  | '-' :: '-' :: body => .options (doLongs t.longopts body)
  | '-' :: c :: cs => .options (doShorts t.shortopts (c :: cs))
  | _ => .other

/-- The options and the rest. The first argument is the option that waits for
its argument. -/
def getopt (t : Table) : Option CStr → List CStr → Except CStr (List (CStr × CStr) × List CStr)
  | none, [] => .ok ([], [])
  | some opt, [] => .error ("option ".toList ++ opt ++ " requires argument".toList)
  | some opt, a :: args => (getopt t none args).map fun r => ((opt, a) :: r.1, r.2)
  | none, a :: args =>
    match element t a with
    | .options (.error e) => .error e
    | .options (.ok (opts, waits)) => (getopt t waits args).map fun r => (opts ++ r.1, r.2)
    | .terminator => .ok ([], args)
    | .other => .ok ([], a :: args)

/-! ## The names that can be returned -/

/-- A name that the table has, with its dashes, and whether it takes an argument. -/
inductive Named (t : Table) : CStr → Bool → Prop
  | short {c : Char} {takes : Bool} (known : shortHasArg c t.shortopts = .ok takes) :
      Named t ['-', c] takes
  | flag {name : CStr} (known : name ∈ t.longopts) (bare : name.getLast? ≠ some '=') :
      Named t ("--".toList ++ name) false
  | long {name : CStr} (known : name ++ ['='] ∈ t.longopts) : Named t ("--".toList ++ name) true

/-- An option comes without an argument exactly where it takes none. -/
def Returns (t : Table) (o : CStr × CStr) : Prop :=
  Named t o.1 true ∨ Named t o.1 false ∧ o.2 = []

theorem longHasArgs_named {t : Table} {opt name : CStr} {takes : Bool} (bare : '=' ∉ opt)
    (found : longHasArgs opt t.longopts = .ok (takes, name)) :
    Named t ("--".toList ++ name) takes := by
  have listed {o : CStr} (mem : o ∈ t.longopts.filter (opt.isPrefixOf ·)) : o ∈ t.longopts :=
    (List.mem_filter.mp mem).1
  simp only [longHasArgs] at found
  split at found
  · cases found
  split at found
  · rename_i named
    cases found
    exact .flag (listed named) fun last => bare (List.mem_of_getLast? last)
  split at found
  · rename_i named
    cases found
    exact .long (listed named)
  split at found
  · rename_i unique only
    have mem : unique ∈ t.longopts := listed (by rw [only]; exact List.mem_cons_self)
    split at found
    · rename_i last
      cases found
      obtain ⟨name, rfl⟩ := List.getLast?_eq_some_iff.mp last
      rw [List.dropLast_concat]
      exact .long mem
    · rename_i bare
      cases found
      exact .flag mem bare
  · cases found

theorem doLongs_returns {t : Table} {body : CStr} {opts : List (CStr × CStr)}
    {waits : Option CStr} (taken : doLongs t.longopts body = .ok (opts, waits)) :
    (∀ o ∈ opts, Returns t o) ∧ ∀ opt, waits = some opt → Named t opt true := by
  have bare : '=' ∉ body.takeWhile (· ≠ '=') := by
    intro mem
    simpa using List.mem_takeWhile_imp mem
  simp only [doLongs] at taken
  split at taken
  · cases taken
  · rename_i opt found
    have named := longHasArgs_named bare found
    split at taken
    · cases taken
      exact ⟨by simp, fun o same => by cases same; exact named⟩
    · cases taken
      refine ⟨fun o mem => ?_, fun o same => by cases same⟩
      rw [List.mem_singleton.mp mem]
      exact .inl named
  · rename_i opt found
    have named := longHasArgs_named bare found
    split at taken
    · cases taken
      refine ⟨fun o mem => ?_, fun o same => by cases same⟩
      rw [List.mem_singleton.mp mem]
      exact .inr ⟨named, rfl⟩
    · cases taken

theorem doShorts_returns {t : Table} {optstring : CStr} {opts : List (CStr × CStr)}
    {waits : Option CStr} (taken : doShorts t.shortopts optstring = .ok (opts, waits)) :
    (∀ o ∈ opts, Returns t o) ∧ ∀ opt, waits = some opt → Named t opt true := by
  induction optstring generalizing opts waits with
  | nil =>
    cases taken
    exact ⟨by simp, fun o same => by cases same⟩
  | cons opt optstring ih =>
    simp only [doShorts] at taken
    split at taken
    · cases taken
    · rename_i known
      split at taken
      · cases taken
        exact ⟨by simp, fun o same => by cases same; exact .short known⟩
      · cases taken
        refine ⟨fun o mem => ?_, fun o same => by cases same⟩
        rw [List.mem_singleton.mp mem]
        exact .inl (.short known)
    · rename_i known
      cases later : doShorts t.shortopts optstring with
      | error e => rw [later] at taken; cases taken
      | ok r =>
        rw [later] at taken
        cases taken
        obtain ⟨returned, waiting⟩ := ih later
        refine ⟨fun o mem => ?_, waiting⟩
        cases List.mem_cons.mp mem with
        | inl first => rw [first]; exact .inr ⟨.short known, rfl⟩
        | inr old => exact returned o old

theorem element_returns {t : Table} {a : CStr} {opts : List (CStr × CStr)} {waits : Option CStr}
    (here : element t a = .options (.ok (opts, waits))) :
    (∀ o ∈ opts, Returns t o) ∧ ∀ opt, waits = some opt → Named t opt true := by
  unfold element at here
  split at here
  · cases here
  · exact doLongs_returns (Element.options.inj here)
  · exact doShorts_returns (Element.options.inj here)
  · cases here

/-- **Only options of the table are returned**, whatever the argument vector
is: under their full names, and with an argument only where they take one. -/
theorem getopt_returns {t : Table} {args : List CStr} {waits : Option CStr}
    {opts : List (CStr × CStr)} {rest : List CStr}
    (waiting : ∀ opt, waits = some opt → Named t opt true)
    (returned : getopt t waits args = .ok (opts, rest)) : ∀ o ∈ opts, Returns t o := by
  induction args generalizing waits opts rest with
  | nil =>
    cases waits with
    | none => cases returned; simp
    | some opt => cases returned
  | cons a args ih =>
    cases waits with
    | some opt =>
      simp only [getopt] at returned
      cases behind : getopt t none args with
      | error e => rw [behind] at returned; cases returned
      | ok r =>
        rw [behind] at returned
        cases returned
        intro o mem
        cases List.mem_cons.mp mem with
        | inl first => rw [first]; exact .inl (waiting opt rfl)
        | inr later => exact ih (fun opt same => by cases same) behind o later
    | none =>
      simp only [getopt] at returned
      split at returned
      · cases returned
      · rename_i taken waits here
        obtain ⟨now, waiting⟩ := element_returns here
        cases behind : getopt t waits args with
        | error e => rw [behind] at returned; cases returned
        | ok r =>
          rw [behind] at returned
          cases returned
          intro o mem
          cases List.mem_append.mp mem with
          | inl first => exact now o first
          | inr later => exact ih waiting behind o later
      · cases returned; simp
      · cases returned; simp

end MidiGw.PyGetopt
