import MidiGw.CNumber

/-!
# The option scanner of the C library

`getopt_long` with permutation, for any option table. One pass over the
argument vector (without the program name) yields the options in the order in
which successive calls return them, and the inputs: what is left once every
option and option argument is taken out.

`scan_separate` is the rule for argument vectors built by programs: options
that take an argument, each followed by that argument as an element of its
own, are read back exactly, whatever the arguments look like.
-/

namespace MidiGw.Getopt

open C (CStr)

/-- A row of the `struct option` table. -/
structure LongOption where
  name : CStr
  hasArg : Bool
  val : Char

/-- The option string and the table of long options. -/
structure Table where
  optstring : CStr
  longOptions : List LongOption

/-- What one call of `getopt_long` returns, with `optarg`; `invalid` is `'?'`. -/
inductive Item where
  | option (c : Char) (optarg : Option CStr)
  | invalid
  deriving DecidableEq, Repr

/-- Whether the option string has the character, and if so whether a colon
follows it: the option then requires an argument. -/
def lookup : CStr → Char → Option Bool
  | [], _ => none
  | ':' :: s, c => lookup s c
  | x :: s, c => if x = c then some (s.head? = some ':') else lookup s c

/-- The option letters of one element, `-abc`. The second component is the
option that ends the element and still waits for its argument. -/
def cluster (optstring : CStr) : CStr → List Item × Option Char
  | [] => ([], none)
  | c :: cs =>
    match lookup optstring c with
    | none => let r := cluster optstring cs; (.invalid :: r.1, r.2)
    | some false => let r := cluster optstring cs; (.option c none :: r.1, r.2)
    | some true => if cs = [] then ([], some c) else ([.option c (some cs)], none)

/-- The long option a name stands for: an exact match, or else the only row
the name abbreviates. -/
def findLong (table : List LongOption) (name : CStr) : Option LongOption :=
  match table.find? (·.name = name) with
  | some o => some o
  | none =>
    match table.filter (fun o => name.isPrefixOf o.name) with
    | [o] => some o
    | _ => none

/-- An element `--name` or `--name=arg`, without its two dashes. -/
def long (table : List LongOption) (body : CStr) : List Item × Option Char :=
  let name := body.takeWhile (· ≠ '=')
  let given := body.dropWhile (· ≠ '=')
  match findLong table name with
  | none => ([.invalid], none)
  | some o =>
    match o.hasArg, given with
    | false, [] => ([.option o.val none], none)
    | false, _ :: _ => ([.invalid], none)
    | true, [] => ([], some o.val)
    | true, _ :: arg => ([.option o.val (some arg)], none)

/-- One element met where an option may stand: `none` ends the options. -/
inductive Element where
  | terminator
  | input
  | options (items : List Item) (waits : Option Char)

def element (t : Table) : CStr → Element
  | ['-', '-'] => .terminator
  | '-' :: '-' :: body => .options (long t.longOptions body).1 (long t.longOptions body).2
  | '-' :: c :: cs =>
    .options (cluster t.optstring (c :: cs)).1 (cluster t.optstring (c :: cs)).2
  | _ => .input

/-- The whole scan. The first argument is the option waiting for its argument:
it takes the next element whatever that looks like. -/
def scan (t : Table) : Option Char → List CStr → List Item × List CStr
  | none, [] => ([], [])
  | some _, [] => ([.invalid], [])
  | some c, a :: rest =>
    let r := scan t none rest
    (.option c (some a) :: r.1, r.2)
  | none, a :: rest =>
    match element t a with
    | .terminator => ([], rest)
    | .input => let r := scan t none rest; (r.1, a :: r.2)
    | .options items waits => let r := scan t waits rest; (items ++ r.1, r.2)

theorem element_letter (t : Table) {c : Char} (h : lookup t.optstring c = some true)
    (dash : c ≠ '-') : element t ['-', c] = .options [] (some c) := by
  unfold element
  split
  · rename_i he; simp at he; exact absurd he dash
  · rename_i he; simp at he; exact absurd he.1 dash
  · rename_i he
    simp only [List.cons.injEq, true_and] at he
    obtain ⟨rfl, rfl⟩ := he
    simp [cluster, h]
  · rename_i other
    exact absurd rfl (other c [])

/-- The elements that hand the options of a list to a program, each argument
an element of its own. -/
def separate (opts : List (Char × CStr)) : List CStr :=
  opts.flatMap fun o => [['-', o.1], o.2]

/-- **No argument is ever read as an option.** The scan of separate options
returns them once each, in order, with exactly their arguments, and leaves no
input over. -/
theorem scan_separate (t : Table) (opts : List (Char × CStr))
    (known : ∀ o ∈ opts, lookup t.optstring o.1 = some true) (dash : ∀ o ∈ opts, o.1 ≠ '-') :
    scan t none (separate opts) = (opts.map fun o => .option o.1 (some o.2), []) := by
  induction opts with
  | nil => rfl
  | cons o opts ih =>
    have rest := ih (fun x hx => known x (List.mem_cons_of_mem _ hx))
      (fun x hx => dash x (List.mem_cons_of_mem _ hx))
    have letter := element_letter t (known o List.mem_cons_self) (dash o List.mem_cons_self)
    have split : separate (o :: opts) = ['-', o.1] :: o.2 :: separate opts := rfl
    simp only [split, scan, letter, rest, List.nil_append, List.map_cons]

end MidiGw.Getopt
