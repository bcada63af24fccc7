import Mathlib.Algebra.Order.Group.Multiset
import Mathlib.Tactic.Abel
import MidiGw.Memory

/-!
# What the parser owns

The parser on the heap against the one that computes with plain values: what
blocks a structure owns for the arguments it stands for, what each function does
with them, and what a program is left with that parses one command line or two.
-/

namespace MidiGw.Memory

open Blocks
open C (CStr)
open Cmdline (Params)
open Getopt (Item)

/-! ## Structures and what they stand for -/

section
variable (grants : Nat → Bool)

/-- A pointer for a string that may be absent, and the block it owns. It is null
too where there was no memory for the string. -/
inductive Text : Ptr → Option CStr → Multiset (Nat × Block) → Prop
  | null : Text none none 0
  | denied (s : CStr) (full : ∃ n, grants n = false) : Text none (some s) 0
  | here (p : Nat) (s : CStr) : Text (some p) (some s) (points (some p) (.text s))

def Str (p : Ptr) (s : CStr) (P : Multiset (Nat × Block)) : Prop := Text grants p (some s) P

def Num (n m : Int32) (P : Multiset (Nat × Block)) : Prop := n = m ∧ P = 0

/-- An option, with `holds` for its `x_arg`. -/
structure Rep {α β : Type} (holds : α → β → Multiset (Nat × Block) → Prop) (o : Opt α)
    (v : Cmdline.Opt β) (P : Multiset (Nat × Block)) : Prop where
  given : o.given = v.given
  blocks : ∃ A B, holds o.arg v.arg A ∧ Text grants o.orig v.orig B ∧ P = A + B

def OfField (a : ArgsInfo) (v : Cmdline.ArgsInfo) : Cmdline.Field → Multiset (Nat × Block) → Prop
  | .serial => Rep grants (Str grants) a.serial v.serial
  | .tempo => Rep grants Num a.tempo v.tempo
  | .channel => Rep grants Num a.channel v.channel
  | .message => Rep grants Num a.message v.message
  | .value => Rep grants Num a.value v.value
  | .repeats => Rep grants Num a.repeats v.repeats

inductive Names : List Ptr → List CStr → Multiset (Nat × Block) → Prop
  | nil : Names [] [] 0
  | cons {q : Ptr} {s : CStr} {qs : List Ptr} {ss : List CStr} {P R : Multiset (Nat × Block)}
      (first : Str grants q s P) (others : Names qs ss R) : Names (q :: qs) (s :: ss) (P + R)

/-- The array of the inputs with the strings in it. -/
inductive Inputs : Ptr → Nat → List CStr → Multiset (Nat × Block) → Prop
  | none (p : Ptr) : Inputs p 0 [] 0
  | array (p : Nat) (qs : List Ptr) (ss : List CStr) (P : Multiset (Nat × Block)) (filled : ss ≠ [])
      (names : Names grants qs ss P) :
      Inputs (some p) ss.length ss (points (some p) (.strings (qs.map some)) + P)

/-- The structure stands for the arguments and owns the blocks. -/
def Stands (a : ArgsInfo) (v : Cmdline.ArgsInfo) (P : Multiset (Nat × Block)) : Prop :=
  ∃ (own : Cmdline.Field → Multiset (Nat × Block)) (I : Multiset (Nat × Block)),
    (∀ f, OfField grants a v f (own f)) ∧ Inputs grants a.inputs a.inputsNum v.inputs I ∧
    P = own .serial + own .tempo + own .channel + own .message + own .value + own .repeats + I

end

variable {grants : Nat → Bool} {a s : ArgsInfo} {v t : Cmdline.ArgsInfo}
  {P R : Multiset (Nat × Block)}

/-- One option among the others: it may change, with its blocks. -/
theorem Stands.field (h : Stands grants a v P) (f : Cmdline.Field) :
    ∃ F O, OfField grants a v f F ∧ P = F + O ∧
      ∀ a' v' F', OfField grants a' v' f F' →
        (∀ g, g ≠ f → OfField grants a' v' g = OfField grants a v g) →
        a'.inputs = a.inputs → a'.inputsNum = a.inputsNum → v'.inputs = v.inputs →
        Stands grants a' v' (F' + O) := by
  obtain ⟨own, I, fields, inputs, rfl⟩ := h
  -- the blocks of all the others
  let others : Multiset (Nat × Block) := Cmdline.Field.all.foldr (fun g O => if g = f then O else own g + O) I
  have total (new : Multiset (Nat × Block)) : new + others =
      Function.update own f new .serial + Function.update own f new .tempo +
        Function.update own f new .channel + Function.update own f new .message +
        Function.update own f new .value + Function.update own f new .repeats + I := by
    cases f <;> simp [others, Cmdline.Field.all, Function.update] <;> abel
  refine ⟨own f, others, fields f, ?_, fun a' v' F' here there p n names => ?_⟩
  · rw [total, Function.update_eq_self]
  · refine ⟨Function.update own f F', I, fun g => ?_, ?_, total F'⟩
    · by_cases same : g = f
      · rw [same, Function.update_self]
        exact here
      · rw [Function.update_of_ne same, there g same]
        exact fields g
    · rw [p, n, names]
      exact inputs

/-! ## Freeing -/

theorem text_free {p : Ptr} {s : Option CStr} (text : Text grants p s P) :
    Triple P (free p) fun _ R => R = 0 := by
  cases text with
  | null | denied => exact .pure rfl
  | here p s => exact triple_free (some p) _

theorem free_then {α : Type} {p : Ptr} {s : Option CStr} {m : Prog Block α}
    {Q : α → Multiset (Nat × Block) → Prop} (text : Text grants p s P) (next : Triple R m Q) :
    Triple (P + R) (free p >>= fun _ => m) Q := by
  apply ((text_free text).frame R rfl).bind
  rintro - - ⟨-, rfl, rfl⟩
  rwa [zero_add]

theorem field_then {α : Type} {p : Ptr} {s : Option CStr} {k : Ptr → Prog Block α}
    {Q : α → Multiset (Nat × Block) → Prop} (text : Text grants p s P) (next : Triple R (k none) Q) :
    Triple (P + R) (freeStringField p >>= k) Q := by
  have opened : (freeStringField p >>= k) = free p >>= fun _ => k none := by
    simp only [freeStringField, bind_assoc, pure_bind]
  rw [opened]
  exact free_then text next

theorem slot_spec {p i : Nat} {slots : List (Option Ptr)} {q : Ptr} (stored : slots[i]? = some (some q)) :
    Triple (points (some p) (.strings slots)) (slot (some p) i)
      fun r R => r = q ∧ R = points (some p) (.strings slots) := by
  apply (triple_load p _).bind
  rintro _ _ ⟨rfl, rfl⟩
  simp only [stored]
  exact .pure ⟨rfl, rfl⟩

/-- Each string of the array is freed once; the array is left. -/
theorem freeInputs_spec {qs : List Ptr} {ss : List CStr} (names : Names grants qs ss P) (p : Nat)
    (front : List Ptr) :
    Triple (points (some p) (.strings ((front ++ qs).map some)) + P)
      (freeInputs (some p) front.length qs.length)
      fun _ R => R = points (some p) (.strings ((front ++ qs).map some)) := by
  induction names generalizing front with
  | nil => exact .pure (add_zero _)
  | @cons q s qs ss P R first _ ih =>
    have stored : ((front ++ q :: qs).map some)[front.length]? = some (some q) := by simp
    apply ((slot_spec stored).frame (P + R) rfl).bind
    rintro r _ ⟨_, ⟨eq, rfl⟩, rfl⟩
    rw [eq, add_left_comm]
    apply free_then first
    have next := ih (front ++ [q])
    simpa using next

theorem inputs_then {α : Type} {p : Ptr} {n : Nat} {ss : List CStr} (inputs : Inputs grants p n ss P)
    (r : α) :
    Triple P
      (do
        freeInputs p 0 n
        if n = 0 then pure () else free p
        return r)
      fun r' R => r' = r ∧ R = 0 := by
  cases inputs with
  | none p => exact .pure ⟨rfl, rfl⟩
  | array p qs ss P filled names =>
    have length : qs.length = ss.length := by
      clear filled
      induction names with
      | nil => rfl
      | cons first others ih => simpa using ih
    have freed := freeInputs_spec names p []
    rw [List.length_nil, List.nil_append, length] at freed
    apply freed.bind
    rintro - _ rfl
    rw [if_neg fun empty => filled (List.length_eq_zero_iff.mp empty)]
    apply (triple_free (some p) _).bind
    rintro - _ rfl
    exact .pure ⟨rfl, rfl⟩

/-- What `cmdline_parser_release` leaves of a structure. -/
def ArgsInfo.released (a : ArgsInfo) : ArgsInfo where
  serial := ⟨none, none, 0⟩
  tempo := ⟨a.tempo.arg, none, 0⟩
  channel := ⟨a.channel.arg, none, 0⟩
  message := ⟨a.message.arg, none, 0⟩
  value := ⟨a.value.arg, none, 0⟩
  repeats := ⟨a.repeats.arg, none, 0⟩
  inputs := a.inputs
  inputsNum := a.inputsNum

theorem release_spec (h : Stands grants a v P) :
    Triple P (cmdlineParserRelease a) fun r R => r = a.released ∧ R = 0 := by
  obtain ⟨own, I, fields, inputs, rfl⟩ := h
  obtain ⟨-, S, O, arg, serial, same⟩ := fields .serial
  obtain ⟨-, _, T, ⟨-, rfl⟩, tempo, sameT⟩ := fields .tempo
  obtain ⟨-, _, C, ⟨-, rfl⟩, channel, sameC⟩ := fields .channel
  obtain ⟨-, _, M, ⟨-, rfl⟩, message, sameM⟩ := fields .message
  obtain ⟨-, _, V, ⟨-, rfl⟩, value, sameV⟩ := fields .value
  obtain ⟨-, _, N, ⟨-, rfl⟩, repeats, sameN⟩ := fields .repeats
  rw [same, sameT, sameC, sameM, sameV, sameN]
  have order : S + O + (0 + T) + (0 + C) + (0 + M) + (0 + V) + (0 + N) + I =
      S + (O + (T + (C + (M + (V + (N + I)))))) := by
    simp only [zero_add, add_assoc]
  rw [order]
  apply field_then arg
  apply field_then serial
  apply field_then tempo
  apply field_then channel
  apply field_then message
  apply field_then value
  apply field_then repeats
  exact inputs_then inputs a.released

/-! ## One option -/

theorem strdup_spec (grants : Nat → Bool) (s : CStr) :
    Triple 0 (gengetoptStrdup grants s) fun q R => Str grants q s R := by
  apply (triple_malloc grants _).weaken
  rintro q _ ⟨rfl, full⟩
  cases q with
  | none => exact .denied s (full rfl)
  | some q => exact .here q s

theorem init_spec (grants : Nat → Bool) :
    Triple 0 (cmdlineParserInit grants) fun a R => Stands grants a Cmdline.cmdlineParserInit R := by
  apply (strdup_spec grants _).bind
  intro q S str
  apply Triple.pure
  have unset (n : Int32) : Rep grants Num ⟨n, none, 0⟩ ⟨n, none, 0⟩ 0 :=
    ⟨rfl, 0, 0, ⟨rfl, rfl⟩, .null, rfl⟩
  refine ⟨fun f => if f = .serial then S else 0, 0, fun f => ?_, .none none, by simp⟩
  cases f with
  | serial => exact ⟨rfl, S, 0, str, .null, (add_zero S).symm⟩
  | tempo | channel | message | value | repeats => exact unset _

/-- What the outcome of `update_arg` stands for. -/
def Stored {α β : Type} (grants : Nat → Bool) (holds : α → β → Multiset (Nat × Block) → Prop) :
    Opt α × UInt32 × Option CStr → Except CStr (Cmdline.Opt β × UInt32) → Multiset (Nat × Block) → Prop
  | (o, n, e), .ok (v, m), R => e = none ∧ n = m ∧ Rep grants holds o v R
  | (o, _, e), .error d, R => e = some d ∧ ∃ v, Rep grants holds o v R

/-- The assignment to `x_arg` follows a conversion. -/
def Assigns {α β : Type} (holds : α → β → Multiset (Nat × Block) → Prop)
    (assign : α → Prog Block (α × Option CStr)) (converted : Except CStr β) : Prop :=
  ∀ x y A, holds x y A → Triple A (assign x) fun r R =>
    match converted with
    | .ok z => r.2 = none ∧ holds r.1 z R
    | .error e => r.2 = some e ∧ ∃ z, holds r.1 z R

theorem assignString_spec (grants : Nat → Bool) (val : CStr) :
    Assigns (Str grants) (assignString grants val) (Cmdline.convertString val) := by
  intro p s A text
  rw [← add_zero A]
  apply free_then text
  apply (strdup_spec grants val).bind
  intro q R str
  exact .pure ⟨rfl, str⟩

theorem assignInt_spec (w : Nat) (packageName val : CStr) :
    Assigns Num (assignInt w packageName val) (Cmdline.convertInt w packageName val) := by
  rintro n m _ ⟨rfl, rfl⟩
  simp only [assignInt, Cmdline.convertInt]
  generalize C.strtol w val = r
  by_cases whole : r.2 = []
  · simp only [whole, ↓reduceIte]
    exact .pure ⟨rfl, rfl, rfl⟩
  · simp only [whole, ↓reduceIte]
    exact .pure ⟨rfl, _, rfl, rfl⟩

theorem updateArg_spec {α β : Type} {holds : α → β → Multiset (Nat × Block) → Prop}
    {convert : CStr → Except CStr β} {assign : α → Prog Block (α × Option CStr)} {val : CStr}
    (assigns : Assigns holds assign (convert val)) {o : Opt α} {v : Cmdline.Opt β}
    (rep : Rep grants holds o v P) (p : Params) (packageName longOpt : CStr) (shortOpt : Char)
    (prevGiven : UInt32) :
    Triple P (updateArg grants p assign packageName longOpt shortOpt o prevGiven val)
      fun r R => Stored grants holds r
        (Cmdline.updateArg p convert packageName longOpt shortOpt v prevGiven val) R := by
  unfold updateArg Cmdline.updateArg
  rw [rep.given]
  by_cases again : prevGiven ≠ 0 ∨ p.checkAmbiguity = true ∧ v.given ≠ 0
  · rw [if_pos again, if_pos again]
    exact .pure ⟨rfl, v, rep⟩
  rw [if_neg again, if_neg again]
  by_cases stays : v.given ≠ 0 ∧ p.override = false
  · rw [if_pos stays, if_pos stays]
    exact .pure ⟨rfl, rfl, rep⟩
  rw [if_neg stays, if_neg stays]
  obtain ⟨given, A, B, arg, orig, rfl⟩ := rep
  apply ((assigns o.arg v.arg A arg).frame B rfl).bind
  rintro ⟨x, refused⟩ _ ⟨T, post, rfl⟩
  cases read : convert val with
  | error e =>
    rw [read] at post
    obtain ⟨rfl, z, arg'⟩ := post
    exact .pure ⟨rfl, ⟨z, v.orig, v.given + 1⟩, rfl, T, B, arg', orig, rfl⟩
  | ok z =>
    rw [read] at post
    obtain ⟨rfl, arg'⟩ := post
    dsimp only
    rw [add_comm]
    apply free_then orig
    apply ((strdup_spec grants val).frame T (zero_add T).symm).bind
    rintro q _ ⟨S, str, rfl⟩
    exact .pure ⟨rfl, rfl, rfl, T, S, arg', str, add_comm S T⟩

/-- What a case of the switch leaves, the structure of this command line included. -/
def Cased (grants : Nat → Bool) :
    (ArgsInfo × ArgsInfo) × Option CStr →
      Option (Except CStr (Cmdline.ArgsInfo × Cmdline.ArgsInfo)) → Multiset (Nat × Block) → Prop
  | ((a, s), e), some (.ok (v, t)), R =>
    e = none ∧ ∃ A S, Stands grants a v A ∧ Stands grants s t S ∧ R = A + S
  | ((a, s), e), some (.error d), R =>
    e = some d ∧ ∃ v t A S, Stands grants a v A ∧ Stands grants s t S ∧ R = A + S
  | _, none, _ => False

/-- A case of the switch, as the call of `update_arg` for its own field. -/
theorem cased_of {α β : Type} {holds : α → β → Multiset (Nat × Block) → Prop} {p : Params} {w : Nat}
    {packageName val : CStr} {f : Cmdline.Field} {convert : CStr → Except CStr β}
    {assign : α → Prog Block (α × Option CStr)} {field : Opt α} {vfield : Cmdline.Opt β}
    {prevGiven : UInt32} (args : Stands grants a v P) (seen : Stands grants s t R)
    (assigns : Assigns holds assign (convert val))
    (put : Opt α → ArgsInfo) (count : UInt32 → ArgsInfo)
    (vput : Cmdline.Opt β → Cmdline.ArgsInfo) (vcount : UInt32 → Cmdline.ArgsInfo)
    (call : optionCase grants p w packageName a s f.letter val = some do
      let (o, n, e) ← updateArg grants p assign packageName f.name f.letter field prevGiven val
      return ((put o, count n), e))
    (vcall : Cmdline.optionCase p w packageName v t f.letter val = some
      ((Cmdline.updateArg p convert packageName f.name f.letter vfield (f.given t) val).map
        fun r => (vput r.1, vcount r.2)))
    (own : OfField grants a v f = Rep grants holds field vfield)
    (prev : ∀ F, OfField grants s t f F → prevGiven = f.given t)
    (puts : ∀ o vo, OfField grants (put o) (vput vo) f = Rep grants holds o vo)
    (others : ∀ o vo g, g ≠ f → OfField grants (put o) (vput vo) g = OfField grants a v g)
    (inputs : ∀ o vo, (put o).inputs = a.inputs ∧ (put o).inputsNum = a.inputsNum ∧
      (vput vo).inputs = v.inputs)
    (counts : ∀ n F, OfField grants s t f F → OfField grants (count n) (vcount n) f F)
    (uncounted : ∀ n g, g ≠ f → OfField grants (count n) (vcount n) g = OfField grants s t g)
    (same : ∀ n, (count n).inputs = s.inputs ∧ (count n).inputsNum = s.inputsNum ∧
      (vcount n).inputs = t.inputs) :
    ∃ m, optionCase grants p w packageName a s f.letter val = some m ∧
      Triple (P + R) m fun r T =>
        Cased grants r (Cmdline.optionCase p w packageName v t f.letter val) T := by
  obtain ⟨F, O, here, rfl, change⟩ := args.field f
  obtain ⟨G, U, there, rfl, recount⟩ := seen.field f
  refine ⟨_, call, ?_⟩
  rw [own] at here
  rw [vcall, prev G there]
  have spec := updateArg_spec assigns here p packageName f.name f.letter (f.given t)
  apply (spec.frame (O + (G + U)) (add_assoc F O (G + U))).bind
  rintro ⟨o, n, e⟩ _ ⟨T, stored, rfl⟩
  have counted (n : UInt32) : Stands grants (count n) (vcount n) (G + U) :=
    recount _ _ G (counts n G there) (uncounted n) (same n).1 (same n).2.1 (same n).2.2
  have changed {vo : Cmdline.Opt β} (rep : Rep grants holds o vo T) :
      Stands grants (put o) (vput vo) (T + O) :=
    change _ _ T (by rw [puts]; exact rep) (others o vo) (inputs o vo).1 (inputs o vo).2.1
      (inputs o vo).2.2
  apply Triple.pure
  cases result : Cmdline.updateArg p convert packageName f.name f.letter vfield (f.given t) val with
  | ok r =>
    rw [result] at stored
    obtain ⟨rfl, rfl, rep⟩ := stored
    exact ⟨rfl, T + O, G + U, changed rep, counted r.2, (add_assoc T O _).symm⟩
  | error d =>
    rw [result] at stored
    obtain ⟨rfl, vo, rep⟩ := stored
    exact ⟨rfl, vput vo, vcount n, T + O, G + U, changed rep, counted n, (add_assoc T O _).symm⟩

theorem optionCase_spec (args : Stands grants a v P) (seen : Stands grants s t R) (p : Params)
    (w : Nat) (packageName : CStr) (f : Cmdline.Field) (val : CStr) :
    ∃ m, optionCase grants p w packageName a s f.letter val = some m ∧
      Triple (P + R) m fun r T =>
        Cased grants r (Cmdline.optionCase p w packageName v t f.letter val) T := by
  cases f
  case serial =>
    refine cased_of args seen (assignString_spec grants val) (fun o => { a with serial := o })
      (fun n => { s with serial.given := n }) (fun o => { v with serial := o })
      (fun n => { t with serial.given := n }) rfl rfl rfl (fun _ rep => rep.given) (fun _ _ => rfl) ?_
      (fun _ _ => ⟨rfl, rfl, rfl⟩) (fun _ _ rep => ⟨rfl, rep.blocks⟩) ?_ (fun _ => ⟨rfl, rfl, rfl⟩)
    · exact fun _ _ g ne => by cases g <;> first | exact absurd rfl ne | rfl
    · exact fun _ g ne => by cases g <;> first | exact absurd rfl ne | rfl
  case tempo =>
    refine cased_of args seen (assignInt_spec w packageName val) (fun o => { a with tempo := o })
      (fun n => { s with tempo.given := n }) (fun o => { v with tempo := o })
      (fun n => { t with tempo.given := n }) rfl rfl rfl (fun _ rep => rep.given) (fun _ _ => rfl) ?_
      (fun _ _ => ⟨rfl, rfl, rfl⟩) (fun _ _ rep => ⟨rfl, rep.blocks⟩) ?_ (fun _ => ⟨rfl, rfl, rfl⟩)
    · exact fun _ _ g ne => by cases g <;> first | exact absurd rfl ne | rfl
    · exact fun _ g ne => by cases g <;> first | exact absurd rfl ne | rfl
  case channel =>
    refine cased_of args seen (assignInt_spec w packageName val) (fun o => { a with channel := o })
      (fun n => { s with channel.given := n }) (fun o => { v with channel := o })
      (fun n => { t with channel.given := n }) rfl rfl rfl (fun _ rep => rep.given) (fun _ _ => rfl) ?_
      (fun _ _ => ⟨rfl, rfl, rfl⟩) (fun _ _ rep => ⟨rfl, rep.blocks⟩) ?_ (fun _ => ⟨rfl, rfl, rfl⟩)
    · exact fun _ _ g ne => by cases g <;> first | exact absurd rfl ne | rfl
    · exact fun _ g ne => by cases g <;> first | exact absurd rfl ne | rfl
  case message =>
    refine cased_of args seen (assignInt_spec w packageName val) (fun o => { a with message := o })
      (fun n => { s with message.given := n }) (fun o => { v with message := o })
      (fun n => { t with message.given := n }) rfl rfl rfl (fun _ rep => rep.given) (fun _ _ => rfl) ?_
      (fun _ _ => ⟨rfl, rfl, rfl⟩) (fun _ _ rep => ⟨rfl, rep.blocks⟩) ?_ (fun _ => ⟨rfl, rfl, rfl⟩)
    · exact fun _ _ g ne => by cases g <;> first | exact absurd rfl ne | rfl
    · exact fun _ g ne => by cases g <;> first | exact absurd rfl ne | rfl
  case value =>
    refine cased_of args seen (assignInt_spec w packageName val) (fun o => { a with value := o })
      (fun n => { s with value.given := n }) (fun o => { v with value := o })
      (fun n => { t with value.given := n }) rfl rfl rfl (fun _ rep => rep.given) (fun _ _ => rfl) ?_
      (fun _ _ => ⟨rfl, rfl, rfl⟩) (fun _ _ rep => ⟨rfl, rep.blocks⟩) ?_ (fun _ => ⟨rfl, rfl, rfl⟩)
    · exact fun _ _ g ne => by cases g <;> first | exact absurd rfl ne | rfl
    · exact fun _ g ne => by cases g <;> first | exact absurd rfl ne | rfl
  case repeats =>
    refine cased_of args seen (assignInt_spec w packageName val) (fun o => { a with repeats := o })
      (fun n => { s with repeats.given := n }) (fun o => { v with repeats := o })
      (fun n => { t with repeats.given := n }) rfl rfl rfl (fun _ rep => rep.given) (fun _ _ => rfl) ?_
      (fun _ _ => ⟨rfl, rfl, rfl⟩) (fun _ _ rep => ⟨rfl, rep.blocks⟩) ?_ (fun _ => ⟨rfl, rfl, rfl⟩)
    · exact fun _ _ g ne => by cases g <;> first | exact absurd rfl ne | rfl
    · exact fun _ g ne => by cases g <;> first | exact absurd rfl ne | rfl

/-! ## A whole command line -/

/-- The outcome is that of the parser with plain values. -/
def Reports : Outcome → Cmdline.Parsed → Cmdline.ArgsInfo → Prop
  | .ok, parsed, v => parsed = .ok v
  | .help, parsed, _ => parsed = .help
  | .version, parsed, _ => parsed = .version
  | .failure e, parsed, _ => parsed = .failure e
  | .aborted, _, _ | .crashed, _, _ => False

def Ends (grants : Nat → Bool) (parsed : Cmdline.Parsed) (r : ArgsInfo × Outcome)
    (R : Multiset (Nat × Block)) : Prop :=
  ∃ v, Stands grants r.1 v R ∧ Reports r.2 parsed v

theorem released_then {α : Type} (seen : Stands grants s t R) (r : α) :
    Triple (P + R)
      (do
        let _ ← cmdlineParserRelease s
        return r)
      fun r' T => r' = r ∧ T = P := by
  apply ((release_spec seen).frame P (add_comm P R)).bind
  rintro - _ ⟨-, ⟨-, rfl⟩, rfl⟩
  exact .pure ⟨rfl, zero_add P⟩

theorem parseItems_field (p : Params) (w : Nat) (packageName : CStr) (a s : ArgsInfo)
    (f : Cmdline.Field) (val : CStr) (items : List Item) :
    parseItems grants p w packageName a s (.option f.letter (some val) :: items) =
      match optionCase grants p w packageName a s f.letter val with
      | none => pure (a, .aborted)
      | some call => (do
        let ((args, seen), refused) ← call
        match refused with
        | some e =>
          let _ ← cmdlineParserRelease seen
          return (args, .failure e)
        | none => parseItems grants p w packageName args seen items) := by
  cases f <;> rfl

theorem parse_spec (p : Params) (w : Nat) (packageName : CStr) {items : List Item}
    (known : ∀ item ∈ items, item.Of Cmdline.table) (args : Stands grants a v P)
    (seen : Stands grants s t R) :
    Triple (P + R) (parseItems grants p w packageName a s items)
      (Ends grants (Cmdline.parseItems p w packageName v t items)) := by
  induction items generalizing a v P s t R with
  | nil =>
    apply (released_then seen _).weaken
    rintro _ _ ⟨rfl, rfl⟩
    exact ⟨v, args, rfl⟩
  | cons item items ih =>
    cases item with
    | invalid =>
      apply (released_then seen _).weaken
      rintro _ _ ⟨rfl, rfl⟩
      exact ⟨v, args, rfl⟩
    | option c optarg =>
      have here := known (.option c optarg) List.mem_cons_self
      obtain ⟨takes, rfl | rfl⟩ | ⟨takes, f, rfl⟩ := Cmdline.letter_cases here
      · apply (released_then seen _).weaken
        rintro _ _ ⟨rfl, rfl⟩
        exact ⟨v, args, rfl⟩
      · apply (released_then seen _).weaken
        rintro _ _ ⟨rfl, rfl⟩
        exact ⟨v, args, rfl⟩
      · obtain ⟨val, rfl⟩ := Option.isSome_iff_exists.mp takes
        obtain ⟨m, taken, spec⟩ := optionCase_spec args seen p w packageName f val
        have value := Cmdline.parseItems_field p w packageName v t (f, val) items
        rw [Cmdline.Field.item] at value
        rw [parseItems_field, taken, value]
        apply spec.bind
        rintro ⟨⟨a', s'⟩, refused⟩ T cased
        dsimp only
        cases result : Cmdline.optionCase p w packageName v t f.letter val with
        | none =>
          rw [result] at cased
          cases cased
        | some r =>
          rw [result] at cased
          cases r with
          | error d =>
            obtain ⟨rfl, v', t', A, S, args', seen', rfl⟩ := cased
            apply (released_then seen' _).weaken
            rintro _ _ ⟨rfl, rfl⟩
            exact ⟨v', args', rfl⟩
          | ok r =>
            obtain ⟨rfl, A, S, args', seen', rfl⟩ := cased
            exact ih (fun item mem => known item (List.mem_cons_of_mem _ mem)) args' seen'

/-! ## The inputs -/

theorem setSlot_spec {p i : Nat} {slots : List (Option Ptr)} (inside : i < slots.length) (q : Ptr) :
    Triple (points (some p) (.strings slots)) (setSlot (some p) i q)
      fun _ R => R = points (some p) (.strings (slots.set i (some q))) := by
  apply (triple_load p _).bind
  rintro _ _ ⟨rfl, rfl⟩
  simp only [inside, ↓reduceIte]
  exact triple_store p _ _

/-- The array is filled from the front, with a string of its own for each input. -/
theorem fillInputs_spec (grants : Nat → Bool) (p : Nat) (ss : List CStr) (front : List Ptr) :
    Triple (points (some p) (.strings (front.map some ++ List.replicate ss.length none)))
      (fillInputs grants (some p) front.length ss)
      fun _ R => ∃ qs B, Names grants qs ss B ∧
        R = points (some p) (.strings ((front ++ qs).map some)) + B := by
  induction ss generalizing front with
  | nil => exact .pure ⟨[], 0, .nil, by simp⟩
  | cons s ss ih =>
    apply ((strdup_spec grants s).frame _ (zero_add _).symm).bind
    rintro q _ ⟨S, str, rfl⟩
    rw [add_comm]
    have inside : front.length <
        (front.map some ++ List.replicate (s :: ss).length (none : Option Ptr)).length := by simp
    apply ((setSlot_spec inside q).frame S rfl).bind
    rintro - _ ⟨_, rfl, rfl⟩
    have filled : (front.map some ++ List.replicate (s :: ss).length (none : Option Ptr)).set
        front.length (some q) =
          (front ++ [q]).map some ++ List.replicate ss.length none := by
      simp [List.replicate_succ]
    rw [filled]
    have next := ih (front ++ [q])
    rw [List.length_append, List.length_singleton] at next
    apply (next.frame S rfl).weaken
    rintro - _ ⟨_, ⟨qs, B, names, rfl⟩, rfl⟩
    refine ⟨q :: qs, S + B, .cons str names, ?_⟩
    rw [List.append_assoc, List.singleton_append]
    abel

theorem ofField_inputs (a : ArgsInfo) (v : Cmdline.ArgsInfo) (q : Ptr) (n : Nat) (ss : List CStr)
    (f : Cmdline.Field) :
    OfField grants { a with inputs := q, inputsNum := n } { v with inputs := ss } f =
      OfField grants a v f := by cases f <;> rfl

theorem inputs_nothing {q : Ptr} {n : Nat} {ss : List CStr} (inputs : Inputs grants q n ss P) :
    P = 0 ↔ ss = [] := by
  cases inputs with
  | none => simp
  | array p qs ss P filled names =>
    simp only [filled, iff_false]
    intro nothing
    have block : (p, Block.strings (qs.map some)) ∈ (points (some p) (.strings (qs.map some)) + P) :=
      Multiset.mem_add.mpr (.inl (Multiset.mem_singleton_self _))
    rw [nothing] at block
    exact Multiset.notMem_zero _ block

theorem storeInputs_spec (args : Stands grants a v P) (ss : List CStr) :
    Triple P (storeInputs grants a ss) fun r R =>
      (r.2 = .crashed ∧ ss ≠ [] ∧ ∃ n, grants n = false) ∨
      r.2 = .ok ∧ ∃ Q L, Stands grants r.1 (if ss = [] then v else { v with inputs := ss }) Q ∧
        R = Q + L ∧ (ss = [] → L = 0) ∧ (ss ≠ [] → ∃ p n, Inputs grants p n v.inputs L) := by
  unfold storeInputs
  by_cases empty : ss = []
  · rw [if_pos empty]
    refine .pure (.inr ⟨rfl, P, 0, ?_, (add_zero P).symm, fun _ => rfl, fun filled => absurd empty filled⟩)
    rw [if_pos empty]
    exact args
  · rw [if_neg empty]
    obtain ⟨own, I, fields, inputs, rfl⟩ := args
    apply ((triple_malloc grants _).frame _ (zero_add _).symm).bind
    rintro q _ ⟨_, ⟨rfl, full⟩, rfl⟩
    cases q with
    | none => exact .pure (.inl ⟨rfl, empty, full rfl⟩)
    | some q =>
      have filled := fillInputs_spec grants q ss []
      rw [List.map_nil, List.nil_append] at filled
      apply (filled.frame _ rfl).bind
      rintro - _ ⟨_, ⟨qs, B, names, rfl⟩, rfl⟩
      rw [List.nil_append]
      refine .pure (.inr ⟨rfl, own .serial + own .tempo + own .channel + own .message + own .value +
        own .repeats + (points (some q) (.strings (qs.map some)) + B), I, ?_, by abel,
        fun no => absurd no empty, fun _ => ⟨_, _, inputs⟩⟩)
      rw [if_neg empty]
      exact ⟨own, _, fun f => by rw [ofField_inputs]; exact fields f, .array q qs ss B empty names, rfl⟩

/-! ## The parser -/

/-- What is left of what was owned before: all of it where the structure is set
up anew, and the old inputs where there are new ones. -/
def Lost (grants : Nat → Bool) (anew : Bool) (new old : List CStr) (P : Multiset (Nat × Block))
    (outcome : Outcome) (L : Multiset (Nat × Block)) : Prop :=
  if anew then L = P
  else if outcome = .ok ∧ new ≠ [] then ∃ q n, Inputs grants q n old L
  else L = 0

def Leaves (grants : Nat → Bool) (anew : Bool) (new old : List CStr) (P : Multiset (Nat × Block))
    (parsed : Cmdline.Parsed) (r : ArgsInfo × Outcome) (R : Multiset (Nat × Block)) : Prop :=
  (r.2 = .crashed ∧ new ≠ [] ∧ ∃ n, grants n = false) ∨
  ∃ v Q L, Stands grants r.1 v Q ∧ Reports r.2 parsed v ∧ R = Q + L ∧
    Lost grants anew new old P r.2 L

theorem parsed_spec (args : Stands grants a v P) (p : Params) (w : Nat) (argv0 : CStr)
    (argv : List CStr) :
    Triple P
      (do
        let seen ← cmdlineParserInit grants
        let (args, outcome) ←
          parseItems grants p w argv0 a seen (Getopt.scan Cmdline.table none argv).1
        match outcome with
        | .ok => storeInputs grants args (Getopt.scan Cmdline.table none argv).2
        | stop => return (args, stop))
      (Leaves grants false (Getopt.scan Cmdline.table none argv).2 v.inputs P
        (match Cmdline.parseItems p w argv0 v Cmdline.cmdlineParserInit
            (Getopt.scan Cmdline.table none argv).1 with
          | .ok args => .ok (if (Getopt.scan Cmdline.table none argv).2 = [] then args
              else { args with inputs := (Getopt.scan Cmdline.table none argv).2 })
          | stop => stop)) := by
  have known := Getopt.scan_items Cmdline.table_consistent argv none (fun c waits => by cases waits)
  apply ((init_spec grants).frame P (zero_add P).symm).bind
  rintro s _ ⟨S, seen, rfl⟩
  rw [add_comm]
  apply (parse_spec p w argv0 known args seen).bind
  rintro ⟨a', outcome⟩ R ⟨v', args', reports⟩
  cases outcome with
  | ok =>
    have parsed : _ = Cmdline.Parsed.ok v' := reports
    have kept := Cmdline.parseItems_inputs parsed
    rw [parsed]
    apply (storeInputs_spec args' _).weaken
    rintro ⟨a'', outcome⟩ R (crashed | ⟨rfl, Q, L, args'', rfl, without, replaced⟩)
    · exact .inl crashed
    · refine .inr ⟨_, Q, L, args'', rfl, rfl, ?_⟩
      unfold Lost
      by_cases new : (Getopt.scan Cmdline.table none argv).2 = []
      · simpa [new] using without new
      · rw [← kept]
        simpa [new] using replaced new
  | help | version | failure e =>
    have parsed := reports
    simp only [Reports] at parsed
    rw [parsed]
    exact .pure (.inr ⟨v', R, 0, args', rfl, (add_zero R).symm, rfl⟩)
  | aborted | crashed => cases reports

/-- The structure is set up anew, whatever it holds, and what it owned is lost. -/
theorem anew_spec (grants : Nat → Bool) {p : Params} (anew : p.initializes = true) (w : Nat)
    (argv0 : CStr) (argv : List CStr) (a : ArgsInfo) (v : Cmdline.ArgsInfo)
    (P : Multiset (Nat × Block)) (old : List CStr) :
    Triple P (cmdlineParserInternal grants p w argv0 argv a)
      (Leaves grants true (Getopt.scan Cmdline.table none argv).2 old P
        (Cmdline.cmdlineParserInternal p w argv0 argv v)) := by
  unfold cmdlineParserInternal Cmdline.cmdlineParserInternal
  simp only [anew, ↓reduceIte]
  apply ((init_spec grants).frame P (zero_add P).symm).bind
  rintro s _ ⟨S, args, rfl⟩
  apply ((parsed_spec args p w argv0 argv).frame P rfl).weaken
  rintro r _ ⟨R, crashed | ⟨v', Q, L, args', reports, rfl, lost⟩, rfl⟩
  · exact .inl crashed
  · refine .inr ⟨v', Q, P, args', reports, ?_, rfl⟩
    have nothing : L = 0 := by
      simp only [Lost, Bool.false_eq_true, ↓reduceIte] at lost
      split at lost
      · obtain ⟨q, n, inputs⟩ := lost
        cases inputs with
        | none => rfl
        | array q qs ss I filled => exact absurd rfl filled
      · exact lost
    rw [nothing, add_zero]

theorem refines (args : Stands grants a v P) (p : Params) (w : Nat) (argv0 : CStr)
    (argv : List CStr) :
    Triple P (cmdlineParserInternal grants p w argv0 argv a)
      (Leaves grants p.initializes (Getopt.scan Cmdline.table none argv).2 v.inputs P
        (Cmdline.cmdlineParserInternal p w argv0 argv v)) := by
  cases anew : p.initializes with
  | true => exact anew_spec grants anew w argv0 argv a v P v.inputs
  | false =>
    unfold cmdlineParserInternal Cmdline.cmdlineParserInternal
    simp only [anew, Bool.false_eq_true, ↓reduceIte, pure_bind]
    exact parsed_spec args p w argv0 argv

/-! ## Reading the heap -/

/-- The string that a pointer leads to. -/
def strOf (h : Heap Block) (p : Ptr) : Option CStr :=
  match p.bind h.cells with
  | some (.text s) => some s
  | _ => none

/-- The arguments as a program reads them. -/
def ArgsInfo.view (a : ArgsInfo) (h : Heap Block) : Cmdline.ArgsInfo where
  serial := ⟨(strOf h a.serial.arg).getD [], strOf h a.serial.orig, a.serial.given⟩
  tempo := ⟨a.tempo.arg, strOf h a.tempo.orig, a.tempo.given⟩
  channel := ⟨a.channel.arg, strOf h a.channel.orig, a.channel.given⟩
  message := ⟨a.message.arg, strOf h a.message.orig, a.message.given⟩
  value := ⟨a.value.arg, strOf h a.value.orig, a.value.given⟩
  repeats := ⟨a.repeats.arg, strOf h a.repeats.orig, a.repeats.given⟩
  inputs :=
    if a.inputsNum = 0 then []
    else match a.inputs.bind h.cells with
    | some (.strings slots) => slots.map fun q => (strOf h q.join).getD []
    | _ => []

/-- The heap holds at least these blocks. -/
def Covers (h : Heap Block) (P : Multiset (Nat × Block)) : Prop :=
  ∀ c ∈ P, h.cells c.1 = some c.2

theorem covers_add {h : Heap Block} : Covers h (P + R) ↔ Covers h P ∧ Covers h R := by
  simp only [Covers, Multiset.mem_add, or_imp, forall_and]

theorem strOf_text {h : Heap Block} (granted : ∀ n, grants n = true) {p : Ptr} {s : Option CStr}
    (text : Text grants p s P) (covers : Covers h P) : strOf h p = s := by
  cases text with
  | null => rfl
  | denied s full =>
    obtain ⟨n, refused⟩ := full
    rw [granted] at refused
    cases refused
  | here p s =>
    have here := covers (p, .text s) (Multiset.mem_singleton_self _)
    simp only [strOf, Option.bind_some, here]

theorem strOf_names {h : Heap Block} (granted : ∀ n, grants n = true) {qs : List Ptr}
    {ss : List CStr} (names : Names grants qs ss P) (covers : Covers h P) :
    (qs.map some).map (fun q => (strOf h q.join).getD []) = ss := by
  induction names with
  | nil => rfl
  | cons first _ ih =>
    obtain ⟨own, others⟩ := covers_add.mp covers
    rw [List.map_cons, List.map_cons, ih others]
    simp only [Option.join_some, strOf_text granted first own, Option.getD_some]

theorem view_num {h : Heap Block} (granted : ∀ n, grants n = true) {o : Opt Int32}
    {v : Cmdline.Opt Int32} (rep : Rep grants Num o v P) (covers : Covers h P) :
    (⟨o.arg, strOf h o.orig, o.given⟩ : Cmdline.Opt Int32) = v := by
  obtain ⟨given, A, B, ⟨arg, rfl⟩, orig, rfl⟩ := rep
  rw [strOf_text granted orig (covers_add.mp covers).2, arg, given]

/-- Where no request for memory is refused, a structure reads as what it stands for. -/
theorem stands_view {h : Heap Block} (granted : ∀ n, grants n = true) (args : Stands grants a v P)
    (covers : Covers h P) : a.view h = v := by
  obtain ⟨own, I, fields, inputs, rfl⟩ := args
  simp only [covers_add] at covers
  obtain ⟨⟨⟨⟨⟨⟨S, T⟩, C⟩, M⟩, V⟩, N⟩, I'⟩ := covers
  obtain ⟨given, A, B, arg, orig, same⟩ := fields .serial
  rw [same, covers_add] at S
  have serial : (⟨(strOf h a.serial.arg).getD [], strOf h a.serial.orig, a.serial.given⟩ :
      Cmdline.Opt CStr) = v.serial := by
    rw [strOf_text granted arg S.1, strOf_text granted orig S.2, given, Option.getD_some]
  have names : (a.view h).inputs = v.inputs := by
    unfold ArgsInfo.view
    dsimp only
    generalize a.inputs = q at inputs
    generalize a.inputsNum = n at inputs
    generalize v.inputs = ss at inputs
    cases inputs with
    | none q => rfl
    | array q qs ss P filled names =>
      obtain ⟨block, strings⟩ := covers_add.mp I'
      have here := block (q, .strings (qs.map some)) (Multiset.mem_singleton_self _)
      rw [if_neg fun no => filled (List.length_eq_zero_iff.mp no)]
      simp only [Option.bind_some, here]
      exact strOf_names granted names strings
  have view : a.view h = ⟨_, _, _, _, _, _, (a.view h).inputs⟩ := rfl
  rw [view, names, serial, view_num granted (fields .tempo) T, view_num granted (fields .channel) C,
    view_num granted (fields .message) M, view_num granted (fields .value) V,
    view_num granted (fields .repeats) N]

/-- **The parser on the heap.** From a structure that stands for some arguments
and owns its blocks the parser runs without a fault, whatever else is on the
heap and whichever requests for memory are refused. It ends as the parser with
plain values does, with a structure that stands for the arguments of that one and
owns all blocks that are left, but for those of `Lost`. Only where there are
inputs and a request is refused may it crash instead. With memory enough, what is
read from the heap afterwards is what that parser makes of what was read before. -/
theorem parser_refines {base : Nat → Option Block} {h : Heap Block} (args : Stands grants a v P)
    (own : Owns base h P) (p : Params) (w : Nat) (argv0 : CStr) (argv : List CStr) :
    ∃ r h' R, cmdlineParserInternal grants p w argv0 argv a h = some (r, h') ∧ Owns base h' R ∧
      Leaves grants p.initializes (Getopt.scan Cmdline.table none argv).2 v.inputs P
        (Cmdline.cmdlineParserInternal p w argv0 argv v) r R ∧
      ((∀ n, grants n = true) → r.2 ≠ .crashed ∧ (r.2 = .ok →
        Cmdline.cmdlineParserInternal p w argv0 argv (a.view h) = .ok (r.1.view h'))) := by
  obtain ⟨r, h', R, ran, leaves, own'⟩ := refines args p w argv0 argv base h own
  refine ⟨r, h', R, ran, own', leaves, fun granted => ?_⟩
  rcases leaves with ⟨-, -, n, refused⟩ | ⟨v', Q, L, args', reports, rfl, -⟩
  · rw [granted] at refused
    cases refused
  · constructor
    · intro crashed
      rw [crashed] at reports
      cases reports
    · intro ok
      rw [ok] at reports
      rw [stands_view granted args own.holds,
        stands_view granted args' (covers_add.mp own'.holds).1]
      exact reports

def emptyHeap : Heap Block := ⟨0, fun _ => none, fun _ _ => rfl⟩

/-- A tempo and an input, parsed into arguments that have been set up. -/
theorem parser_refines_tempo :
    ∃ a h r h', cmdlineParserInit (fun _ => true) emptyHeap = some (a, h) ∧
      cmdlineParserInternal (fun _ => true) ⟨false, false, true, false, true⟩ 64 "tapper".toList
        ["-t".toList, "90".toList, "song".toList] a h = some (r, h') ∧ r.2 = .ok ∧
      Cmdline.cmdlineParserInternal ⟨false, false, true, false, true⟩ 64 "tapper".toList
        ["-t".toList, "90".toList, "song".toList] (a.view h) = .ok (r.1.view h') := by
  obtain ⟨a, h, P, started, args, own⟩ := (init_spec fun _ => true).run emptyHeap
  obtain ⟨r, h', R, ran, -, -, enough⟩ := parser_refines args own ⟨false, false, true, false, true⟩
    64 "tapper".toList ["-t".toList, "90".toList, "song".toList]
  have ok : r.2 = .ok := by
    cases started
    cases ran
    rfl
  exact ⟨a, h, r, h', started, ran, ok, (enough fun _ => rfl).2 ok⟩

/-! ## Freeing the arguments -/

/-- What `cmdline_parser2` leaves: behind a failure the arguments are freed. -/
def Kept (grants : Nat → Bool) (anew : Bool) (new old : List CStr) (P : Multiset (Nat × Block))
    (parsed : Cmdline.Parsed) (r : ArgsInfo × Outcome) (R : Multiset (Nat × Block)) : Prop :=
  (r.2 = .crashed ∧ new ≠ [] ∧ ∃ n, grants n = false) ∨
  ∃ v Q L, Reports r.2 parsed v ∧ R = Q + L ∧ Lost grants anew new old P r.2 L ∧
    ((∃ e, r.2 = .failure e) → Q = 0) ∧ (r.2 = .ok → Stands grants r.1 v Q)

theorem parser2_spec {override anew checkRequired : Bool} {w : Nat} {argv0 : CStr}
    {argv new old : List CStr} {parsed : Cmdline.Parsed}
    (spec : Triple P (cmdlineParserInternal grants ⟨override, anew, checkRequired, false, true⟩ w
      argv0 argv a) (Leaves grants anew new old P parsed)) :
    Triple P (cmdlineParser2 grants w argv0 argv a override anew checkRequired)
      (Kept grants anew new old P parsed) := by
  apply spec.bind
  rintro ⟨a', outcome⟩ R (crashed | ⟨v', Q, L, args', reports, rfl, lost⟩)
  · obtain ⟨rfl, crashed⟩ := crashed
    exact .pure (.inl ⟨rfl, crashed⟩)
  · cases outcome with
    | failure e =>
      apply ((release_spec args').frame L rfl).bind
      rintro - _ ⟨-, ⟨rfl, rfl⟩, rfl⟩
      exact .pure (.inr ⟨v', 0, L, reports, rfl, lost, fun _ => rfl, fun e => by cases e⟩)
    | ok | help | version | aborted | crashed =>
      exact .pure (.inr ⟨v', Q, L, reports, rfl, lost, (by rintro ⟨e, ended⟩; cases ended),
        fun _ => args'⟩)

/-- `cmdline_parser_free`, for a structure among other blocks. -/
theorem freed {base : Nat → Option Block} {h : Heap Block} (args : Stands grants a v P)
    (own : Owns base h (P + R)) :
    ∃ h', cmdlineParserRelease a h = some (a.released, h') ∧ Owns base h' R := by
  obtain ⟨_, h', _, ran, ⟨_, ⟨rfl, rfl⟩, rfl⟩, own'⟩ := (release_spec args).frame R rfl base h own
  exact ⟨h', ran, zero_add R ▸ own'⟩

/-- The pointer to the inputs is still there when they are freed. -/
theorem freed_twice {base : Nat → Option Block} {h h' : Heap Block} (args : Stands grants a v P)
    (own : Owns base h P) (gone : h'.cells = base) :
    cmdlineParserRelease a.released h' = none ↔ v.inputs ≠ [] := by
  obtain ⟨fields, I, -, inputs, rfl⟩ := args
  have nothing : (free none : Prog Block Unit) = pure () := rfl
  have again : cmdlineParserRelease a.released = do
      freeInputs a.inputs 0 a.inputsNum
      if a.inputsNum = 0 then pure () else free a.inputs
      return a.released := by
    simp only [cmdlineParserRelease, freeStringField, ArgsInfo.released, nothing, pure_bind]
    rfl
  rw [again]
  generalize a.inputs = q at inputs
  generalize a.inputsNum = n at inputs
  generalize v.inputs = ss at inputs
  cases inputs with
  | none q =>
    simp only [ne_eq, not_true_eq_false, iff_false]
    exact Option.some_ne_none _
  | array p qs ss I filled names =>
    have block : (p, Block.strings (qs.map some)) ∈
        fields .serial + fields .tempo + fields .channel + fields .message + fields .value +
          fields .repeats + (points (some p) (.strings (qs.map some)) + I) :=
      Multiset.mem_add.mpr (.inr (Multiset.mem_add.mpr (.inl (Multiset.mem_singleton_self _))))
    have lost := own.apart _ block
    rw [← gone] at lost
    obtain ⟨k, long⟩ : ∃ k, ss.length = k + 1 :=
      Nat.exists_eq_succ_of_ne_zero (fun no => filled (List.length_eq_zero_iff.mp no))
    rw [long]
    simp only [filled, ne_eq, not_false_eq_true, iff_true]
    simp only [freeInputs, slot, bind, StateT.bind, load_gone lost, Option.bind_none]

/-- **One command line.** Whatever the structure holds and whatever is on the
heap: `cmdline_parser` ends as the parser with plain values does, without a
fault. Where it fails it has freed what it allocated, and where it returns
`cmdline_parser_free` does, so that the heap is what it was. To free the arguments
twice is a fault exactly where there are inputs. -/
theorem line_freed (grants : Nat → Bool) (w : Nat) (argv0 : CStr) (argv : List CStr) (a : ArgsInfo)
    (h : Heap Block) :
    ∃ a' outcome h', cmdlineParser2 grants w argv0 argv a false true true h =
        some ((a', outcome), h') ∧
      ((outcome = .crashed ∧ (Getopt.scan Cmdline.table none argv).2 ≠ [] ∧ ∃ n, grants n = false) ∨
      ∃ v, Reports outcome (Cmdline.cmdlineParser w argv0 argv) v ∧
        ((∃ e, outcome = .failure e) → h'.cells = h.cells) ∧
        (outcome = .ok → ∃ a'' h'', cmdlineParserRelease a' h' = some (a'', h'') ∧
          h''.cells = h.cells ∧ (cmdlineParserRelease a'' h'' = none ↔ v.inputs ≠ []))) := by
  have spec := parser2_spec (anew_spec grants (p := ⟨false, true, true, false, true⟩) rfl w argv0
    argv a Cmdline.cmdlineParserInit 0 [])
  obtain ⟨⟨a', outcome⟩, h', R, ran, kept, own⟩ := spec.run h
  refine ⟨a', outcome, h', ran, ?_⟩
  rcases kept with crashed | ⟨v, Q, L, reports, rfl, rfl, failed, returned⟩
  · exact .inl crashed
  · rw [add_zero] at own
    have same := Cmdline.cmdlineParser_eq w argv0 argv Cmdline.cmdlineParserInit
    rw [Cmdline.cmdlineParser2] at same
    refine .inr ⟨v, same ▸ reports, fun e => ?_, fun ok => ?_⟩
    · exact own.cells_eq_iff.mpr (failed e)
    · have args := returned ok
      obtain ⟨h'', ran', own'⟩ := freed args ((add_zero Q).symm ▸ own)
      have gone := own'.cells_eq_iff.mpr rfl
      exact ⟨_, h'', ran', gone, freed_twice args own gone⟩

/-- **What a second command line loses.** It is parsed into arguments that are
there. Where the structure is not set up anew and the line fails, all is freed;
where it returns and the arguments are freed, the heap is what it was unless both
lines have inputs. Set up anew, the structure loses what it owned. -/
theorem nothing_lost_iff {base : Nat → Option Block} {h : Heap Block} (args : Stands grants a v P)
    (own : Owns base h P) (w : Nat) (argv0 : CStr) (argv : List CStr)
    (override anew checkRequired : Bool) :
    ∃ a' outcome h', cmdlineParser2 grants w argv0 argv a override anew checkRequired h =
        some ((a', outcome), h') ∧
      ((∃ e, outcome = .failure e) → (h'.cells = base ↔ anew = true → P = 0)) ∧
      (outcome = .ok → ∃ a'' h'', cmdlineParserRelease a' h' = some (a'', h'') ∧
        (h''.cells = base ↔ if anew then P = 0 else
          v.inputs = [] ∨ (Getopt.scan Cmdline.table none argv).2 = [])) := by
  have spec := parser2_spec (refines args ⟨override, anew, checkRequired, false, true⟩ w argv0 argv)
  obtain ⟨⟨a', outcome⟩, h', R, ran, kept, own⟩ := spec base h own
  refine ⟨a', outcome, h', ran, ?_⟩
  rcases kept with ⟨rfl, -⟩ | ⟨v', Q, L, reports, rfl, lost, failed, returned⟩
  · exact ⟨fun ⟨e, ended⟩ => (by cases ended), fun e => (by cases e)⟩
  constructor
  · rintro ⟨e, rfl⟩
    rw [failed ⟨e, rfl⟩, zero_add] at own
    rw [own.cells_eq_iff]
    cases anew with
    | true => exact ⟨fun nothing _ => lost ▸ nothing, fun owned => lost.trans (owned rfl)⟩
    | false => exact ⟨fun _ e => (by cases e), fun _ => lost⟩
  · intro ok
    obtain ⟨h'', ran', own'⟩ := freed (returned ok) own
    refine ⟨_, h'', ran', ?_⟩
    rw [own'.cells_eq_iff]
    cases anew with
    | true =>
      have all : L = P := lost
      simp only [↓reduceIte, all]
    | false =>
      simp only [Lost, ok, true_and, Bool.false_eq_true, ↓reduceIte] at lost ⊢
      split at lost
      · rename_i new
        obtain ⟨q, n, inputs⟩ := lost
        rw [inputs_nothing inputs]
        simp [new]
      · rename_i empty
        simp only [ne_eq, not_not] at empty
        simp [empty, lost]

/-- Two lines with an input each: the first array is lost. -/
theorem nothing_lost_iff_inputs :
    ∃ a h b h1 c h2 d h3, cmdlineParserInit (fun _ => true) emptyHeap = some (a, h) ∧
      cmdlineParser2 (fun _ => true) 64 "tapper".toList ["song".toList] a false false true h =
        some ((b, .ok), h1) ∧
      cmdlineParser2 (fun _ => true) 64 "tapper".toList ["more".toList] b false false true h1 =
        some ((c, .ok), h2) ∧
      cmdlineParserRelease c h2 = some (d, h3) ∧ h3.cells ≠ emptyHeap.cells := by
  obtain ⟨a, h, P, started, args, own⟩ := (init_spec fun _ => true).run emptyHeap
  obtain ⟨⟨b, first⟩, h1, R, ran, kept, own1⟩ := parser2_spec
    (refines args ⟨false, false, true, false, true⟩ 64 "tapper".toList ["song".toList]) _ h own
  have ok : first = .ok := by
    cases started
    cases ran
    rfl
  subst ok
  rcases kept with ⟨crashed, -⟩ | ⟨v, Q, L, reports, rfl, lost, -, returned⟩
  · cases crashed
  obtain ⟨q, n, inputs⟩ := lost
  rw [(inputs_nothing inputs).mpr rfl, add_zero] at own1
  obtain ⟨c, second, h2, ran2, -, freed⟩ := nothing_lost_iff (returned rfl) own1 64 "tapper".toList
    ["more".toList] false false true
  have ok : second = .ok := by
    cases started
    cases ran
    cases ran2
    rfl
  subst ok
  obtain ⟨d, h3, gone, same⟩ := freed rfl
  refine ⟨a, h, b, h1, c, h2, d, h3, started, ran, ran2, gone, fun all => ?_⟩
  have inputs : v.inputs = ["song".toList] :=
    congrArg Cmdline.ArgsInfo.inputs (Cmdline.Parsed.ok.inj reports).symm
  cases same.mp all with
  | inl empty => rw [inputs] at empty; cases empty
  | inr empty => cases empty

end MidiGw.Memory
