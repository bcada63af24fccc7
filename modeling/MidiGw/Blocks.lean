import Mathlib.Data.Multiset.AddSub
import Mathlib.Data.Multiset.MapFold
import Mathlib.Data.Multiset.UnionInter

/-!
# Blocks of memory and who owns them

A heap of blocks that programs allocate, read, write and free, and rules for
programs that own some of the blocks. What a program owns is a multiset of
addresses with their contents; a triple says that it runs without a fault on
what it owns, whatever else is there, and what it owns then.

* `Triple.frame`: a program leaves alone what it does not own;
* `Triple.bind`: programs one after the other;
* `triple_malloc`, `triple_free`, `triple_load`, `triple_store`: the operations;
* `Triple.run`: a program that owns nothing, on any heap.
-/

namespace MidiGw.Blocks

variable {α β γ : Type}

/-- The blocks that are allocated. No address is handed out twice, so a pointer
to a block that was freed stays one. -/
structure Heap (β : Type) where
  next : Nat
  cells : Nat → Option β
  fresh : ∀ p, next ≤ p → cells p = none

def Heap.push (h : Heap β) (v : β) : Heap β where
  next := h.next + 1
  cells p := if p = h.next then some v else h.cells p
  fresh p above := by
    rw [if_neg (by omega)]
    exact h.fresh p (by omega)

/-- A request that is refused. -/
def Heap.skip (h : Heap β) : Heap β where
  next := h.next + 1
  cells := h.cells
  fresh p above := h.fresh p (by omega)

def Heap.put (h : Heap β) (p : Nat) (v : Option β) (live : (h.cells p).isSome) : Heap β where
  next := h.next
  cells q := if q = p then v else h.cells q
  fresh q above := by
    have free := h.fresh q above
    by_cases same : q = p
    · rw [same] at free
      rw [free] at live
      cases live
    · rw [if_neg same, free]

/-- `none` is a fault: an access to a block that is not allocated. -/
abbrev Prog (β α : Type) := StateT (Heap β) Option α

/-- A new block, or the null pointer; `grants` says which requests are granted. -/
def malloc (grants : Nat → Bool) (v : β) : Prog β (Option Nat) := fun h =>
  if grants h.next then some (some h.next, h.push v) else some (none, h.skip)

def free : Option Nat → Prog β Unit
  | none => pure ()
  | some p => fun h => if live : (h.cells p).isSome then some ((), h.put p none live) else none

def load : Option Nat → Prog β β
  | none => fun _ => none
  | some p => fun h => (h.cells p).map fun v => (v, h)

def store : Option Nat → β → Prog β Unit
  | none, _ => fun _ => none
  | some p, v => fun h =>
    if live : (h.cells p).isSome then some ((), h.put p (some v) live) else none

/-! ## Owning blocks -/

/-- The block behind a pointer; there is none behind the null pointer. -/
def points : Option Nat → β → Multiset (Nat × β)
  | none, _ => 0
  | some p, v => {(p, v)}

/-- The heap holds these blocks, each once, and is what `base` says elsewhere. -/
structure Owns (base : Nat → Option β) (h : Heap β) (own : Multiset (Nat × β)) : Prop where
  once : (own.map Prod.fst).Nodup
  holds : ∀ c ∈ own, h.cells c.1 = some c.2
  apart : ∀ c ∈ own, base c.1 = none
  frame : ∀ p, p ∉ own.map Prod.fst → h.cells p = base p

/-- What is there besides the blocks of `own`. -/
def rest (base : Nat → Option β) (h : Heap β) (own : Multiset (Nat × β)) : Nat → Option β :=
  fun p => if p ∈ own.map Prod.fst then h.cells p else base p

theorem Owns.zero {base : Nat → Option β} {h : Heap β} (owns : Owns base h 0) : h.cells = base := by
  funext p
  exact owns.frame p (Multiset.notMem_zero p)

/-- The heap is what it is besides the owned blocks only where there are none. -/
theorem Owns.cells_eq_iff {base : Nat → Option β} {h : Heap β} {own : Multiset (Nat × β)}
    (owns : Owns base h own) : h.cells = base ↔ own = 0 := by
  constructor
  · intro same
    apply Multiset.eq_zero_of_forall_notMem
    intro c mem
    have here := owns.holds c mem
    rw [same, owns.apart c mem] at here
    cases here
  · rintro rfl
    exact owns.zero

theorem owns_zero (h : Heap β) : Owns h.cells h 0 where
  once := Multiset.nodup_zero
  holds c mem := absurd mem (Multiset.notMem_zero c)
  apart c mem := absurd mem (Multiset.notMem_zero c)
  frame _ _ := rfl

theorem owns_single {base : Nat → Option β} {h : Heap β} {p : Nat} {v : β}
    (here : h.cells p = some v) (apart : base p = none)
    (frame : ∀ q, q ≠ p → h.cells q = base q) : Owns base h (points (some p) v) where
  once := Multiset.nodup_singleton p
  holds c mem := by rw [Multiset.mem_singleton.mp mem]; exact here
  apart c mem := by rw [Multiset.mem_singleton.mp mem]; exact apart
  frame q out := frame q fun same => out (Multiset.mem_singleton.mpr same)

theorem Owns.single {base : Nat → Option β} {h : Heap β} {p : Nat} {v : β}
    (own : Owns base h (points (some p) v)) :
    h.cells p = some v ∧ base p = none ∧ ∀ q, q ≠ p → h.cells q = base q := by
  have mem : (p, v) ∈ points (some p) v := Multiset.mem_singleton_self _
  refine ⟨own.holds _ mem, own.apart _ mem, fun q ne => own.frame q fun same => ?_⟩
  exact ne (Multiset.mem_singleton.mp same)

/-- A part of what is owned, with the other part left to the rest. -/
theorem Owns.split {base : Nat → Option β} {h : Heap β} {P F : Multiset (Nat × β)}
    (own : Owns base h (P + F)) : Owns (rest base h F) h P := by
  have once := own.once
  rw [Multiset.map_add, Multiset.nodup_add] at once
  obtain ⟨onceP, -, disjoint⟩ := once
  constructor
  · exact onceP
  · exact fun c mem => own.holds c (Multiset.mem_add.mpr (.inl mem))
  · intro c mem
    have out := Multiset.disjoint_left.mp disjoint (Multiset.mem_map_of_mem Prod.fst mem)
    rw [rest, if_neg out]
    exact own.apart c (Multiset.mem_add.mpr (.inl mem))
  · intro p out
    by_cases inside : p ∈ F.map Prod.fst
    · rw [rest, if_pos inside]
    · rw [rest, if_neg inside]
      apply own.frame
      rw [Multiset.map_add, Multiset.mem_add, not_or]
      exact ⟨out, inside⟩

/-- What has become of one part, beside the other. -/
theorem Owns.join {base : Nat → Option β} {h h' : Heap β} {P F R : Multiset (Nat × β)}
    (whole : Owns base h (P + F)) (part : Owns (rest base h F) h' R) : Owns base h' (R + F) := by
  have once := whole.once
  rw [Multiset.map_add, Multiset.nodup_add] at once
  obtain ⟨-, onceF, -⟩ := once
  have holds {c : Nat × β} (mem : c ∈ F) : h.cells c.1 = some c.2 :=
    whole.holds c (Multiset.mem_add.mpr (.inr mem))
  have disjoint {p : Nat} (mem : p ∈ R.map Prod.fst) : p ∉ F.map Prod.fst := by
    intro inside
    obtain ⟨c, memR, rfl⟩ := Multiset.mem_map.mp mem
    obtain ⟨d, memF, same⟩ := Multiset.mem_map.mp inside
    have apart := part.apart c memR
    rw [rest, if_pos inside, ← same, holds memF] at apart
    cases apart
  constructor
  · rw [Multiset.map_add, Multiset.nodup_add]
    exact ⟨part.once, onceF, Multiset.disjoint_left.mpr disjoint⟩
  · intro c mem
    cases Multiset.mem_add.mp mem with
    | inl mem => exact part.holds c mem
    | inr mem =>
      have inside := Multiset.mem_map_of_mem Prod.fst mem
      rw [part.frame c.1 fun out => disjoint out inside, rest, if_pos inside, holds mem]
  · intro c mem
    cases Multiset.mem_add.mp mem with
    | inl mem =>
      have apart := part.apart c mem
      rwa [rest, if_neg (disjoint (Multiset.mem_map_of_mem Prod.fst mem))] at apart
    | inr mem => exact whole.apart c (Multiset.mem_add.mpr (.inr mem))
  · intro p out
    rw [Multiset.map_add, Multiset.mem_add, not_or] at out
    rw [part.frame p out.1, rest, if_neg out.2]

/-! ## Triples -/

/-- From any heap in which it owns `P` the program runs without a fault, and
with its result it owns some blocks that `Q` tells of; nothing else changes. -/
def Triple (P : Multiset (Nat × β)) (m : Prog β α) (Q : α → Multiset (Nat × β) → Prop) : Prop :=
  ∀ base h, Owns base h P → ∃ a h' R, m h = some (a, h') ∧ Q a R ∧ Owns base h' R

variable {P R F : Multiset (Nat × β)} {m : Prog β α} {Q : α → Multiset (Nat × β) → Prop}

theorem Triple.pure {a : α} (post : Q a P) : Triple P (pure a) Q :=
  fun _ h own => ⟨a, h, P, rfl, post, own⟩

theorem Triple.bind {f : α → Prog β γ} {S : γ → Multiset (Nat × β) → Prop} (first : Triple P m Q)
    (next : ∀ a R, Q a R → Triple R (f a) S) : Triple P (m >>= f) S := by
  intro base h own
  obtain ⟨a, h', R, ran, post, own'⟩ := first base h own
  obtain ⟨c, h'', T, ran', post', own''⟩ := next a R post base h' own'
  refine ⟨c, h'', T, ?_, post', own''⟩
  show (m h).bind _ = _
  rw [ran]
  exact ran'

theorem Triple.weaken {S : α → Multiset (Nat × β) → Prop} (h : Triple P m Q)
    (post : ∀ a R, Q a R → S a R) : Triple P m S := by
  intro base heap own
  obtain ⟨a, h', R, ran, here, own'⟩ := h base heap own
  exact ⟨a, h', R, ran, post a R here, own'⟩

/-- A program leaves alone what it does not own. -/
theorem Triple.frame {W : Multiset (Nat × β)} (h : Triple P m Q) (F : Multiset (Nat × β))
    (whole : W = P + F) : Triple W m fun a R => ∃ T, Q a T ∧ R = T + F := by
  intro base heap own
  rw [whole] at own
  obtain ⟨a, h', R, ran, post, own'⟩ := h (rest base heap F) heap own.split
  exact ⟨a, h', R + F, ran, ⟨R, post, rfl⟩, own.join own'⟩

/-- A program that owns nothing at first, on any heap. -/
theorem Triple.run (t : Triple 0 m Q) (h : Heap β) :
    ∃ a h' R, m h = some (a, h') ∧ Q a R ∧ Owns h.cells h' R :=
  t h.cells h (owns_zero h)

/-! ## The operations -/

theorem triple_malloc (grants : Nat → Bool) (v : β) :
    Triple 0 (malloc grants v) fun r R => R = points r v ∧ (r = none → ∃ n, grants n = false) := by
  intro base h own
  have same := own.zero
  unfold malloc
  by_cases granted : grants h.next = true
  · rw [if_pos granted]
    refine ⟨_, _, _, rfl, ⟨rfl, fun e => by cases e⟩, owns_single ?_ ?_ ?_⟩
    · exact if_pos rfl
    · rw [← same]
      exact h.fresh h.next (Nat.le_refl _)
    · intro q ne
      rw [← same]
      exact if_neg ne
  · rw [if_neg granted]
    refine ⟨_, _, _, rfl, ⟨rfl, fun _ => ⟨h.next, by simpa using granted⟩⟩, ?_⟩
    rw [← same]
    exact owns_zero h.skip

theorem triple_free (p : Option Nat) (v : β) : Triple (points p v) (free p) fun _ R => R = 0 := by
  cases p with
  | none => exact .pure rfl
  | some p =>
    intro base h own
    obtain ⟨here, apart, frame⟩ := own.single
    have live : (h.cells p).isSome := by rw [here]; rfl
    refine ⟨(), h.put p none live, 0, ?_, rfl, ?_⟩
    · exact dif_pos live
    · have same : (h.put p none live).cells = base := by
        funext q
        by_cases eq : q = p
        · rw [eq, apart]
          exact if_pos rfl
        · rw [← frame q eq]
          exact if_neg eq
      rw [← same]
      exact owns_zero _

theorem triple_load (p : Nat) (v : β) :
    Triple (points (some p) v) (load (some p)) fun w R => w = v ∧ R = points (some p) v := by
  intro base h own
  obtain ⟨here, -, -⟩ := own.single
  refine ⟨v, h, _, ?_, ⟨rfl, rfl⟩, own⟩
  show (h.cells p).map _ = _
  rw [here]
  rfl

theorem triple_store (p : Nat) (v w : β) :
    Triple (points (some p) v) (store (some p) w) fun _ R => R = points (some p) w := by
  intro base h own
  obtain ⟨here, apart, frame⟩ := own.single
  have live : (h.cells p).isSome := by rw [here]; rfl
  refine ⟨(), h.put p (some w) live, _, dif_pos live, rfl, owns_single ?_ apart ?_⟩
  · exact if_pos rfl
  · intro q ne
    rw [← frame q ne]
    exact if_neg ne

theorem load_gone {h : Heap β} {p : Nat} (gone : h.cells p = none) : load (some p) h = none := by
  show (h.cells p).map _ = _
  rw [gone]
  rfl

end MidiGw.Blocks
