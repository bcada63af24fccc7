/-!
# A one-place mailbox

A flag that one party sets and another clears: a message posted while the
place is full is merged with the one that waits there. Nothing posted is lost
in any other way (`conserved`), and only a full place merges.
-/

namespace MidiGw

structure Slot where
  full : Bool
  posted : Nat
  merged : Nat
  taken : Nat
  deriving DecidableEq, Repr

namespace Slot

def empty : Slot := ⟨false, 0, 0, 0⟩

def post (s : Slot) : Slot :=
  { s with full := true, posted := s.posted + 1, merged := s.merged + s.full.toNat }

def take (s : Slot) : Slot := { s with full := false, taken := s.taken + 1 }

/-- Any interleaving of posts with takes from a full place. -/
inductive Reachable : Slot → Prop
  | empty : Reachable empty
  | post {s : Slot} : Reachable s → Reachable (post s)
  | take {s : Slot} : Reachable s → s.full = true → Reachable (take s)

/-- Every post was taken, was merged, or still waits. -/
theorem conserved {s : Slot} (h : Reachable s) :
    s.posted = s.taken + s.merged + s.full.toNat := by
  induction h with
  | empty => rfl
  | post _ ih => simp only [post, Bool.toNat_true]; omega
  | take _ full ih =>
    rw [full] at ih
    simp only [take, Bool.toNat_false, Bool.toNat_true] at ih ⊢
    omega

end Slot

end MidiGw
