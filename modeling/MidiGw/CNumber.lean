import Mathlib.Data.List.Induction
import Mathlib.Data.List.TakeWhile
import Mathlib.Tactic.NormNum

/-!
# C strings and C integers

What the C library and the C conversions do with numbers, for any program:
`strtol` with base 0 on a `long` of any width, the assignment of a `long` to
an `int`, and the narrowing of an `int` to an `unsigned char`.
-/

namespace MidiGw.C

/-- A C string: the characters before its terminating NUL. Only ASCII
characters are ever looked at, so a character stands for its encoded bytes. -/
abbrev CStr := List Char

/-- `isspace` in the C locale. -/
def isSpace (c : Char) : Bool :=
  c = ' ' || c = '\t' || c = '\n' || c = '\x0b' || c = '\x0c' || c = '\x0d'

/-- The value of a digit or letter, and 36 for every other character: a digit
of base `b` is a character whose value is below `b`. -/
def digitVal (c : Char) : Nat :=
  if 48 ≤ c.toNat ∧ c.toNat ≤ 57 then c.toNat - 48
  else if 97 ≤ c.toNat ∧ c.toNat ≤ 122 then c.toNat - 87
  else if 65 ≤ c.toNat ∧ c.toNat ≤ 90 then c.toNat - 55
  else 36

/-- The number a list of digits spells in a base, most significant first. -/
def value (base : Nat) (ds : CStr) : Nat :=
  ds.foldl (fun n c => base * n + digitVal c) 0

/-- The optional sign: whether the number is negated, and what follows. -/
def sign : CStr → Bool × CStr
  | '-' :: s => (true, s)
  | '+' :: s => (false, s)
  | s => (false, s)

/-- The base that `strtol` deduces when it is called with base 0, and the text
its digits are read from. `0x` is a prefix only in front of a hex digit. -/
def baseZero : CStr → Nat × CStr
  | '0' :: x :: d :: s =>
    if (x = 'x' ∨ x = 'X') ∧ digitVal d < 16 then (16, d :: s) else (8, '0' :: x :: d :: s)
  | '0' :: s => (8, '0' :: s)
  | s => (10, s)

/-- Out-of-range results saturate at `LONG_MIN` and `LONG_MAX`. -/
def clampLong (w : Nat) (x : Int) : Int :=
  max (-2 ^ (w - 1)) (min x (2 ^ (w - 1) - 1))

/-- `strtol (s, &stop, 0)` on a `long` of `w` bits: the value, and the text at
`stop`. With no digits at all nothing is consumed. -/
def strtol (w : Nat) (s : CStr) : Int × CStr :=
  let signed := sign (s.dropWhile isSpace)
  let based := baseZero signed.2
  let ds := based.2.takeWhile (digitVal · < based.1)
  if ds = [] then (0, s)
  else
    let n : Int := value based.1 ds
    (clampLong w (if signed.1 then -n else n), based.2.dropWhile (digitVal · < based.1))

/-- Assignment of an `int` to an `unsigned char`. -/
def toUChar (x : Int32) : UInt8 := x.toUInt32.toUInt8

theorem toUChar_toNat (x : Int32) : ((toUChar x).toNat : Int) = x.toInt % 256 := by
  have hx : x.toInt = (x.toUInt32.toNat : Int).bmod (2 ^ 32) := by
    rw [← Int32.toInt_toBitVec, BitVec.toInt_eq_toNat_bmod]
    rfl
  simp only [toUChar, UInt32.toNat_toUInt8, hx]
  have := x.toUInt32.toNat_lt
  rw [Int.bmod_def]
  split <;> omega

/-- An `int` assigned from a wider integer keeps its value modulo 2^32. -/
theorem toInt_ofInt (k : Int) :
    (Int32.ofInt k).toInt =
      if k % 4294967296 < 2147483648 then k % 4294967296 else k % 4294967296 - 4294967296 := by
  rw [Int32.toInt_ofInt, Int.bmod_def]
  norm_num [Int32.size]

/-- Narrowed to an `unsigned char`, it is its value modulo 2^8. -/
theorem toUChar_ofInt (k : Int) : ((toUChar (Int32.ofInt k)).toNat : Int) = k % 256 := by
  rw [toUChar_toNat, toInt_ofInt]
  split <;> omega

theorem clampLong_natCast {w : Nat} (n : Nat) :
    clampLong w n = min (n : Int) (2 ^ (w - 1) - 1) := by
  have pos : (0 : Int) < 2 ^ (w - 1) := Int.pow_pos (by decide)
  unfold clampLong
  omega

/-! ## Digit strings -/

@[simp] theorem value_nil (b : Nat) : value b [] = 0 := rfl

@[simp] theorem value_snoc (b : Nat) (ds : CStr) (c : Char) :
    value b (ds ++ [c]) = b * value b ds + digitVal c := by
  simp [value, List.foldl_append]

/-- Characters `0` to `9` only. -/
def Digits (s : CStr) : Prop := ∀ c ∈ s, c.isDigit

instance (s : CStr) : Decidable (Digits s) := List.decidableBAll _ s

theorem isDigit_toNat {c : Char} (h : c.isDigit) : 48 ≤ c.toNat ∧ c.toNat ≤ 57 := by
  simp only [Char.isDigit, Bool.and_eq_true, decide_eq_true_eq] at h
  exact ⟨UInt32.le_iff_toNat_le.mp h.1, UInt32.le_iff_toNat_le.mp h.2⟩

theorem isDigit_ne {c d : Char} (h : c.isDigit) (other : d.toNat < 48 ∨ 57 < d.toNat) : c ≠ d := by
  have range := isDigit_toNat h
  rintro rfl
  omega

theorem digitVal_isDigit {c : Char} (h : c.isDigit) : digitVal c < 10 := by
  have range := isDigit_toNat h
  simp only [digitVal, range, and_self, ↓reduceIte]
  omega

theorem isSpace_isDigit {c : Char} (h : c.isDigit) : isSpace c = false := by
  have ne {d : Char} (other : d.toNat < 48 ∨ 57 < d.toNat) : c ≠ d := isDigit_ne h other
  simp only [isSpace, Bool.or_eq_false_iff, decide_eq_false_iff_not]
  exact ⟨⟨⟨⟨⟨ne (by decide), ne (by decide)⟩, ne (by decide)⟩, ne (by decide)⟩, ne (by decide)⟩,
    ne (by decide)⟩

/-- The base `strtol` deduces for a digit string: a leading zero makes it octal. -/
def digitBase (s : CStr) : Nat := if s.head? = some '0' then 8 else 10

/-- Every digit is one of the deduced base. -/
def Readable (s : CStr) : Prop := ∀ c ∈ s, digitVal c < digitBase s

instance (s : CStr) : Decidable (Readable s) := List.decidableBAll _ s

/-- The number a digit string spells in its deduced base. -/
def reading (s : CStr) : Nat := value (digitBase s) s

theorem sign_digits {s : CStr} (digits : Digits s) : sign s = (false, s) := by
  unfold sign
  split
  · exact absurd rfl (isDigit_ne (digits '-' List.mem_cons_self) (by decide))
  · exact absurd rfl (isDigit_ne (digits '+' List.mem_cons_self) (by decide))
  · rfl

theorem baseZero_digits {s : CStr} (digits : Digits s) : baseZero s = (digitBase s, s) := by
  unfold baseZero
  split
  · rename_i x d rest
    have digit := digits x (by simp)
    have plain : ¬((x = 'x' ∨ x = 'X') ∧ digitVal d < 16) := by
      rintro ⟨rfl | rfl, -⟩
      · exact absurd digit (by decide)
      · exact absurd digit (by decide)
    rw [if_neg plain]
    rfl
  · rfl
  · rename_i other
    cases s with
    | nil => rfl
    | cons c rest =>
      have ne : c ≠ '0' := fun e => other rest (by rw [e])
      simp [digitBase, ne]

/-- `strtol` reads a digit string up to the first digit that is not one of the
deduced base. -/
theorem strtol_digits (w : Nat) {s : CStr} (ne : s ≠ []) (digits : Digits s) :
    strtol w s =
      (clampLong w (value (digitBase s) (s.takeWhile (digitVal · < digitBase s))),
        s.dropWhile (digitVal · < digitBase s)) := by
  obtain ⟨c, rest, rfl⟩ := List.exists_cons_of_ne_nil ne
  have digit := digits c List.mem_cons_self
  have spaces : (c :: rest).dropWhile isSpace = c :: rest :=
    List.dropWhile_cons_of_neg (by simp [isSpace_isDigit digit])
  have first : digitVal c < digitBase (c :: rest) := by
    unfold digitBase
    split
    · rename_i zero
      cases zero
      decide
    · exact digitVal_isDigit digit
  have digitsRead : (c :: rest).takeWhile (digitVal · < digitBase (c :: rest)) ≠ [] := by simp [first]
  simp only [strtol, spaces, sign_digits digits, baseZero_digits digits, if_neg digitsRead]
  rfl

theorem strtol_rest (w : Nat) {s : CStr} (ne : s ≠ []) (digits : Digits s) :
    (strtol w s).2 = [] ↔ Readable s := by
  rw [strtol_digits w ne digits, List.dropWhile_eq_nil_iff]
  simp only [decide_eq_true_eq, Readable]

theorem strtol_value (w : Nat) {s : CStr} (ne : s ≠ []) (digits : Digits s)
    (readable : Readable s) : (strtol w s).1 = clampLong w (reading s) := by
  have all : s.takeWhile (digitVal · < digitBase s) = s :=
    List.takeWhile_eq_self_iff.mpr fun c mem => by simpa using readable c mem
  rw [strtol_digits w ne digits, all, reading]

example : strtol 64 "010".toList = (8, []) := by decide
example : strtol 64 "08".toList = (0, "8".toList) := by decide

/-! ## Octal and decimal -/

theorem value_octal_le (ds : CStr) : value 8 ds ≤ value 10 ds := by
  induction ds using List.reverseRecOn with
  | nil => exact Nat.le_refl 0
  | append_singleton ds c ih => rw [value_snoc, value_snoc]; omega

/-- One octal digit, leading zeros aside, is the same number in decimal. -/
theorem value_decimal_of_octal {ds : CStr} (small : value 8 ds < 8) : value 10 ds = value 8 ds := by
  induction ds using List.reverseRecOn with
  | nil => rfl
  | append_singleton ds c ih =>
    rw [value_snoc] at small
    have front := ih (by omega)
    rw [value_snoc, value_snoc]
    omega

/-- Octal and decimal agree on numbers below 8 only. -/
theorem value_octal_eq_iff {ds : CStr} (octal : ∀ c ∈ ds, digitVal c < 8) :
    value 8 ds = value 10 ds ↔ value 10 ds < 8 := by
  constructor
  · intro same
    cases ds using List.reverseRecOn with
    | nil => decide
    | append_singleton ds c =>
      have last := octal c (by simp)
      have le := value_octal_le ds
      rw [value_snoc, value_snoc] at same
      rw [value_snoc]
      omega
  · intro small
    have le := value_octal_le ds
    exact (value_decimal_of_octal (by omega)).symm

/-- Two octal digits from `10` to `17` read two more in decimal. -/
theorem value_decimal_of_teen {ds : CStr} (octal : ∀ c ∈ ds, digitVal c < 8)
    (lo : 8 ≤ value 8 ds) (hi : value 8 ds < 16) : value 10 ds = value 8 ds + 2 := by
  cases ds using List.reverseRecOn with
  | nil => simp at lo
  | append_singleton ds c =>
    have last := octal c (by simp)
    rw [value_snoc] at lo hi
    have front := @value_decimal_of_octal ds (by omega)
    rw [value_snoc, value_snoc]
    omega

/-- A number below 8 has no digit 8 or 9. -/
theorem octal_of_small {ds : CStr} (small : value 10 ds < 8) : ∀ c ∈ ds, digitVal c < 8 := by
  induction ds using List.reverseRecOn with
  | nil => simp
  | append_singleton ds d ih =>
    rw [value_snoc] at small
    have front := ih (by omega)
    intro c mem
    cases List.mem_append.mp mem with
    | inl mem => exact front c mem
    | inr mem =>
      rw [List.mem_singleton.mp mem]
      omega

/-- The deduced base is without effect unless a leading zero stands in front
of a number of two digits. -/
theorem reading_eq_iff {s : CStr} (readable : Readable s) :
    reading s = value 10 s ↔ (s.head? = some '0' → value 10 s < 8) := by
  unfold Readable at readable
  unfold reading
  by_cases zero : s.head? = some '0'
  · have base : digitBase s = 8 := if_pos zero
    rw [base] at readable ⊢
    rw [value_octal_eq_iff readable]
    exact ⟨fun small _ => small, fun small => small zero⟩
  · have base : digitBase s = 10 := if_neg zero
    rw [base]
    exact ⟨fun _ e => absurd e zero, fun _ => rfl⟩

theorem reading_le (s : CStr) : reading s ≤ value 10 s := by
  unfold reading digitBase
  split
  · exact value_octal_le s
  · exact Nat.le_refl _

theorem readable_of_small {s : CStr} (digits : Digits s)
    (small : s.head? = some '0' → value 10 s < 8) : Readable s := by
  intro c mem
  unfold digitBase
  split
  · rename_i zero; exact octal_of_small (small zero) c mem
  · exact digitVal_isDigit (digits c mem)

end MidiGw.C
