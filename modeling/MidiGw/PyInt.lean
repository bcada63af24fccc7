import MidiGw.CNumber

/-!
# Python's conversion of a text to an integer

`int` with one argument that is a text: spaces around it, a sign, decimal digits
of any script with single underscores between them, and not too many of them.
`none` where it raises `ValueError`.
-/

namespace MidiGw.PyInt

open C (CStr Digits)

/-- More digits are refused, leading zeros among them. -/
def maxStrDigits : Nat := 4300

/-- The zeros in front of the ranges of ten decimal digits, past ASCII. -/
def decimalZeros : List Nat :=
  [0x660, 0x6f0, 0x7c0, 0x966, 0x9e6, 0xa66, 0xae6, 0xb66, 0xbe6, 0xc66, 0xce6, 0xd66, 0xde6,
    0xe50, 0xed0, 0xf20, 0x1040, 0x1090, 0x17e0, 0x1810, 0x1946, 0x19d0, 0x1a80, 0x1a90, 0x1b50,
    0x1bb0, 0x1c40, 0x1c50, 0xa620, 0xa8d0, 0xa900, 0xa9d0, 0xa9f0, 0xaa50, 0xabf0, 0xff10,
    0x104a0, 0x10d30, 0x11066, 0x110f0, 0x11136, 0x111d0, 0x112f0, 0x11450, 0x114d0, 0x11650,
    0x116c0, 0x11730, 0x118e0, 0x11950, 0x11c50, 0x11d50, 0x11da0, 0x16a60, 0x16ac0, 0x16b50,
    0x1d7ce, 0x1d7d8, 0x1d7e2, 0x1d7ec, 0x1d7f6, 0x1e140, 0x1e2f0, 0x1e950, 0x1fbf0]

/-- The spaces past ASCII. -/
def wideSpaces : List Nat :=
  [0x85, 0xa0, 0x1680, 0x2000, 0x2001, 0x2002, 0x2003, 0x2004, 0x2005, 0x2006, 0x2007, 0x2008,
    0x2009, 0x200a, 0x2028, 0x2029, 0x202f, 0x205f, 0x3000]

/-- What the scanner sees of a character: an ASCII one itself, a digit or a
space of any script as that of ASCII, and `?` for all others. -/
def toAscii (c : Char) : Char :=
  if c.toNat < 127 then c
  else if wideSpaces.contains c.toNat then ' '
  else
    match decimalZeros.find? fun z => z ≤ c.toNat && c.toNat < z + 10 with
    | some z => Char.ofNat (48 + (c.toNat - z))
    | none => '?'

/-- The digits in front and what follows them. An underscore stands behind a
digit and in front of one; `behind` is whether a digit was read last. -/
def scanDigits (behind : Bool) : CStr → Option (CStr × CStr)
  | [] => if behind then some ([], []) else none
  | c :: s =>
    if c.isDigit then (scanDigits true s).map fun r => (c :: r.1, r.2)
    else if !behind then none
    else if c = '_' then scanDigits false s
    else some ([], c :: s)

/-- `int(s)` -/
def pyInt (s : CStr) : Option Int :=
  let signed := C.sign ((s.map toAscii).dropWhile C.isSpace)
  match scanDigits false signed.2 with
  | none => none
  | some (ds, rest) =>
    if maxStrDigits < ds.length then none
    else if rest.all C.isSpace then some (if signed.1 then -C.value 10 ds else C.value 10 ds)
    else none

example : pyInt " -1_0\n".toList = some (-10) := by decide
example : pyInt "1__0".toList = none := by decide
example : pyInt "\u0661\uff12".toList = some 12 := by decide

/-! ## Digit strings -/

theorem toAscii_digits {s : CStr} (digits : Digits s) : s.map toAscii = s := by
  refine (List.map_congr_left fun c mem => ?_).trans (List.map_id s)
  have range := C.isDigit_toNat (digits c mem)
  exact if_pos (by omega)

theorem scanDigits_digits {s : CStr} (digits : Digits s) (behind : Bool)
    (ne : s ≠ [] ∨ behind = true) : scanDigits behind s = some (s, []) := by
  induction s generalizing behind with
  | nil => simp_all [scanDigits]
  | cons c s ih =>
    have rest : Digits s := fun d mem => digits d (List.mem_cons_of_mem c mem)
    rw [scanDigits, if_pos (digits c List.mem_cons_self), ih rest true (.inr rfl)]
    rfl

/-- A digit string is its decimal value, if it is not too long. -/
theorem pyInt_digits {s : CStr} (ne : s ≠ []) (digits : Digits s) :
    pyInt s = if s.length ≤ maxStrDigits then some (C.value 10 s : Int) else none := by
  have front : s.dropWhile C.isSpace = s := by
    obtain ⟨c, rest, rfl⟩ := List.exists_cons_of_ne_nil ne
    exact List.dropWhile_cons_of_neg (by simp [C.isSpace_isDigit (digits c List.mem_cons_self)])
  simp only [pyInt, toAscii_digits digits, front, C.sign_digits digits,
    scanDigits_digits digits false (.inl ne)]
  by_cases fits : s.length ≤ maxStrDigits
  · rw [if_neg (Nat.not_lt.mpr fits), if_pos fits]
    rfl
  · rw [if_pos (Nat.lt_of_not_le fits), if_neg fits]

end MidiGw.PyInt
