import ChipEight.RangeError

/-!
# Hexadecimal digits

Sixteen of everything: registers, keys, glyphs. All of them are named by one hexadecimal digit,
which is also the unit an instruction word is read in.

**Two ways in.** `Digit.ofNat?` refuses a number that is too large and `Digit.low` keeps its low four
bits; a program only ever uses the second.
-/

namespace ChipEight

/-- One hexadecimal digit: the name of a register, a key or a glyph. -/
abbrev Digit := Fin 16

/-- There are digits, which is what a numeral for one asks for, with this zero. -/
instance neZero_sixteen : @NeZero Nat Zero.ofOfNat0 16 := ⟨Nat.succ_ne_zero 15⟩

namespace Digit

/-- The digit with the given value, if it fits in four bits. -/
def ofNat? (n : Nat) : Except RangeError Digit :=
  if h : n < 16 then .ok ⟨n, h⟩ else .error .digit

/-- The low four bits of a number. -/
def low (n : Nat) : Digit := Fin.ofNat 16 n

@[simp] theorem low_val (n : Nat) : (low n).val = n % 16 := rfl

/-- **Below sixteen the two ways agree.** -/
theorem ofNat?_eq_ok_iff {n : Nat} {d : Digit} : ofNat? n = .ok d ↔ n = d.val := by
  unfold ofNat?
  split
  · simp [Fin.ext_iff]
  · simp only [reduceCtorEq, false_iff]
    have := d.isLt
    omega

/-- The digit as a byte, which is how a key press reaches a register. -/
def toByte (d : Digit) : UInt8 := UInt8.ofNat d.val

end Digit

end ChipEight
