import ChipEight.Opcode.Basic
import ChipEight.Registers

/-!
# Arithmetic on two registers

What an operation gives and what it reports are functions of the two bytes it starts from. Both are
computed first and written afterwards, the report last, so it makes no difference to either whether the
two registers are the same or one of them is the flag.
-/

namespace ChipEight

namespace Arithmetic

/-- The byte an operation leaves in the first register, from the bytes in the two. -/
def result (op : Arithmetic) (a b : UInt8) : UInt8 :=
  match op with
  | copy => b
  | or => a ||| b
  | and => a &&& b
  | xor => a ^^^ b
  | add => a + b
  | subtract => a - b
  | shiftRight => a >>> 1
  | subtractFrom => b - a
  | shiftLeft => a <<< 1

/-- What an operation reports: a carry, the absence of a borrow, or the bit shifted out. The first
four report nothing. -/
def report? (op : Arithmetic) (a b : UInt8) : Option Bool :=
  match op with
  | copy | or | and | xor => none
  | add => some (decide (255 < a.toNat + b.toNat))
  | subtract => some (decide (b ≤ a))
  | shiftRight => some (decide (a.toNat % 2 = 1))
  | subtractFrom => some (decide (a ≤ b))
  | shiftLeft => some (decide (128 ≤ a.toNat))

/-- Combine two registers into the first. -/
def apply (op : Arithmetic) (x y : Digit) (r : Registers) : Registers :=
  let a := r.get x
  let b := r.get y
  let combined := r.set x (op.result a b)
  match op.report? a b with
  | none => combined
  | some report => combined.setFlag report

end Arithmetic

end ChipEight
