import ChipEight.Digit
import ChipEight.Address

/-!
# Instructions

The instruction set, **grouped by what an instruction touches** rather than by its first digit: the
six conditional skips are one instruction with a `Condition`, the nine register operations one
instruction with an `Arithmetic`. Whatever has to be shown of all instructions is shown once for each
group.

A word that is no instruction has no value here; reading words is partial, and says so in its type.
-/

namespace ChipEight

/-- What a conditional skip asks. -/
inductive Condition where
  /-- `3XNN`: register `x` holds the byte. -/
  | equalsByte (x : Digit) (nn : UInt8)
  /-- `4XNN`: register `x` does not hold the byte. -/
  | differsFromByte (x : Digit) (nn : UInt8)
  /-- `5XY0`: two registers hold the same byte. -/
  | equalsRegister (x y : Digit)
  /-- `9XY0`: two registers hold different bytes. -/
  | differsFromRegister (x y : Digit)
  /-- `EX9E`: the key named by register `x` is held. -/
  | keyHeld (x : Digit)
  /-- `EXA1`: the key named by register `x` is not held. -/
  | keyReleased (x : Digit)
  deriving DecidableEq, Repr

/-- The operations on two registers, `8XYN`, in the order of their last digit. -/
inductive Arithmetic where
  | copy
  | or
  | and
  | xor
  | add
  | subtract
  | shiftRight
  | subtractFrom
  | shiftLeft
  deriving DecidableEq, Repr

/-- An instruction. -/
inductive Opcode where
  /-- `00E0`: turn every pixel off. -/
  | clearScreen
  /-- `00EE`: return from a subroutine. -/
  | ret
  /-- `1NNN`: go to an address. -/
  | jump (target : Address)
  /-- `BNNN`: go to an address plus register 0. -/
  | jumpOffset (base : Address)
  /-- `2NNN`: call the subroutine at an address. -/
  | call (target : Address)
  /-- Skip the next instruction if a condition holds. -/
  | skip (condition : Condition)
  /-- `6XNN`: put a byte into a register. -/
  | setByte (x : Digit) (nn : UInt8)
  /-- `7XNN`: add a byte to a register, without a carry. -/
  | addByte (x : Digit) (nn : UInt8)
  /-- `8XYN`: combine two registers into the first. -/
  | arithmetic (op : Arithmetic) (x y : Digit)
  /-- `CXNN`: put a masked random byte into a register. -/
  | random (x : Digit) (mask : UInt8)
  /-- `ANNN`: point the index register at an address. -/
  | setIndex (target : Address)
  /-- `FX1E`: move the index register on by a register. -/
  | addIndex (x : Digit)
  /-- `FX29`: point the index register at the glyph for a register. -/
  | pointGlyph (x : Digit)
  /-- `DXYN`: draw the `n` bytes at the index register. -/
  | draw (x y n : Digit)
  /-- `FX0A`: wait for a key press and put the key into a register. -/
  | awaitKey (x : Digit)
  /-- `FX07`: read the delay timer. -/
  | readDelay (x : Digit)
  /-- `FX15`: set the delay timer. -/
  | setDelay (x : Digit)
  /-- `FX18`: set the sound timer. -/
  | setSound (x : Digit)
  /-- `FX33`: store the three decimal digits of a register. -/
  | storeDecimal (x : Digit)
  /-- `FX55`: store the registers from 0 up to and including `x`. -/
  | storeRegisters (x : Digit)
  /-- `FX65`: load the registers from 0 up to and including `x`. -/
  | loadRegisters (x : Digit)
  deriving DecidableEq, Repr

end ChipEight
