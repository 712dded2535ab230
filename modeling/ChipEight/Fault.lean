import ChipEight.Hexadecimal

/-!
# Faults

Everything that can go wrong while a program is loaded or run. A cycle that fails **latches** its
fault: the machine keeps it and refuses every later cycle with `halted` until it is reset.

The cause and its wording are kept apart. Nothing in the machine looks at a message.
-/

namespace ChipEight

/-- Why a program could not be loaded, or a cycle could not be carried out. -/
inductive Fault where
  /-- The fetched word is no instruction. -/
  | invalidInstruction (word : UInt16)
  /-- A call found the call stack full, with `depth` return addresses on it. -/
  | stackOverflow (depth : Nat)
  /-- A return found the call stack empty. -/
  | stackUnderflow
  /-- An access ran past the end of memory; `address` is the first one that does not exist. -/
  | addressOutOfRange (address : Nat)
  /-- A program wrote below the program area. -/
  | reservedAddress (address : Nat)
  /-- A program of `size` bytes was offered where `capacity` fit. -/
  | programTooLarge (size capacity : Nat)
  /-- The machine stands still after an earlier fault. -/
  | halted
  deriving DecidableEq, Repr

namespace Fault

/-- What is reported for a fault. -/
def message : Fault → String
  | .invalidInstruction word => "Invalid instruction: 0x" ++ Hexadecimal.text 4 word.toNat
  | .stackOverflow depth =>
    s!"Stack overflow: call stack already holds {depth} return addresses"
  | .stackUnderflow =>
    "Stack underflow: attempted to return from a subroutine with empty call stack"
  | .addressOutOfRange address => "Address out of range: 0x" ++ Hexadecimal.text 4 address
  | .reservedAddress address =>
    "Write to reserved interpreter memory at address 0x" ++ Hexadecimal.text 4 address
  | .programTooLarge size capacity =>
    s!"Program is too large ({size} bytes), max size is {capacity} bytes"
  | .halted => "VM halted after a fault, reset it before running again"

end Fault

end ChipEight
