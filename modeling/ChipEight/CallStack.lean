import ChipEight.Fault
import ChipEight.RangeError

/-!
# The call stack

Return addresses, the newest on top, at most `depth` of them. The stack is outside memory: a program
can reach it only by calling and returning.
-/

namespace ChipEight

/-- A bounded stack of return addresses; `frames` lists them newest first. -/
structure CallStack where
  depth : Nat
  frames : List UInt16
  deriving DecidableEq, Repr

namespace CallStack

/-- The depth used when nothing else is asked for. -/
def defaultDepth : Nat := 16

/-- The empty stack for `depth` return addresses. -/
def empty (depth : Nat) : CallStack := ⟨depth, []⟩

/-- The greatest depth there can be room for: a return address has two bytes, and storage has less
than `2 ^ 63`. -/
def greatestDepth : Nat := 0x3FFFFFFFFFFFFFFF

/-- The empty stack for `depth` return addresses, if there can be room for so many. -/
def ofDepth? (depth : Nat) : Except RangeError CallStack :=
  if depth ≤ greatestDepth then .ok (empty depth) else .error .capacity

variable (s : CallStack)

/-- Put a return address on top, unless the stack is full. -/
def push (address : UInt16) : Except Fault CallStack :=
  if s.frames.length < s.depth then .ok { s with frames := address :: s.frames }
  else .error (.stackOverflow s.depth)

/-- Take the newest return address off. -/
def pop : Except Fault (UInt16 × CallStack) :=
  match s.frames with
  | [] => .error .stackUnderflow
  | address :: frames => .ok (address, { s with frames })

/-- The same stack without return addresses. -/
def clear : CallStack := { s with frames := [] }

/-- The return addresses, oldest first. -/
def toList : List UInt16 := s.frames.reverse

end CallStack

end ChipEight
