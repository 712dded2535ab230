/-!
# Values outside their range

Some questions put to the machine from outside name a value that may not exist: a key or register
digit, a twelve-bit address, a pixel, a range of memory, a call stack that no storage could hold. Each
has a checked constructor or query, and all of them fail with a `RangeError`.

**These are not faults.** A `Fault` is something a running program does and the machine remembers; a
range error is a malformed question, and the machine asked it is left as it was.
-/

namespace ChipEight

/-- Why a number names nothing. -/
inductive RangeError where
  /-- More than four bits were given for a hexadecimal digit. -/
  | digit
  /-- More than twelve bits were given for an address. -/
  | address
  /-- The row or column numbered `i` was asked for where only `size` exist. -/
  | index (size i : Nat)
  /-- A range was asked for that ends at `stop` where only `size` exist. -/
  | range (size stop : Nat)
  /-- Room was asked for that no storage has. -/
  | capacity
  deriving DecidableEq, Repr

/-- What is reported for a range error. -/
def RangeError.message : RangeError → String
  | .digit => "u4 value must be in range 0x0-0xF"
  | .address => "u12 value must be in range 0x000-0xFFF"
  | .index size i => s!"index out of bounds: the len is {size} but the index is {i}"
  | .range size stop => s!"range end index {stop} out of range for slice of length {size}"
  | .capacity => "capacity overflow"

end ChipEight
