import ChipEight.Fault
import ChipEight.Opcode.Text

/-!
# The journal

What a machine reports of its own doing, as data: which entry is made when is decided by the machine,
and what an entry looks like is decided here. A reader who wants only the severe ones drops the others
by their level.
-/

namespace ChipEight

/-- How severe an entry is. -/
inductive Level where
  | error
  | warn
  | info
  | debug
  | trace
  deriving DecidableEq, Repr

namespace Level

/-- The levels from the most severe one. -/
def rank : Level → Nat
  | error => 1
  | warn => 2
  | info => 3
  | debug => 4
  | trace => 5

/-- Whether an entry of one level is shown where another is the least severe one shown. -/
def shownAt (level threshold : Level) : Bool := decide (level.rank ≤ threshold.rank)

/-- The name an entry starts with. -/
def name : Level → String
  | error => "ERROR"
  | warn => "WARN"
  | info => "INFO"
  | debug => "DEBUG"
  | trace => "TRACE"

end Level

/-- Something a machine reports. -/
inductive JournalEntry where
  /-- The machine was reset. -/
  | reset
  /-- A program of `size` bytes was put into memory. -/
  | loaded (size : Nat)
  /-- A word was fetched at an address and read as an instruction, or as none. -/
  | fetched (pc : UInt16) (word : Word) (reading : Option Opcode)
  /-- A cycle failed and left the program counter at an address. -/
  | faulted (pc : UInt16) (fault : Fault)
  deriving DecidableEq, Repr

namespace JournalEntry

/-- How severe an entry is: a fault is a warning, and single instructions are for close inspection. -/
def level : JournalEntry → Level
  | reset | loaded _ => .debug
  | fetched .. => .trace
  | faulted .. => .warn

/-- What an entry says. -/
def text : JournalEntry → String
  | reset => "VM reset"
  | loaded size => s!"Loaded {size} byte program at 0x200"
  | fetched pc word reading =>
    Hexadecimal.text 3 pc.toNat ++ ": " ++ Hexadecimal.text 4 word.toNat ++ " "
      ++ (match reading with
        | some op => op.record
        | none => s!"Invalid({word.toNat})")
  | faulted pc fault => "Fault at PC " ++ Hexadecimal.text 3 pc.toNat ++ ": " ++ fault.message

/-- An entry as a line: its level, and what it says. -/
def line (entry : JournalEntry) : String := entry.level.name ++ " " ++ entry.text

end JournalEntry

end ChipEight
