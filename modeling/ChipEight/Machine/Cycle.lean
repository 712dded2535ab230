import ChipEight.Machine.Execute
import ChipEight.Journal

/-!
# Cycles

A cycle is one beat of the instruction clock, and it does one of four things:

* a machine that has **halted** refuses, and nothing changes, the journal included;
* a machine that **waits** for a key looks at the keypad and fetches nothing;
* otherwise an instruction is **fetched** and carried out,
* and if that fails the fault is **latched**: the machine has halted.

A failed fetch leaves the program counter where it was. A fetched instruction that fails leaves it
behind the instruction, which is all that is left of the attempt.
-/

namespace ChipEight

/-- What comes of a cycle. -/
structure Cycle where
  outcome : Except Fault Signal
  journal : List JournalEntry
  machine : Machine

namespace Machine

variable (m : Machine)

/-- The end of a failed cycle: the fault is latched and reported. -/
def halt (fault : Fault) (journal : List JournalEntry) : Cycle where
  outcome := .error fault
  journal := journal ++ [.faulted m.pc fault]
  machine := { m with fault := some fault }

/-- The machine about to carry out the instruction it has fetched. -/
def stepOver : Machine := { m with pc := m.pc + 2 }

/-- Carry out a fetched word, given what it reads as. -/
def dispatch (word : Word) : (reading : Option Opcode) → Except Fault (Signal × Machine)
  | some op => m.stepOver.execute op
  | none => .error (.invalidInstruction word)

/-- Fetch an instruction and carry it out. -/
def fetchAndExecute : Cycle :=
  match m.memory.fetch m.pc.toNat with
  | .error fault => m.halt fault []
  | .ok word =>
    let reading := Opcode.decode? word
    let journal := [.fetched m.pc word reading]
    match m.dispatch word reading with
    | .error fault => m.stepOver.halt fault journal
    | .ok (signal, next) => ⟨.ok signal, journal, next⟩

/-- One cycle. -/
def cycle : Cycle :=
  match m.fault with
  | some _ => ⟨.error .halted, [], m⟩
  | none =>
    match m.keyWait with
    | some x =>
      let (signal, next) := m.pollKey x
      ⟨.ok signal, [], next⟩
    | none => m.fetchAndExecute

end Machine

end ChipEight
