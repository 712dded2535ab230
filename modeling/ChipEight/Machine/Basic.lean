import ChipEight.Address
import ChipEight.Memory.Basic
import ChipEight.Framebuffer
import ChipEight.Registers
import ChipEight.CallStack
import ChipEight.Keypad
import ChipEight.Timers
import ChipEight.Random.Stream

/-!
# The machine

All the state there is, in one record. A machine is a value: whatever is done to it gives another one,
and two machines are the same when their fields are.

**Four things are done from outside**: a program is loaded, the machine is reset, the timers tick and
keys go up and down. The fifth, a cycle, is what the machine does by itself and has a module of its own.

**What a reset keeps.** The configuration stays, and so does the place in the random stream; a game
that is restarted does not see the same dice again. Everything else goes back to its power-on value.
Loading is a reset with a program put into memory, and a program that is too long is refused before
anything happens.
-/

namespace ChipEight

/-- What is decided when a machine is built. -/
structure Config where
  /-- Instructions a second, for whoever drives the machine in time. -/
  cpuHz : UInt32
  /-- Return addresses the call stack has room for. -/
  stackDepth : Nat
  /-- Where the random stream starts. Without a seed it starts where seed 0 does. -/
  seed : Option UInt64
  deriving DecidableEq, Repr

namespace Config

/-- The usual machine: seven hundred instructions a second and a call stack of sixteen. -/
def usual : Config := ⟨700, CallStack.defaultDepth, none⟩

/-- The random generator of a new machine. -/
def generator (config : Config) : Generator := .ofSeed (config.seed.getD 0)

end Config

/-- The machine. -/
structure Machine where
  config : Config
  memory : Memory
  display : Framebuffer
  /-- Where the next instruction is fetched. -/
  pc : UInt16
  /-- The address that memory instructions work at. -/
  index : Address
  registers : Registers
  stack : CallStack
  timers : Timers
  keypad : Keypad
  /-- The register a key press is awaited for, while one is. -/
  keyWait : Option Digit
  /-- The fault that brought the machine to a halt. -/
  fault : Option Fault
  generator : Generator
  deriving DecidableEq

namespace Machine

/-- The machine as it is switched on, at some place in the random stream. -/
def powerOn (config : Config) (generator : Generator) : Machine where
  config := config
  memory := .powerOn
  display := .blank
  pc := UInt16.ofNat Memory.programStart
  index := 0
  registers := .cleared
  stack := .empty config.stackDepth
  timers := .stopped
  keypad := .released
  keyWait := none
  fault := none
  generator := generator

/-- A new machine. -/
def new (config : Config) : Machine := powerOn config config.generator

/-- A new machine, if there can be room for its call stack. -/
def new? (config : Config) : Except RangeError Machine :=
  (CallStack.ofDepth? config.stackDepth).map fun stack ↦ { new config with stack }

variable (m : Machine)

/-- Back to power-on, further along in the random stream. -/
def reset : Machine := powerOn m.config m.generator

/-- Reset, with a program in memory. A refused program changes nothing. -/
def load (program : List UInt8) : Except Fault Machine :=
  (Memory.powerOn.load program).map fun memory ↦ { m.reset with memory }

/-- One sixtieth of a second passes for the timers. -/
def tick : Machine := { m with timers := m.timers.tick }

/-- Press or release a key. -/
def setKey (k : Digit) (down : Bool) : Machine := { m with keypad := m.keypad.set k down }

end Machine

end ChipEight
