import ChipEight.Machine.Basic
import ChipEight.Machine.Arithmetic

/-!
# Carrying out an instruction

The program counter has moved on to the next instruction before an instruction is carried out; that is
where a call returns to and where a program goes that does not jump. An instruction either has its
whole effect or fails and has none: `execute` gives a machine only when it succeeds.

Every success comes with a **signal** for whoever drives the machine. Two of them matter to the outside:
the display may look different, or nothing more will happen until a key is pressed.
-/

namespace ChipEight

/-- What a cycle tells whoever drives the machine. -/
inductive Signal where
  | proceed
  | displayChanged
  | waitingForKey
  deriving DecidableEq, Repr

/-- Whether a conditional skip skips. A key is named by the low digit of a register. -/
def Condition.holds (m : Machine) : Condition → Bool
  | equalsByte x nn => m.registers.get x == nn
  | differsFromByte x nn => m.registers.get x != nn
  | equalsRegister x y => m.registers.get x == m.registers.get y
  | differsFromRegister x y => m.registers.get x != m.registers.get y
  | keyHeld x => m.keypad.isHeld (.low (m.registers.get x).toNat)
  | keyReleased x => !m.keypad.isHeld (.low (m.registers.get x).toNat)

namespace Machine

variable (m : Machine)

/-- The same machine with a byte put into a register. -/
def setRegister (x : Digit) (value : UInt8) : Machine :=
  { m with registers := m.registers.set x value }

/-- Draw the sprite of `n` bytes at the index register where two registers say. -/
def draw (x y n : Digit) : Except Fault Machine :=
  (m.memory.slice m.index.val n.val).map fun sprite ↦
    let (display, collision) := m.display.draw (m.registers.get x) (m.registers.get y) sprite
    { m with display, registers := m.registers.setFlag collision }

/-- Start waiting for a key press. Only presses from here on count. -/
def awaitKey (x : Digit) : Machine :=
  { m with keypad := m.keypad.clearPresses, keyWait := some x }

/-- Put a masked random byte into a register. -/
def drawRandom (x : Digit) (mask : UInt8) : Machine :=
  { m.setRegister x (m.generator.peek &&& mask) with generator := m.generator.advance }

/-- Write bytes at the index register. -/
def store (bytes : List UInt8) : Except Fault Machine :=
  (m.memory.write m.index.val bytes).map fun memory ↦ { m with memory }

/-- Load the registers up to `x` from the index register on. -/
def loadRegisters (x : Digit) : Except Fault Machine :=
  (m.memory.slice m.index.val (x.val + 1)).map fun bytes ↦
    { m with registers := m.registers.restore x bytes }

/-- The three decimal digits of a byte. -/
def decimalDigits (value : UInt8) : List UInt8 :=
  [value / 100, value / 10 % 10, value % 10]

/-- Carry out an instruction on a machine whose program counter has moved past it. -/
def execute (op : Opcode) : Except Fault (Signal × Machine) :=
  match op with
  | .clearScreen => .ok (.displayChanged, { m with display := .blank })
  | .ret => m.stack.pop.map fun (address, stack) ↦ (.proceed, { m with pc := address, stack })
  | .jump target => .ok (.proceed, { m with pc := target.toWord })
  | .jumpOffset base =>
    .ok (.proceed, { m with pc := (base.advance (m.registers.get 0).toNat).toWord })
  | .call target =>
    (m.stack.push m.pc).map fun stack ↦ (.proceed, { m with pc := target.toWord, stack })
  | .skip condition =>
    .ok (.proceed, if condition.holds m then { m with pc := m.pc + 2 } else m)
  | .setByte x nn => .ok (.proceed, m.setRegister x nn)
  | .addByte x nn => .ok (.proceed, m.setRegister x (m.registers.get x + nn))
  | .arithmetic op x y => .ok (.proceed, { m with registers := op.apply x y m.registers })
  | .random x mask => .ok (.proceed, m.drawRandom x mask)
  | .setIndex target => .ok (.proceed, { m with index := target })
  | .addIndex x => .ok (.proceed, { m with index := m.index.advance (m.registers.get x).toNat })
  | .pointGlyph x =>
    .ok (.proceed, { m with index := .masked (Memory.glyphAddress (m.registers.get x)) })
  | .draw x y n => (m.draw x y n).map (.displayChanged, ·)
  | .awaitKey x => .ok (.waitingForKey, m.awaitKey x)
  | .readDelay x => .ok (.proceed, m.setRegister x m.timers.delay)
  | .setDelay x => .ok (.proceed, { m with timers.delay := m.registers.get x })
  | .setSound x => .ok (.proceed, { m with timers.sound := m.registers.get x })
  | .storeDecimal x => (m.store (decimalDigits (m.registers.get x))).map (.proceed, ·)
  | .storeRegisters x => (m.store (m.registers.upTo x)).map (.proceed, ·)
  | .loadRegisters x => (m.loadRegisters x).map (.proceed, ·)

/-- Look whether the awaited key press has come. The smallest key pressed since is taken. -/
def pollKey (x : Digit) : Signal × Machine :=
  match m.keypad.takePress with
  | some (k, keypad) => (.proceed, { m.setRegister x k.toByte with keypad, keyWait := none })
  | none => (.waitingForKey, m)

end Machine

end ChipEight
