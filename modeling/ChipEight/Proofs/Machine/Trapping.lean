import ChipEight.Machine.History
import ChipEight.Proofs.Machine.Checked
import ChipEight.Proofs.Machine.InPlace

/-!
# Machines that may trap

A machine that is changed in place out of bare numbers has, at every step, operations that may have no
result: registers are looked up by an index, ranges of memory have an end to be computed, bytes are
copied over bytes. `Trapping` is this way of running. A procedure comes to a reply and a machine, the
reply may be a fault, or it **traps** and comes to nothing.

The procedures here are those of `InPlace` with every such operation in its place. A register is looked
up each time it is needed, the end of a range is computed before it is compared with the end of memory,
and bytes are copied only to a range of their own length. What keeps an operation from trapping is not
written down with it.

A procedure is **free of traps** on a machine if it comes to `.ok` of what the procedure in place comes
to. That is kept by putting procedures after each other (`bind_eq`) and by catching what they fail with
(`tryCatch_eq`).
-/

namespace ChipEight

open Checked

/-- A procedure on a machine that is changed in place, which may trap. -/
abbrev Trapping := ExceptT Fault (StateT Machine Checked)

namespace Trapping

variable {α β : Type}

/-- What comes of a procedure on a machine, and the machine it leaves behind, unless it traps. -/
def on (p : Trapping α) (m : Machine) : Checked (Except Fault α × Machine) := p.run.run m

/-- Make an operation that may have no result. -/
def check (c : Checked α) : Trapping α := ExceptT.lift (StateT.lift c)

/-- Fail if something is the case. -/
def refuseIf (p : Prop) [Decidable p] (fault : Fault) : Trapping Unit :=
  if p then throw fault else pure ⟨⟩

/-! ### Registers, the call stack and memory -/

/-- Look up a register. -/
def register (x : Digit) : Trapping UInt8 := do
  let i ← check (index 16 x.val)
  return (← get).registers.get i

/-- Put a byte into a register. -/
def assign (x : Digit) (value : UInt8) : Trapping Unit := do
  let i ← check (index 16 x.val)
  modify fun m ↦ m.setRegister i value

/-- Go on at another place. -/
def goTo (pc : UInt16) : Trapping Unit :=
  modify fun m ↦ { m with pc }

/-- Put a return address on the call stack, into the room that was made for it. -/
def push (address : UInt16) : Trapping Unit := do
  let stack := (← get).stack
  refuseIf (stack.depth ≤ stack.frames.length) (.stackOverflow stack.depth)
  let _ ← check (index stack.depth stack.frames.length)
  modify fun m ↦ { m with stack.frames := address :: stack.frames }

/-- Take the newest return address off the call stack. -/
def pop : Trapping UInt16 := do
  match (← get).stack.frames with
  | [] => throw .stackUnderflow
  | address :: frames =>
    modify fun m ↦ { m with stack.frames := frames }
    return address

/-- Read one byte. -/
def read (a : Nat) : Trapping UInt8 := do
  refuseIf (Memory.size ≤ a) (.addressOutOfRange a)
  return (← get).memory.cell a

/-- Read a range of bytes. -/
def slice (a length : Nat) : Trapping (List UInt8) := do
  let stop ← check (plus addressLimit a length)
  refuseIf (Memory.size < stop) (.addressOutOfRange (max a Memory.size))
  return (← get).memory.cells a (stop - a)

/-- Write a range of bytes on behalf of a running program. -/
def write (a : Nat) (bytes : List UInt8) : Trapping Unit := do
  refuseIf (a < Memory.programStart) (.reservedAddress a)
  let stop ← check (plus addressLimit a bytes.length)
  refuseIf (Memory.size < stop) (.addressOutOfRange (max a Memory.size))
  let bytes ← check (copied (stop - a) bytes)
  modify fun m ↦ { m with memory := m.memory.place a bytes }

/-- Write bytes at the index register. -/
def store (bytes : List UInt8) : Trapping Unit := do
  write (← get).index.val bytes

/-! ### Instructions -/

/-- Skip the next instruction if something is the case. -/
def skipIf (p : Bool) : Trapping Unit := if p then modify Machine.stepOver else pure ⟨⟩

/-- What a conditional skip asks. -/
def asks (condition : Condition) : Trapping Bool :=
  match condition with
  | .equalsByte x nn => return (← register x) == nn
  | .differsFromByte x nn => return (← register x) != nn
  | .equalsRegister x y => return (← register x) == (← register y)
  | .differsFromRegister x y => return (← register x) != (← register y)
  | .keyHeld x => do
    let key ← check (index 16 (Digit.low (← register x).toNat).val)
    return (← get).keypad.isHeld key
  | .keyReleased x => do
    let key ← check (index 16 (Digit.low (← register x).toNat).val)
    return !(← get).keypad.isHeld key

/-- Combine two registers into the first, and report in the flag. The registers are looked up each time
they are needed, and the flag is assigned last. -/
def combine (op : Arithmetic) (x y : Digit) : Trapping Unit :=
  match op with
  | .copy => do assign x (← register y)
  | .or => do assign x ((← register x) ||| (← register y))
  | .and => do assign x ((← register x) &&& (← register y))
  | .xor => do assign x ((← register x) ^^^ (← register y))
  | .add => do
    let sum ← check (plus 0x10000 (← register x).toNat (← register y).toNat)
    let carry := decide (0xFF < sum)
    assign x (UInt8.ofNat (sum &&& 0xFF))
    assign Registers.flag (if carry then 1 else 0)
  | .subtract => do
    let noBorrow := decide ((← register y) ≤ (← register x))
    assign x ((← register x) - (← register y))
    assign Registers.flag (if noBorrow then 1 else 0)
  | .subtractFrom => do
    let noBorrow := decide ((← register x) ≤ (← register y))
    assign x ((← register y) - (← register x))
    assign Registers.flag (if noBorrow then 1 else 0)
  | .shiftRight => do
    let last := (← register x) &&& 1
    assign x ((← register x) >>> UInt8.ofNat (← check (places 8 1)))
    assign Registers.flag last
  | .shiftLeft => do
    let first := ((← register x) >>> UInt8.ofNat (← check (places 8 7))) &&& 1
    assign x ((← register x) <<< UInt8.ofNat (← check (places 8 1)))
    assign Registers.flag first

/-- Draw the sprite of `n` bytes at the index register, and report a collision in the flag. -/
def draw (x y n : Digit) : Trapping Unit := do
  let sprite ← slice (← get).index.val n.val
  let canvas ← check (drawSprite (← get).display (← register x) (← register y) sprite)
  modify fun m ↦ { m with display := canvas.screen }
  assign Registers.flag (if canvas.erased then 1 else 0)

/-- Carry out an instruction on a machine whose program counter has moved past it. -/
def perform (op : Opcode) : Trapping Signal :=
  match op with
  | .clearScreen => do
    modify fun m ↦ { m with display := .blank }
    return .displayChanged
  | .ret => do
    goTo (← pop)
    return .proceed
  | .jump target => do
    goTo target.toWord
    return .proceed
  | .jumpOffset base => do
    goTo (base.advance (← register 0).toNat).toWord
    return .proceed
  | .call target => do
    push (← get).pc
    goTo target.toWord
    return .proceed
  | .skip condition => do
    skipIf (← asks condition)
    return .proceed
  | .setByte x nn => do
    assign x nn
    return .proceed
  | .addByte x nn => do
    assign x ((← register x) + nn)
    return .proceed
  | .arithmetic op x y => do
    combine op x y
    return .proceed
  | .random x mask => do
    let byte := (← get).generator.peek
    modify fun m ↦ { m with generator := m.generator.advance }
    assign x (byte &&& mask)
    return .proceed
  | .setIndex target => do
    modify fun m ↦ { m with index := target }
    return .proceed
  | .addIndex x => do
    let distance ← register x
    modify fun m ↦ { m with index := m.index.advance distance.toNat }
    return .proceed
  | .pointGlyph x => do
    let a ← check (glyphAddress (← register x))
    modify fun m ↦ { m with index := .masked a }
    return .proceed
  | .draw x y n => do
    draw x y n
    return .displayChanged
  | .awaitKey x => do
    modify fun m ↦ { m with keypad := m.keypad.clearPresses }
    modify fun m ↦ { m with keyWait := some x }
    return .waitingForKey
  | .readDelay x => do
    assign x (← get).timers.delay
    return .proceed
  | .setDelay x => do
    let ticks ← register x
    modify fun m ↦ { m with timers.delay := ticks }
    return .proceed
  | .setSound x => do
    let ticks ← register x
    modify fun m ↦ { m with timers.sound := ticks }
    return .proceed
  | .storeDecimal x => do
    store (← check (decimalDigits (← register x)))
    return .proceed
  | .storeRegisters x => do
    let stop ← check (rangeEnd 16 (← check (plus addressLimit x.val 1)))
    store ((← get).registers.bytes.toList.take stop)
    return .proceed
  | .loadRegisters x => do
    let count ← check (plus addressLimit x.val 1)
    let bytes ← slice (← get).index.val count
    let stop ← check (rangeEnd 16 count)
    let bytes ← check (copied stop bytes)
    modify fun m ↦ { m with registers := m.registers.restore x bytes }
    return .proceed

/-! ### Cycles -/

/-- Fetch the word at the program counter. -/
def fetch : Trapping Word := do
  let pc := (← get).pc.toNat
  refuseIf ((← check (minus Memory.size 2)) < pc) (.addressOutOfRange pc)
  let high ← read pc
  let low ← read (← check (plus addressLimit pc 1))
  return UInt16.ofNat (256 * high.toNat + low.toNat)

/-- Move on to the next instruction and carry out a fetched word, given what it reads as. -/
def dispatch (word : Word) (reading : Option Opcode) : Trapping Signal := do
  modify Machine.stepOver
  match reading with
  | some op => perform op
  | none => throw (.invalidInstruction word)

/-- Look whether the awaited key press has come. -/
def pollKey (x : Digit) : Trapping Signal := do
  match ← check (takePress (← get).keypad) with
  | none => return .waitingForKey
  | some (k, keypad) =>
    modify fun m ↦ { m with keypad }
    assign x k.toByte
    modify fun m ↦ { m with keyWait := none }
    return .proceed

/-- What a cycle of a machine that has not halted attempts. -/
def attempt : Trapping Signal := do
  match (← get).keyWait with
  | some x => pollKey x
  | none =>
    let word ← fetch
    dispatch word (← check (decode word))

/-- One cycle. A fault is latched and passed on. -/
def cycle : Trapping Signal := do
  if (← get).fault.isSome then throw .halted
  try attempt
  catch fault =>
    modify fun m ↦ { m with fault := some fault }
    throw fault

/-! ### What happens from outside -/

/-- Wipe the memory and copy the font to its place. -/
def resetMemory : Trapping Unit := do
  modify fun m ↦ { m with memory := m.memory.place 0 (List.replicate Memory.size 0) }
  let stop ← check (rangeEnd Memory.size Memory.fontEnd)
  let font ← check (copied (stop - Memory.fontStart) Font.glyphs)
  modify fun m ↦ { m with memory := m.memory.place Memory.fontStart font }

/-- Assign its first value to every field but the configuration and the generator. -/
def reset : Trapping Unit := do
  resetMemory
  modify fun m ↦ { m with display := .blank }
  goTo (UInt16.ofNat Memory.programStart)
  modify fun m ↦ { m with index := .masked 0 }
  modify fun m ↦ { m with registers := .cleared }
  modify fun m ↦ { m with stack := m.stack.clear }
  modify fun m ↦ { m with timers := .stopped }
  modify fun m ↦ { m with keypad := .released }
  modify fun m ↦ { m with keyWait := none }
  modify fun m ↦ { m with fault := none }

/-- Copy a program to where programs start, if it fits. -/
def loadProgram (program : List UInt8) : Trapping Unit := do
  let stop ← check (plus addressLimit Memory.programStart program.length)
  let capacity ← check (minus Memory.size Memory.programStart)
  refuseIf (Memory.size < stop) (.programTooLarge program.length capacity)
  let program ← check (copied (stop - Memory.programStart) program)
  modify fun m ↦ { m with memory := m.memory.place Memory.programStart program }

/-- Reset and copy a program, unless it is too long. -/
def load (program : List UInt8) : Trapping Unit := do
  let capacity ← check (minus Memory.size Memory.programStart)
  refuseIf (capacity < program.length) (.programTooLarge program.length capacity)
  reset
  loadProgram program

/-- Let an event happen, and reply to whoever caused it. -/
def undergo : Event → Trapping (Option Signal)
  | .load program => do
    load program
    return none
  | .reset => do
    reset
    return none
  | .cycle => do
    let signal ← cycle
    return some signal
  | .tick => do
    modify Machine.tick
    return none
  | .key k down => do
    let keypad ← check (setKey (← get).keypad k down)
    modify fun m ↦ { m with keypad }
    return none

/-- Let the events of a history happen one after the other, and collect the replies. -/
def undergoAll : Machine → List Event → Checked (List (Except Fault (Option Signal)) × Machine)
  | m, [] => return ([], m)
  | m, event :: events => do
    let (reply, next) ← (undergo event).on m
    let (replies, last) ← undergoAll next events
    return (reply :: replies, last)

/-! ### Running -/

section Running

variable {m next : Machine} {p : Trapping α} {q : InPlace α}

theorem on_bind (k : α → Trapping β) :
    (p >>= k).on m = p.on m >>= fun r ↦ match r with
      | (.ok a, next) => (k a).on next
      | (.error fault, next) => .ok (.error fault, next) := by
  rw [on, on, ExceptT.run_bind, StateT.run_bind]
  refine congrArg _ (funext fun r ↦ ?_)
  rcases r with ⟨_ | _, _⟩ <;> rfl

theorem on_tryCatch (k : Fault → Trapping α) :
    (tryCatch p k).on m = p.on m >>= fun r ↦ match r with
      | (.ok a, next) => .ok (.ok a, next)
      | (.error fault, next) => (k fault).on next := by
  rw [on, on, ExceptT.run_tryCatch, StateT.run_bind]
  refine congrArg _ (funext fun r ↦ ?_)
  rcases r with ⟨_ | _, _⟩ <;> rfl

theorem bind_of_ok {a : α} (h : p.on m = .ok (.ok a, next)) (k : α → Trapping β) :
    (p >>= k).on m = (k a).on next := by
  rw [on_bind, h]
  rfl

/-- What a procedure replies may be turned into something else at the end. -/
theorem on_bind_pure {reply : Except Fault α} (h : p.on m = .ok (reply, next)) (f : α → β) :
    (p >>= fun a ↦ pure (f a)).on m = .ok (reply.map f, next) := by
  rw [on_bind, h]
  cases reply <;> rfl

theorem get_bind (k : Machine → Trapping β) : (get >>= k).on m = (k m).on m := rfl

theorem modify_bind (f : Machine → Machine) (k : PUnit → Trapping β) :
    (modify f >>= k).on m = (k ⟨⟩).on (f m) := rfl

theorem check_bind {c : Checked α} {a : α} (h : c = .ok a) (k : α → Trapping β) :
    (check c >>= k).on m = (k a).on m := by
  rw [h]
  rfl

theorem refuseIf_bind_of {prop : Prop} [Decidable prop] (h : prop) (fault : Fault)
    (k : Unit → Trapping β) : (refuseIf prop fault >>= k).on m = .ok (.error fault, m) := by
  rw [refuseIf, if_pos h]
  rfl

theorem refuseIf_bind_of_not {prop : Prop} [Decidable prop] (h : ¬ prop) (fault : Fault)
    (k : Unit → Trapping β) : (refuseIf prop fault >>= k).on m = (k ⟨⟩).on m := by
  rw [refuseIf, if_neg h]
  rfl

/-- **What comes first and what follows it are free of traps together.** -/
theorem bind_eq {k : α → Trapping β} {l : α → InPlace β} (hp : p.on m = .ok (q.on m))
    (hk : ∀ a next, q.on m = (.ok a, next) → (k a).on next = .ok ((l a).on next)) :
    (p >>= k).on m = .ok ((q >>= l).on m) := by
  rw [on_bind, hp, InPlace.on_bind, bind_ok]
  rcases hq : q.on m with ⟨fault | a, next⟩
  · rfl
  · exact hk a next hq

theorem tryCatch_eq {k : Fault → Trapping α} {l : Fault → InPlace α} (hp : p.on m = .ok (q.on m))
    (hk : ∀ fault next, (k fault).on next = .ok ((l fault).on next)) :
    (tryCatch p k).on m = .ok ((tryCatch q l).on m) := by
  rw [on_tryCatch, hp, InPlace.on_tryCatch, bind_ok]
  rcases q.on m with ⟨fault | a, next⟩
  · exact hk fault next
  · rfl

end Running

end Trapping

end ChipEight
