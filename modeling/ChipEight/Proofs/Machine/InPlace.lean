import ChipEight.Proofs.Machine.Steps

/-!
# Machines that are changed in place

`execute` gives a machine or a fault, so that whatever an instruction had done before it failed is
lost with it. A machine that is changed **in place** has no such protection. There an instruction is a
sequence of assignments with checks between them, and a check that fails leaves every assignment
before it.

`InPlace` is this way of running. Its procedures assign one field after the other, in the order in
which instructions have them: the program counter before anything else, a frame before the jump it
belongs to, the display or the result of an operation before the flag. A procedure is **all or
nothing** when a failure leaves the machine it found (`leaving`). The instructions are so because none
of them has a check behind an assignment of its own. Only the program counter has been assigned before
an instruction looks at anything, and that one stays.

**Main statements**: `on_cycle`, a cycle in place comes to the same as `cycle`, failed or not, and
`failed_cycle_changes_nothing`.
-/

namespace ChipEight

/-- A procedure on a machine that is changed in place. A failure keeps what was assigned before. -/
abbrev InPlace := ExceptT Fault (StateM Machine)

namespace InPlace

variable {α : Type}

/-- What comes of a procedure on a machine, and the machine it leaves behind. -/
def on (p : InPlace α) (m : Machine) : Except Fault α × Machine := Id.run (p.run.run m)

/-! ### Checks and assignments -/

/-- Look something up that may not be there. -/
def look (find : Machine → Except Fault α) : InPlace α := do
  match find (← get) with
  | .ok a => return a
  | .error fault => throw fault

/-- Put a byte into a register. -/
def assign (x : Digit) (value : UInt8) : InPlace Unit :=
  modify fun m ↦ m.setRegister x value

/-- Go on at another place. -/
def goTo (pc : UInt16) : InPlace Unit :=
  modify fun m ↦ { m with pc }

/-- Put a return address on the call stack. -/
def push (address : UInt16) : InPlace Unit := do
  let stack := (← get).stack
  if stack.depth ≤ stack.frames.length then throw (.stackOverflow stack.depth)
  modify fun m ↦ { m with stack.frames := address :: stack.frames }

/-- Take the newest return address off the call stack. -/
def pop : InPlace UInt16 := do
  match (← get).stack.frames with
  | [] => throw .stackUnderflow
  | address :: frames =>
    modify fun m ↦ { m with stack.frames := frames }
    return address

/-- Write bytes at the index register. -/
def store (bytes : List UInt8) : InPlace Unit := do
  let a := (← get).index.val
  if a < Memory.programStart then throw (.reservedAddress a)
  if Memory.size < a + bytes.length then throw (.addressOutOfRange (max a Memory.size))
  modify fun m ↦ { m with memory := m.memory.place a bytes }

/-! ### Instructions -/

/-- Combine two registers into the first, and report in the flag. -/
def combine (op : Arithmetic) (x y : Digit) : InPlace Unit := do
  let r := (← get).registers
  assign x (op.result (r.get x) (r.get y))
  match op.report? (r.get x) (r.get y) with
  | none => return
  | some report => assign Registers.flag (if report then 1 else 0)

/-- Draw the sprite of `n` bytes at the index register, and report a collision in the flag. -/
def draw (x y n : Digit) : InPlace Unit := do
  let sprite ← look fun m ↦ m.memory.slice m.index.val n.val
  let m ← get
  let (display, collision) := m.display.draw (m.registers.get x) (m.registers.get y) sprite
  modify fun m ↦ { m with display }
  assign Registers.flag (if collision then 1 else 0)

/-- Carry out an instruction on a machine whose program counter has moved past it. -/
def perform (op : Opcode) : InPlace Signal :=
  match op with
  | .clearScreen => do
    modify fun m ↦ { m with display := .blank }
    return .displayChanged
  | .ret => do
    goTo (← pop)
    return .proceed
  | .jump target => do
    goTo target.toWord
    return .proceed
  | .jumpOffset base => do
    goTo (base.advance ((← get).registers.get 0).toNat).toWord
    return .proceed
  | .call target => do
    push (← get).pc
    goTo target.toWord
    return .proceed
  | .skip condition => do
    if condition.holds (← get) then goTo ((← get).pc + 2)
    return .proceed
  | .setByte x nn => do
    assign x nn
    return .proceed
  | .addByte x nn => do
    assign x ((← get).registers.get x + nn)
    return .proceed
  | .arithmetic op x y => do
    combine op x y
    return .proceed
  | .random x mask => do
    let byte := (← get).generator.peek
    modify fun m ↦ { m with generator := m.generator.advance }
    assign x (byte &&& mask)
    return .proceed
  | .setIndex target => do
    modify fun m ↦ { m with index := target }
    return .proceed
  | .addIndex x => do
    modify fun m ↦ { m with index := m.index.advance (m.registers.get x).toNat }
    return .proceed
  | .pointGlyph x => do
    modify fun m ↦ { m with index := .masked (Memory.glyphAddress (m.registers.get x)) }
    return .proceed
  | .draw x y n => do
    draw x y n
    return .displayChanged
  | .awaitKey x => do
    modify fun m ↦ { m with keypad := m.keypad.clearPresses }
    modify fun m ↦ { m with keyWait := some x }
    return .waitingForKey
  | .readDelay x => do
    assign x (← get).timers.delay
    return .proceed
  | .setDelay x => do
    modify fun m ↦ { m with timers.delay := m.registers.get x }
    return .proceed
  | .setSound x => do
    modify fun m ↦ { m with timers.sound := m.registers.get x }
    return .proceed
  | .storeDecimal x => do
    store (Machine.decimalDigits ((← get).registers.get x))
    return .proceed
  | .storeRegisters x => do
    store ((← get).registers.upTo x)
    return .proceed
  | .loadRegisters x => do
    let bytes ← look fun m ↦ m.memory.slice m.index.val (x.val + 1)
    modify fun m ↦ { m with registers := m.registers.restore x bytes }
    return .proceed

/-! ### Cycles -/

/-- Move on to the next instruction and carry out a fetched word, given what it reads as. -/
def dispatch (word : Word) (reading : Option Opcode) : InPlace Signal := do
  modify Machine.stepOver
  match reading with
  | some op => perform op
  | none => throw (.invalidInstruction word)

/-- Look whether the awaited key press has come. -/
def pollKey (x : Digit) : InPlace Signal := do
  match (← get).keypad.takePress with
  | none => return .waitingForKey
  | some (k, keypad) =>
    modify fun m ↦ { m with keypad }
    assign x k.toByte
    modify fun m ↦ { m with keyWait := none }
    return .proceed

/-- What a cycle of a machine that has not halted attempts: to see the awaited key press, or to fetch an
instruction and carry it out. -/
def attempt : InPlace Signal := do
  match (← get).keyWait with
  | some x => pollKey x
  | none =>
    let word ← look fun m ↦ m.memory.fetch m.pc.toNat
    dispatch word (Opcode.decode? word)

/-- One cycle. A fault is latched and passed on. -/
def cycle : InPlace Signal := do
  if (← get).fault.isSome then throw .halted
  try attempt
  catch fault =>
    modify fun m ↦ { m with fault := some fault }
    throw fault

/-! ### Running -/

section Running

variable {β : Type} {p : InPlace α} {m : Machine}

theorem on_get : (get : InPlace Machine).on m = (.ok m, m) := rfl

theorem on_bind (k : α → InPlace β) :
    (p >>= k).on m = match p.on m with
      | (.ok a, next) => (k a).on next
      | (.error fault, next) => (.error fault, next) := by
  rw [on, on, ExceptT.run_bind, StateT.run_bind, Id.run_bind]
  rcases Id.run (p.run.run m) with ⟨_ | _, _⟩ <;> rfl

theorem on_tryCatch (k : Fault → InPlace α) :
    (tryCatch p k).on m = match p.on m with
      | (.ok a, next) => (.ok a, next)
      | (.error fault, next) => (k fault).on next := by
  rw [on, on, ExceptT.run_tryCatch, StateT.run_bind, Id.run_bind]
  rcases Id.run (p.run.run m) with ⟨_ | _, _⟩ <;> rfl

end Running

/-! ### All or nothing -/

section AllOrNothing

variable {m : Machine}

/-- What is left of a step that is all or nothing: its machine if it succeeds, and the machine it
began with if it does not. -/
def leaving (m : Machine) : Except Fault (α × Machine) → Except Fault α × Machine
  | .ok (a, next) => (.ok a, next)
  | .error fault => (.error fault, m)

theorem on_look (find : Machine → Except Fault α) :
    (look find).on m = leaving m ((find m).map fun a ↦ (a, m)) := by
  rw [look, on_bind, on_get]
  show InPlace.on (match find m with | .ok a => pure a | .error fault => throw fault) m = _
  cases find m <;> rfl

theorem on_push (address : UInt16) :
    (push address).on m =
      leaving m ((m.stack.push address).map fun stack ↦ (⟨⟩, { m with stack })) := by
  rw [push, on_bind, on_get]
  by_cases hroom : m.stack.frames.length < m.stack.depth
  · rw [CallStack.push_eq_ok_iff.2 ⟨hroom, rfl⟩]
    simp only [if_neg (Nat.not_le.2 hroom)]
    rfl
  · rw [CallStack.push_eq_error_iff.2 ⟨hroom, rfl⟩]
    simp only [if_pos (Nat.not_lt.1 hroom)]
    rfl

theorem on_pop :
    pop.on m = leaving m (m.stack.pop.map fun (address, stack) ↦ (address, { m with stack })) := by
  obtain ⟨config, memory, display, pc, index, registers, ⟨depth, frames⟩, _⟩ := m
  cases frames <;> rfl

theorem on_store (bytes : List UInt8) :
    (store bytes).on m = leaving m ((m.store bytes).map fun next ↦ (⟨⟩, next)) := by
  rw [store, on_bind, on_get]
  by_cases hlow : m.index.val < Memory.programStart
  · have hwrite : m.memory.write m.index.val bytes = .error (.reservedAddress m.index.val) :=
      Memory.write_eq_error_iff.2 (.inl ⟨hlow, rfl⟩)
    rw [Machine.store, hwrite]
    simp only [if_pos hlow]
    rfl
  · rw [Machine.store, Memory.write, if_neg hlow]
    by_cases hend : m.index.val + bytes.length ≤ Memory.size
    · rw [if_pos hend]
      simp only [if_neg hlow, if_neg (Nat.not_lt.2 hend)]
      rfl
    · rw [if_neg hend]
      simp only [if_neg hlow, if_pos (Nat.lt_of_not_le hend)]
      rfl

theorem on_combine (op : Arithmetic) (x y : Digit) :
    (combine op x y).on m = (.ok ⟨⟩, { m with registers := op.apply x y m.registers }) := by
  cases op <;> rfl

theorem on_draw (x y n : Digit) :
    (draw x y n).on m = leaving m ((m.draw x y n).map fun next ↦ (⟨⟩, next)) := by
  rw [draw, Machine.draw, on_bind, on_look]
  cases m.memory.slice m.index.val n.val <;> rfl

/-- **Every instruction is all or nothing**, once the program counter has moved past it. -/
theorem on_perform (op : Opcode) : (perform op).on m = leaving m (m.execute op) := by
  cases op with
  -- One check, and only assignments behind it: a success and a failure of the check each compute.
  | ret =>
    rw [perform, Machine.execute, on_bind, on_pop]
    cases m.stack.pop <;> rfl
  | call target =>
    rw [perform, Machine.execute, on_bind, on_get]
    show (push m.pc >>= fun _ ↦ _).on m = _
    rw [on_bind, on_push]
    cases m.stack.push m.pc <;> rfl
  | draw x y n =>
    rw [perform, Machine.execute, on_bind, on_draw]
    cases m.draw x y n <;> rfl
  | storeDecimal x =>
    rw [perform, Machine.execute, on_bind, on_get]
    show (store _ >>= fun _ ↦ _).on m = _
    rw [on_bind, on_store]
    cases m.store (Machine.decimalDigits (m.registers.get x)) <;> rfl
  | storeRegisters x =>
    rw [perform, Machine.execute, on_bind, on_get]
    show (store _ >>= fun _ ↦ _).on m = _
    rw [on_bind, on_store]
    cases m.store (m.registers.upTo x) <;> rfl
  | loadRegisters x =>
    rw [perform, Machine.execute, Machine.loadRegisters, on_bind, on_look]
    cases m.memory.slice m.index.val (x.val + 1) <;> rfl
  -- No check at all.
  | skip condition =>
    rw [perform, Machine.execute, on_bind, on_get]
    by_cases h : condition.holds m
    · simp only [if_pos h]
      rfl
    · simp only [if_neg h]
      rfl
  | arithmetic op x y =>
    rw [perform, Machine.execute, on_bind, on_combine]
    rfl
  | clearScreen | jump target | jumpOffset base | setByte x nn | addByte x nn | random x mask
  | setIndex target | addIndex x | pointGlyph x | awaitKey x | readDelay x | setDelay x
  | setSound x => rfl

theorem on_dispatch (word : Word) (reading : Option Opcode) :
    (dispatch word reading).on m = leaving m.stepOver (m.dispatch word reading) := by
  cases reading with
  | none => rfl
  | some op => exact on_perform op

theorem on_pollKey (x : Digit) :
    (pollKey x).on m = (.ok (m.pollKey x).1, (m.pollKey x).2) := by
  rw [pollKey, on_bind, on_get, Machine.pollKey]
  cases h : m.keypad.takePress with
  | none => simp only [h]; rfl
  | some found => simp only [h]; rfl

theorem on_attempt_of_awake (awake : m.keyWait = none) :
    attempt.on m = match m.memory.fetch m.pc.toNat with
      | .ok word => leaving m.stepOver (m.dispatch word (Opcode.decode? word))
      | .error fault => (.error fault, m) := by
  rw [attempt, on_bind, on_get]
  simp only [awake]
  rw [on_bind, on_look]
  cases m.memory.fetch m.pc.toNat with
  | ok word => exact on_dispatch word _
  | error fault => rfl

theorem on_cycle_of_running (running : m.fault = none) :
    cycle.on m = match attempt.on m with
      | (.ok signal, next) => (.ok signal, next)
      | (.error fault, next) => (.error fault, { next with fault := some fault }) := by
  rw [cycle, on_bind, on_get]
  simp only [running, Option.isSome_none, Bool.false_eq_true, if_false]
  rw [on_tryCatch]
  rcases attempt.on m with ⟨fault | signal, next⟩ <;> rfl

/-- **A cycle in place is a cycle of the model**, whatever comes of it. -/
theorem on_cycle (m : Machine) : cycle.on m = (m.cycle.outcome, m.cycle.machine) := by
  rcases running : m.fault with - | fault
  · rw [on_cycle_of_running running]
    rcases awake : m.keyWait with - | x
    · rw [on_attempt_of_awake awake, Machine.cycle_of_awake running awake, Machine.fetchAndExecute]
      rcases m.memory.fetch m.pc.toNat with fault | word
      · rfl
      · simp only
        rcases m.dispatch word (Opcode.decode? word) with fault | ⟨signal, next⟩ <;> rfl
    · rw [attempt, on_bind, on_get, Machine.cycle_of_keyWait running awake]
      simp only [awake, on_pollKey]
  · rw [cycle, on_bind, on_get, Machine.cycle_of_fault running]
    simp only [running, Option.isSome_some, if_true]
    rfl

end AllOrNothing

end InPlace

namespace Machine

variable {m : Machine} {fault : Fault}

/-- A cycle that fails leaves the machine where it is or, if there was a word to fetch, behind it. -/
theorem machine_of_failed (running : m.fault = none) (failed : m.cycle.outcome = .error fault) :
    (¬ m.pc.toNat + 2 ≤ Memory.size ∧ m.cycle.machine = { m with fault := some fault }) ∨
      (m.pc.toNat + 2 ≤ Memory.size ∧
        m.cycle.machine = { m with pc := m.pc + 2, fault := some fault }) := by
  cases m.beat with
  | halted halted _ => rw [running] at halted; cases halted
  | polled _ _ result => rw [result] at failed; cases failed
  | unfetched _ _ h result =>
    rw [result] at failed ⊢
    obtain rfl := Except.error.inj failed
    exact .inl ⟨h, rfl⟩
  | unread _ _ fits _ result =>
    rw [result] at failed ⊢
    obtain rfl := Except.error.inj failed
    exact .inr ⟨fits, rfl⟩
  | refused hop _ result =>
    rw [result] at failed ⊢
    obtain rfl := Except.error.inj failed
    exact .inr ⟨hop.fits, rfl⟩
  | done _ _ result => rw [result] at failed; cases failed

/-- **A failing cycle is atomic.** Nothing is left of it but the fault and, if there was a word to fetch,
the program counter behind that word; and a machine that is changed in place is left the same. -/
theorem failed_cycle_changes_nothing (m : Machine) (running : m.fault = none)
    (failed : m.cycle.outcome = .error fault) :
    (∀ e, m.memory.fetch m.pc.toNat = .error e →
        m.cycle.machine = { m with fault := some fault }) ∧
      (∀ w, m.memory.fetch m.pc.toNat = .ok w →
        m.cycle.machine = { m with pc := m.pc + 2, fault := some fault } ∧
          (m.pc + 2).toNat = m.pc.toNat + 2) ∧
      InPlace.cycle.on m = (.error fault, m.cycle.machine) := by
  refine ⟨fun e hfetch ↦ ?_, fun w hfetch ↦ ?_, ?_⟩
  · obtain ⟨hend, -⟩ := Memory.fetch_eq_error_iff.1 hfetch
    obtain ⟨-, hmachine⟩ | ⟨fits, -⟩ := machine_of_failed running failed
    · exact hmachine
    · exact absurd fits hend
  · obtain ⟨fits, -⟩ := Memory.fetch_eq_ok_iff.1 hfetch
    obtain ⟨hend, -⟩ | ⟨-, hmachine⟩ := machine_of_failed running failed
    · exact absurd fits hend
    · have hsize : Memory.size = 0x1000 := rfl
      exact ⟨hmachine, toNat_add_two (by omega)⟩
  · rw [InPlace.on_cycle, failed]

/-- A program stores three registers where only two bytes are left, and another one goes on at the last
cell of memory, where there is no whole word. -/
theorem registers_past_end_and_lone_cell :
    let m := (powerOn .usual (.ofSeed 0)).run [.load [0xAF, 0xFE, 0xF2, 0x55], .cycle]
    let lone := (powerOn .usual (.ofSeed 0)).run [.load [0x1F, 0xFF], .cycle]
    (m.fault = none ∧ m.cycle.outcome = .error (.addressOutOfRange 0x1000) ∧
        m.memory.fetch m.pc.toNat = .ok 0xF255 ∧
        m.cycle.machine = { m with pc := m.pc + 2, fault := some (.addressOutOfRange 0x1000) }) ∧
      lone.fault = none ∧ lone.cycle.outcome = .error (.addressOutOfRange 0xFFF) ∧
        lone.memory.fetch lone.pc.toNat = .error (.addressOutOfRange 0xFFF) ∧
        lone.cycle.machine = { lone with fault := some (.addressOutOfRange 0xFFF) } := by
  refine ⟨⟨by decide, rfl, ?_, ?_⟩, by decide, rfl, ?_, ?_⟩
  · exact Memory.fetch_eq_ok_iff.2 ⟨by decide, by decide⟩
  · exact ((failed_cycle_changes_nothing _ (by decide) rfl).2.1 _
      (Memory.fetch_eq_ok_iff.2 ⟨by decide, rfl⟩)).1
  · exact Memory.fetch_eq_error_iff.2 ⟨by decide, by decide⟩
  · exact (failed_cycle_changes_nothing _ (by decide) rfl).1 _
      (Memory.fetch_eq_error_iff.2 ⟨by decide, rfl⟩)

end Machine

end ChipEight
