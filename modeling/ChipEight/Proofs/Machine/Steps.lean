import ChipEight.Machine.History
import ChipEight.Proofs.Memory.Access

/-!
# What a cycle can do

The instructions by their **effect** and by their **refusal**. Seven effects cover all instructions: most
of them compute, that is, they touch neither memory nor control, and each of the others touches one
thing that a computation leaves alone. Six refusals are all that can go wrong once an instruction has
been read.

Above them stand the six ways in which a cycle can go (`Beat`), each with the whole of what comes of it.
What is shown of all cycles is shown once for each of these cases, and what is shown of all histories
once for each event.

**Main statements**: `effect_of_execute`, `execute_eq_error_iff`, `beat` and `run_of_apply`.
-/

namespace ChipEight

/-! ### The call stack -/

namespace CallStack

variable {s s' : CallStack} {address : UInt16} {fault : Fault}

theorem push_eq_ok_iff :
    s.push address = .ok s' ↔
      s.frames.length < s.depth ∧ s' = { s with frames := address :: s.frames } :=
  guard_eq_ok_iff

theorem push_eq_error_iff :
    s.push address = .error fault ↔
      ¬ s.frames.length < s.depth ∧ fault = .stackOverflow s.depth :=
  guard_eq_error_iff

theorem pop_eq_ok_iff :
    s.pop = .ok (address, s') ↔ s.frames = address :: s'.frames ∧ s'.depth = s.depth := by
  obtain ⟨depth, frames⟩ := s
  obtain ⟨depth', frames'⟩ := s'
  cases frames with
  | nil => simp [pop]
  | cons a frames =>
    simp only [pop, Except.ok.injEq, Prod.mk.injEq, CallStack.mk.injEq, List.cons.injEq]
    constructor
    · rintro ⟨rfl, rfl, rfl⟩
      exact ⟨⟨rfl, rfl⟩, rfl⟩
    · rintro ⟨⟨rfl, rfl⟩, rfl⟩
      exact ⟨rfl, rfl, rfl⟩

theorem pop_eq_error_iff : s.pop = .error fault ↔ s.frames = [] ∧ fault = .stackUnderflow := by
  unfold pop
  split <;> rename_i h <;> simp [h, eq_comm]

end CallStack

namespace Machine

variable {m next : Machine} {op : Opcode} {signal : Signal} {fault : Fault}

/-! ### Effects -/

/-- What an instruction carried out on a machine makes of it. -/
inductive Effect (m : Machine) : Opcode → Machine → Prop where
  /-- The display, the registers, the index register, the timers and the random stream are what an
  instruction computes with. -/
  | compute {op : Opcode} (display : Framebuffer) (registers : Registers) (index : Address)
      (timers : Timers) (generator : Generator) :
      Effect m op { m with display, registers, index, timers, generator }
  /-- A jump goes to an address. -/
  | goTo {op : Opcode} (target : Address) : Effect m op { m with pc := target.toWord }
  /-- A skip that skips passes over one more instruction. -/
  | skip {condition : Condition} (h : condition.holds m) :
      Effect m (.skip condition) { m with pc := m.pc + 2 }
  /-- A call leaves the way back on the call stack. -/
  | call {target : Address} {stack : CallStack} (h : m.stack.push m.pc = .ok stack) :
      Effect m (.call target) { m with pc := target.toWord, stack }
  /-- A return takes it from there. -/
  | ret {address : UInt16} {stack : CallStack} (h : m.stack.pop = .ok (address, stack)) :
      Effect m .ret { m with pc := address, stack }
  /-- A wait begins. -/
  | await (x : Digit) : Effect m (.awaitKey x) (m.awaitKey x)
  /-- Bytes are written at the index register. -/
  | store {op : Opcode} {bytes : List UInt8} {memory : Memory}
      (h : m.memory.write m.index.val bytes = .ok memory) : Effect m op { m with memory }

/-- **Every instruction that is carried out has one of the effects.** -/
theorem effect_of_execute (h : m.execute op = .ok (signal, next)) : Effect m op next := by
  cases op with
  -- These ask something of the machine first, and `h` says that they got an answer.
  | ret =>
    obtain ⟨⟨address, stack⟩, hpop, h⟩ := map_eq_ok_iff.1 h
    obtain ⟨rfl, rfl⟩ := Prod.mk.inj h
    exact .ret hpop
  | call target =>
    obtain ⟨stack, hpush, h⟩ := map_eq_ok_iff.1 h
    obtain ⟨rfl, rfl⟩ := Prod.mk.inj h
    exact .call hpush
  | draw x y n =>
    obtain ⟨_, hdraw, h⟩ := map_eq_ok_iff.1 h
    obtain ⟨rfl, rfl⟩ := Prod.mk.inj h
    obtain ⟨sprite, -, rfl⟩ := map_eq_ok_iff.1 hdraw
    exact .compute _ _ m.index m.timers m.generator
  | storeDecimal x | storeRegisters x =>
    obtain ⟨_, hstore, h⟩ := map_eq_ok_iff.1 h
    obtain ⟨rfl, rfl⟩ := Prod.mk.inj h
    obtain ⟨memory, hwrite, rfl⟩ := map_eq_ok_iff.1 hstore
    exact .store hwrite
  | loadRegisters x =>
    obtain ⟨_, hload, h⟩ := map_eq_ok_iff.1 h
    obtain ⟨rfl, rfl⟩ := Prod.mk.inj h
    obtain ⟨bytes, -, rfl⟩ := map_eq_ok_iff.1 hload
    exact .compute m.display _ m.index m.timers m.generator
  -- These cannot fail, and `h` gives the machine as it stands in the definition.
  | skip condition =>
    obtain ⟨rfl, rfl⟩ := Prod.mk.inj (Except.ok.inj h)
    split
    · exact .skip ‹_›
    · exact .compute m.display m.registers m.index m.timers m.generator
  | jump target | jumpOffset base =>
    obtain ⟨rfl, rfl⟩ := Prod.mk.inj (Except.ok.inj h)
    exact .goTo _
  | awaitKey x =>
    obtain ⟨rfl, rfl⟩ := Prod.mk.inj (Except.ok.inj h)
    exact .await x
  | clearScreen | setByte x nn | addByte x nn | arithmetic op x y | random x mask | setIndex target
  | addIndex x | pointGlyph x | readDelay x | setDelay x | setSound x =>
    obtain ⟨rfl, rfl⟩ := Prod.mk.inj (Except.ok.inj h)
    exact .compute _ _ _ _ _

/-! ### Refusals -/

/-- Why an instruction is not carried out on a machine. -/
inductive Refusal (m : Machine) : Opcode → Fault → Prop where
  | ret (h : m.stack.frames = []) : Refusal m .ret .stackUnderflow
  | call {target : Address} (h : ¬ m.stack.frames.length < m.stack.depth) :
      Refusal m (.call target) (.stackOverflow m.stack.depth)
  | draw {x y n : Digit} {fault : Fault} (h : m.memory.slice m.index.val n.val = .error fault) :
      Refusal m (.draw x y n) fault
  | loadRegisters {x : Digit} {fault : Fault}
      (h : m.memory.slice m.index.val (x.val + 1) = .error fault) :
      Refusal m (.loadRegisters x) fault
  | storeDecimal {x : Digit} {fault : Fault}
      (h : m.memory.write m.index.val (decimalDigits (m.registers.get x)) = .error fault) :
      Refusal m (.storeDecimal x) fault
  | storeRegisters {x : Digit} {fault : Fault}
      (h : m.memory.write m.index.val (m.registers.upTo x) = .error fault) :
      Refusal m (.storeRegisters x) fault

/-- **An instruction fails exactly for one of the refusals.** -/
theorem execute_eq_error_iff : m.execute op = .error fault ↔ Refusal m op fault := by
  constructor
  · intro h
    cases op with
    | ret =>
      obtain ⟨hempty, rfl⟩ := CallStack.pop_eq_error_iff.1 (map_eq_error_iff.1 h)
      exact .ret hempty
    | call target =>
      obtain ⟨hfull, rfl⟩ := CallStack.push_eq_error_iff.1 (map_eq_error_iff.1 h)
      exact .call hfull
    | draw x y n => exact .draw (map_eq_error_iff.1 (map_eq_error_iff.1 h))
    | loadRegisters x => exact .loadRegisters (map_eq_error_iff.1 (map_eq_error_iff.1 h))
    | storeDecimal x => exact .storeDecimal (map_eq_error_iff.1 (map_eq_error_iff.1 h))
    | storeRegisters x => exact .storeRegisters (map_eq_error_iff.1 (map_eq_error_iff.1 h))
    | _ => cases h
  · intro h
    cases h with
    | ret h => exact map_eq_error_iff.2 (CallStack.pop_eq_error_iff.2 ⟨h, rfl⟩)
    | call h => exact map_eq_error_iff.2 (CallStack.push_eq_error_iff.2 ⟨h, rfl⟩)
    | draw h | loadRegisters h | storeDecimal h | storeRegisters h =>
      exact map_eq_error_iff.2 (map_eq_error_iff.2 h)

/-! ### Cycles -/

/-- Anywhere near memory the program counter moves on without wrapping. -/
theorem toNat_add_two {pc : UInt16} (h : pc.toNat ≤ 0x1004) : (pc + 2).toNat = pc.toNat + 2 := by
  rw [UInt16.toNat_add, Nat.mod_eq_of_lt]
  · rfl
  · show pc.toNat + 2 < 65536
    omega

/-- The word under the program counter. -/
def current (m : Machine) : Word := m.memory.word m.pc.toNat

theorem fetch_current (fits : m.pc.toNat + 2 ≤ Memory.size) :
    m.memory.fetch m.pc.toNat = .ok m.current :=
  Memory.fetch_eq_ok_iff.2 ⟨fits, rfl⟩

/-- The next cycle fetches the word of an instruction and sets about carrying it out. -/
structure Executes (m : Machine) (op : Opcode) : Prop where
  running : m.fault = none
  awake : m.keyWait = none
  fits : m.pc.toNat + 2 ≤ Memory.size
  reads : Opcode.decode? m.current = some op

/-- There is a whole word to step over, so the program counter does not wrap. -/
theorem Executes.toNat_pc_add_two (h : m.Executes op) : (m.pc + 2).toNat = m.pc.toNat + 2 :=
  toNat_add_two (Nat.le_trans (Nat.le_of_add_right_le h.fits) (by decide))

/-- A look at the keypad touches nothing but a register, the latched keys and the wait. -/
theorem pollKey_frame (m : Machine) (x : Digit) :
    ∃ registers latched keyWait, (m.pollKey x).2 =
      { m with registers, keypad := { m.keypad with latched }, keyWait } := by
  unfold pollKey
  cases hleast : m.keypad.takePress with
  | none => exact ⟨m.registers, m.keypad.latched, m.keyWait, rfl⟩
  | some press =>
    obtain ⟨k, -, rfl⟩ := Option.map_eq_some_iff.1 hleast
    exact ⟨_, _, _, rfl⟩

theorem cycle_of_fault (h : m.fault = some fault) : m.cycle = ⟨.error .halted, [], m⟩ := by
  rw [cycle, h]

theorem cycle_of_keyWait {x : Digit} (running : m.fault = none) (waiting : m.keyWait = some x) :
    m.cycle = ⟨.ok (m.pollKey x).1, [], (m.pollKey x).2⟩ := by
  rw [cycle, running, waiting]

theorem cycle_of_awake (running : m.fault = none) (awake : m.keyWait = none) :
    m.cycle = m.fetchAndExecute := by
  rw [cycle, running, awake]

theorem cycle_of_not_fits (running : m.fault = none) (awake : m.keyWait = none)
    (h : ¬ m.pc.toNat + 2 ≤ Memory.size) :
    m.cycle = m.halt (.addressOutOfRange m.pc.toNat) [] := by
  rw [cycle_of_awake running awake, fetchAndExecute, Memory.fetch_eq_error_iff.2 ⟨h, rfl⟩]

theorem cycle_of_decode?_eq_none (running : m.fault = none) (awake : m.keyWait = none)
    (fits : m.pc.toNat + 2 ≤ Memory.size) (h : Opcode.decode? m.current = none) :
    m.cycle =
      m.stepOver.halt (.invalidInstruction m.current) [.fetched m.pc m.current none] := by
  rw [cycle_of_awake running awake, fetchAndExecute, fetch_current fits]
  simp only [h, dispatch]

theorem Executes.cycle_of_refusal (h : m.Executes op) (refusal : Refusal m.stepOver op fault) :
    m.cycle = m.stepOver.halt fault [.fetched m.pc m.current (some op)] := by
  rw [cycle_of_awake h.running h.awake, fetchAndExecute, fetch_current h.fits]
  simp only [h.reads, dispatch, execute_eq_error_iff.2 refusal]

theorem Executes.cycle_of_execute (h : m.Executes op)
    (done : m.stepOver.execute op = .ok (signal, next)) :
    m.cycle = ⟨.ok signal, [.fetched m.pc m.current (some op)], next⟩ := by
  rw [cycle_of_awake h.running h.awake, fetchAndExecute, fetch_current h.fits]
  simp only [h.reads, dispatch, done]

/-- The ways in which a cycle can go. -/
inductive Beat (m : Machine) : Prop where
  /-- A machine that has halted refuses. -/
  | halted {fault : Fault} (h : m.fault = some fault) (result : m.cycle = ⟨.error .halted, [], m⟩)
  /-- A machine that waits looks at the keypad. -/
  | polled {x : Digit} (running : m.fault = none) (waiting : m.keyWait = some x)
      (result : m.cycle = ⟨.ok (m.pollKey x).1, [], (m.pollKey x).2⟩)
  /-- There is no whole word under the program counter. -/
  | unfetched (running : m.fault = none) (awake : m.keyWait = none)
      (h : ¬ m.pc.toNat + 2 ≤ Memory.size)
      (result : m.cycle = m.halt (.addressOutOfRange m.pc.toNat) [])
  /-- The word reads as no instruction. -/
  | unread (running : m.fault = none) (awake : m.keyWait = none)
      (fits : m.pc.toNat + 2 ≤ Memory.size) (h : Opcode.decode? m.current = none)
      (result : m.cycle =
        m.stepOver.halt (.invalidInstruction m.current) [.fetched m.pc m.current none])
  /-- The instruction is not carried out. -/
  | refused {op : Opcode} {fault : Fault} (h : m.Executes op) (refusal : Refusal m.stepOver op fault)
      (result : m.cycle = m.stepOver.halt fault [.fetched m.pc m.current (some op)])
  /-- The instruction is carried out. -/
  | done {op : Opcode} {signal : Signal} {next : Machine} (h : m.Executes op)
      (done : m.stepOver.execute op = .ok (signal, next))
      (result : m.cycle = ⟨.ok signal, [.fetched m.pc m.current (some op)], next⟩)

/-- **Every cycle goes in one of these ways.** -/
theorem beat (m : Machine) : Beat m := by
  rcases running : m.fault with - | fault
  · rcases awake : m.keyWait with - | x
    · by_cases fits : m.pc.toNat + 2 ≤ Memory.size
      · rcases reads : Opcode.decode? m.current with - | op
        · exact .unread running awake fits reads
            (cycle_of_decode?_eq_none running awake fits reads)
        · have h : m.Executes op := ⟨running, awake, fits, reads⟩
          rcases hx : m.stepOver.execute op with fault | ⟨signal, next⟩
          · have refusal := execute_eq_error_iff.1 hx
            exact .refused h refusal (h.cycle_of_refusal refusal)
          · exact .done h hx (h.cycle_of_execute hx)
      · exact .unfetched running awake fits (cycle_of_not_fits running awake fits)
    · exact .polled running awake (cycle_of_keyWait running awake)
  · exact .halted running (cycle_of_fault running)

/-! ### Histories -/

/-- **What every event preserves is preserved by every history.** -/
theorem run_of_apply {P : Machine → Prop} (step : ∀ m event, P m → P (apply m event)) (h : P m)
    (events : List Event) : P (m.run events) := by
  induction events generalizing m with
  | nil => exact h
  | cons event events ih =>
    rw [run_cons]
    exact ih (step m event h)

/-! ### The configuration -/

/-- No cycle changes the configuration. -/
theorem config_cycle (m : Machine) : m.cycle.machine.config = m.config := by
  cases m.beat with
  | halted _ result => rw [result]
  | unfetched _ _ _ result | unread _ _ _ _ result | refused _ _ result =>
    rw [result]
    rfl
  | @polled x _ _ result =>
    obtain ⟨_, _, _, hpoll⟩ := m.pollKey_frame x
    rw [result, hpoll]
  | done _ done result =>
    rw [result]
    cases effect_of_execute done <;> rfl

theorem config_apply (m : Machine) (event : Event) : (m.apply event).config = m.config := by
  cases event with
  | load program =>
    rw [apply]
    split
    · rename_i loaded hload
      obtain ⟨memory, -, rfl⟩ := map_eq_ok_iff.1 hload
      rfl
    · rfl
  | cycle => exact m.config_cycle
  | reset | tick | key => rfl

/-- **A machine keeps the configuration it was built with.** -/
theorem config_run (m : Machine) (events : List Event) : (m.run events).config = m.config :=
  run_of_apply (P := fun n ↦ n.config = m.config)
    (fun n event h ↦ (n.config_apply event).trans h) rfl events

end Machine

end ChipEight
