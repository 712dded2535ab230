import ChipEight.Proofs.Machine.Steps

/-!
# What a cycle may write

A machine is made of **places**: the cells of its memory, the display, the sixteen registers, and so on.
An instruction writes a few of them, and which ones those are can be told from the instruction and the
index register alone. `Writes` is that table, one line for each kind of place an instruction may write;
a place that no line names is never written, such as the keys that are held.

A cycle that succeeds either carries out an instruction or looks at the keypad for a machine that
waits. Whatever is different afterwards is a place that the instruction writes, or one of the three
that a look writes when it finds a key (`LookWrites`). The program counter is left out here, since it
moves with every instruction, and nothing else is (`eq_of_kept`).

**Main statement**: `cycle_writes`.
-/

namespace ChipEight

namespace Arithmetic

/-- Whether an operation reports in the flag: `8XY4`, `8XY5`, `8XY6`, `8XY7` and `8XYE` do. -/
def reports : Arithmetic → Bool
  | add | subtract | shiftRight | subtractFrom | shiftLeft => true
  | copy | or | and | xor => false

/-- An operation leaves alone every register but the one it combines into, and the flag if it
reports. -/
theorem get_apply {op : Arithmetic} {x y k : Digit} {r : Registers} (hx : k ≠ x)
    (hflag : op.reports = true → k ≠ Registers.flag) : (op.apply x y r).get k = r.get k := by
  have hcombined (value : UInt8) : (r.set x value).get k = r.get k := by
    rw [Registers.get_set, if_neg hx]
  cases op with
  | copy | or | and | xor => exact hcombined _
  | add | subtract | shiftRight | subtractFrom | shiftLeft =>
    exact ((r.set x _).get_setFlag k _).trans ((if_neg (hflag rfl)).trans (hcombined _))

end Arithmetic

/-- A place in a machine. -/
inductive Place where
  | cell (a : Address)
  | display
  | index
  | register (k : Digit)
  | stack
  | delay
  | sound
  /-- The keys that are held. -/
  | held
  /-- The presses that nobody has asked about yet. -/
  | latched
  | keyWait
  | fault
  | generator
  | config

/-- There is the same in a place of two machines. -/
def Place.Kept (m n : Machine) : Place → Prop
  | cell a => n.memory.cell a.val = m.memory.cell a.val
  | display => n.display = m.display
  | index => n.index = m.index
  | register k => n.registers.get k = m.registers.get k
  | stack => n.stack = m.stack
  | delay => n.timers.delay = m.timers.delay
  | sound => n.timers.sound = m.timers.sound
  | held => n.keypad.held = m.keypad.held
  | latched => n.keypad.latched = m.keypad.latched
  | keyWait => n.keyWait = m.keyWait
  | fault => n.fault = m.fault
  | generator => n.generator = m.generator
  | config => n.config = m.config

/-- The program counter is no place. -/
theorem Place.kept_stepOver_iff {m n : Machine} {place : Place} :
    place.Kept m.stepOver n ↔ place.Kept m n := by
  cases place <;> rfl

/-- The places that an instruction may write, on a machine with a certain index register. -/
inductive Writes (index : Address) : Opcode → Place → Prop where
  /-- `FX33` writes three cells. -/
  | decimal {x : Digit} {a : Address} (low : index.val ≤ a.val) (high : a.val ≤ index.val + 2) :
      Writes index (.storeDecimal x) (.cell a)
  /-- `FX55` writes a cell for each register from 0 up to and including `x`. -/
  | store {x : Digit} {a : Address} (low : index.val ≤ a.val) (high : a.val ≤ index.val + x.val) :
      Writes index (.storeRegisters x) (.cell a)
  | clear : Writes index .clearScreen .display
  | draw {x y n : Digit} : Writes index (.draw x y n) .display
  /-- `DXYN` reports a collision in the flag. -/
  | collision {x y n : Digit} : Writes index (.draw x y n) (.register 0xF)
  | call {target : Address} : Writes index (.call target) .stack
  | ret : Writes index .ret .stack
  | setIndex {target : Address} : Writes index (.setIndex target) .index
  | addIndex {x : Digit} : Writes index (.addIndex x) .index
  | pointGlyph {x : Digit} : Writes index (.pointGlyph x) .index
  | setDelay {x : Digit} : Writes index (.setDelay x) .delay
  | setSound {x : Digit} : Writes index (.setSound x) .sound
  /-- `CXNN` moves on in the random stream. -/
  | advance {x : Digit} {mask : UInt8} : Writes index (.random x mask) .generator
  | random {x : Digit} {mask : UInt8} : Writes index (.random x mask) (.register x)
  /-- `FX0A` forgets the presses so far. -/
  | forget {x : Digit} : Writes index (.awaitKey x) .latched
  | await {x : Digit} : Writes index (.awaitKey x) .keyWait
  | setByte {x : Digit} {nn : UInt8} : Writes index (.setByte x nn) (.register x)
  | addByte {x : Digit} {nn : UInt8} : Writes index (.addByte x nn) (.register x)
  | readDelay {x : Digit} : Writes index (.readDelay x) (.register x)
  | combine {op : Arithmetic} {x y : Digit} : Writes index (.arithmetic op x y) (.register x)
  /-- Five of the operations `8XYN` report in the flag. -/
  | report {op : Arithmetic} {x y : Digit} (h : op.reports = true) :
      Writes index (.arithmetic op x y) (.register 0xF)
  /-- `FX65` writes the registers from 0 up to and including `x`. -/
  | load {x k : Digit} (h : k ≤ x) : Writes index (.loadRegisters x) (.register k)

/-- The places that a look at the keypad writes if it finds a key, for a machine that waits for one to
put into a register. -/
inductive LookWrites (x : Digit) : Place → Prop where
  | latched : LookWrites x .latched
  | register : LookWrites x (.register x)
  | keyWait : LookWrites x .keyWait

/-- What an instruction that is carried out tells. -/
def Opcode.signal : Opcode → Signal
  | clearScreen | draw .. => .displayChanged
  | awaitKey _ => .waitingForKey
  | _ => .proceed

theorem Opcode.signal_eq_displayChanged_iff {op : Opcode} :
    op.signal = .displayChanged ↔ op = .clearScreen ∨ ∃ x y n, op = .draw x y n := by
  constructor
  · intro h
    cases op with
    | clearScreen => exact .inl rfl
    | draw x y n => exact .inr ⟨x, y, n, rfl⟩
    | _ => cases h
  · rintro (rfl | ⟨x, y, n, rfl⟩) <;> rfl

/-- Only an instruction that tells of it writes the display. -/
theorem Writes.signal_eq {index : Address} {op : Opcode} (h : Writes index op .display) :
    op.signal = .displayChanged := by
  cases h <;> rfl

namespace Machine

variable {m n next : Machine} {op : Opcode} {signal : Signal} {place : Place} {x k : Digit}

/-- **A machine is its places and its program counter.** -/
theorem eq_of_kept (h : ∀ place : Place, place.Kept m n) : n = { m with pc := n.pc } := by
  obtain ⟨config, memory, display, pc, index, registers, stack, ⟨delay, sound⟩, ⟨held, latched⟩,
    keyWait, fault, generator⟩ := n
  obtain rfl : config = m.config := h .config
  obtain rfl : memory = m.memory := Memory.ext_cell fun a ha ↦ h (.cell ⟨a, ha⟩)
  obtain rfl : display = m.display := h .display
  obtain rfl : index = m.index := h .index
  obtain rfl : registers = m.registers := Registers.ext_get fun k ↦ h (.register k)
  obtain rfl : stack = m.stack := h .stack
  obtain rfl : delay = m.timers.delay := h .delay
  obtain rfl : sound = m.timers.sound := h .sound
  obtain rfl : held = m.keypad.held := h .held
  obtain rfl : latched = m.keypad.latched := h .latched
  obtain rfl : keyWait = m.keyWait := h .keyWait
  obtain rfl : fault = m.fault := h .fault
  obtain rfl : generator = m.generator := h .generator
  rfl

/-! ### Instructions -/

/-- Putting a byte into a register changes no other one. -/
theorem eq_of_not_kept_set {value : UInt8}
    (changed : ¬ (m.registers.set x value).get k = m.registers.get k) : k = x := by
  refine Decidable.byContradiction fun hk ↦ changed ?_
  rw [Registers.get_set, if_neg hk]

/-- Bytes that are stored at the index register change no cell but those they land on. -/
theorem bounds_of_not_kept_store {bytes : List UInt8} (h : m.store bytes = .ok next) {a : Address}
    (changed : ¬ (Place.cell a).Kept m next) :
    m.index.val ≤ a.val ∧ a.val < m.index.val + bytes.length := by
  obtain ⟨memory, hwrite, rfl⟩ := map_eq_ok_iff.1 h
  obtain ⟨-, hend, rfl⟩ := Memory.write_eq_ok_iff.1 hwrite
  refine Decidable.byContradiction fun hout ↦ changed ?_
  show (m.memory.place m.index.val bytes).cell a.val = m.memory.cell a.val
  rw [Memory.cell_place _ _ _ hend a.isLt, if_neg hout]

theorem signal_of_execute (h : m.execute op = .ok (signal, next)) : signal = op.signal := by
  cases op with
  | ret | call | draw | storeDecimal | storeRegisters | loadRegisters =>
    obtain ⟨_, -, hsignal⟩ := map_eq_ok_iff.1 h
    exact (Prod.mk.inj hsignal).1.symm
  | _ => exact (Prod.mk.inj (Except.ok.inj h)).1.symm

/-- **An instruction writes no place but those the table gives it.** -/
theorem writes_of_execute (h : m.execute op = .ok (signal, next))
    (changed : ¬ place.Kept m next) : Writes m.index op place := by
  cases op with
  -- These ask something of the machine first, and `h` says that they got an answer.
  | ret | call =>
    obtain ⟨_, -, h⟩ := map_eq_ok_iff.1 h
    obtain ⟨-, rfl⟩ := Prod.mk.inj h
    cases place with
    | stack => constructor
    | _ => exact absurd rfl changed
  | draw x y n =>
    obtain ⟨_, hdraw, h⟩ := map_eq_ok_iff.1 h
    obtain ⟨-, rfl⟩ := Prod.mk.inj h
    obtain ⟨_, -, rfl⟩ := map_eq_ok_iff.1 hdraw
    cases place with
    | display => exact .draw
    | register k =>
      obtain rfl := eq_of_not_kept_set changed
      exact .collision
    | _ => exact absurd rfl changed
  | storeDecimal x =>
    obtain ⟨_, hstore, h⟩ := map_eq_ok_iff.1 h
    obtain ⟨-, rfl⟩ := Prod.mk.inj h
    cases place with
    | cell a =>
      obtain ⟨low, high⟩ := bounds_of_not_kept_store hstore changed
      exact .decimal low (Nat.le_of_lt_succ high)
    | _ =>
      obtain ⟨_, -, rfl⟩ := map_eq_ok_iff.1 hstore
      exact absurd rfl changed
  | storeRegisters x =>
    obtain ⟨_, hstore, h⟩ := map_eq_ok_iff.1 h
    obtain ⟨-, rfl⟩ := Prod.mk.inj h
    cases place with
    | cell a =>
      obtain ⟨low, high⟩ := bounds_of_not_kept_store hstore changed
      rw [Registers.length_upTo] at high
      exact .store low (Nat.le_of_lt_succ high)
    | _ =>
      obtain ⟨_, -, rfl⟩ := map_eq_ok_iff.1 hstore
      exact absurd rfl changed
  | loadRegisters x =>
    obtain ⟨_, hload, h⟩ := map_eq_ok_iff.1 h
    obtain ⟨-, rfl⟩ := Prod.mk.inj h
    obtain ⟨bytes, -, rfl⟩ := map_eq_ok_iff.1 hload
    cases place with
    | register k =>
      refine .load (Decidable.byContradiction fun hk ↦ changed ?_)
      show (m.registers.restore x bytes).get k = m.registers.get k
      rw [Registers.get_restore, if_neg hk]
    | _ => exact absurd rfl changed
  -- These cannot fail, and `h` gives the machine as it stands in the definition.
  | skip condition =>
    obtain ⟨-, rfl⟩ := Prod.mk.inj (Except.ok.inj h)
    split at changed <;> cases place <;> exact absurd rfl changed
  | jump | jumpOffset =>
    obtain ⟨-, rfl⟩ := Prod.mk.inj (Except.ok.inj h)
    cases place <;> exact absurd rfl changed
  | clearScreen =>
    obtain ⟨-, rfl⟩ := Prod.mk.inj (Except.ok.inj h)
    cases place with
    | display => exact .clear
    | _ => exact absurd rfl changed
  | setIndex | addIndex | pointGlyph =>
    obtain ⟨-, rfl⟩ := Prod.mk.inj (Except.ok.inj h)
    cases place with
    | index => constructor
    | _ => exact absurd rfl changed
  | setDelay =>
    obtain ⟨-, rfl⟩ := Prod.mk.inj (Except.ok.inj h)
    cases place with
    | delay => exact .setDelay
    | _ => exact absurd rfl changed
  | setSound =>
    obtain ⟨-, rfl⟩ := Prod.mk.inj (Except.ok.inj h)
    cases place with
    | sound => exact .setSound
    | _ => exact absurd rfl changed
  | awaitKey =>
    obtain ⟨-, rfl⟩ := Prod.mk.inj (Except.ok.inj h)
    cases place with
    | latched => exact .forget
    | keyWait => exact .await
    | _ => exact absurd rfl changed
  | setByte | addByte | readDelay =>
    obtain ⟨-, rfl⟩ := Prod.mk.inj (Except.ok.inj h)
    cases place with
    | register k =>
      obtain rfl := eq_of_not_kept_set changed
      constructor
    | _ => exact absurd rfl changed
  | random x mask =>
    obtain ⟨-, rfl⟩ := Prod.mk.inj (Except.ok.inj h)
    cases place with
    | register k =>
      obtain rfl := eq_of_not_kept_set changed
      exact .random
    | generator => exact .advance
    | _ => exact absurd rfl changed
  | arithmetic op x y =>
    obtain ⟨-, rfl⟩ := Prod.mk.inj (Except.ok.inj h)
    cases place with
    | register k =>
      by_cases hx : k = x
      · rw [hx]
        exact .combine
      · -- It is not the result that is written there, so it is the report.
        have hflag : op.reports = true ∧ k = Registers.flag :=
          Decidable.byContradiction fun hout ↦ changed
            (Arithmetic.get_apply hx fun hreports hk ↦ hout ⟨hreports, hk⟩)
        rw [hflag.2]
        exact .report hflag.1
    | _ => exact absurd rfl changed

/-! ### Cycles -/

/-- A look at the keypad that finds no key writes nothing, and one that finds a key writes three places
at most. -/
theorem lookWrites_of_pollKey (changed : ¬ place.Kept m (m.pollKey x).2) :
    (m.pollKey x).1 = .proceed ∧ LookWrites x place := by
  unfold pollKey at changed ⊢
  cases hpress : m.keypad.takePress with
  | none =>
    simp only [hpress] at changed
    cases place <;> exact absurd rfl changed
  | some press =>
    simp only [hpress] at changed
    obtain ⟨key, -, rfl⟩ := Option.map_eq_some_iff.1 hpress
    refine ⟨rfl, ?_⟩
    cases place with
    | register k =>
      obtain rfl := eq_of_not_kept_set changed
      exact .register
    | latched => exact .latched
    | keyWait => exact .keyWait
    | _ => exact absurd rfl changed

/-- A cycle that succeeds carries out an instruction or looks at the keypad. -/
theorem executes_or_waits (running : m.fault = none) (done : m.cycle.outcome = .ok signal) :
    (∃ op, m.Executes op) ∨ ∃ x, m.keyWait = some x := by
  cases m.beat with
  | halted halted _ => rw [running] at halted; cases halted
  | polled _ waiting _ => exact .inr ⟨_, waiting⟩
  | unfetched _ _ _ result | unread _ _ _ _ result => rw [result] at done; cases done
  | refused hop _ _ | done hop _ _ => exact .inl ⟨_, hop⟩

/-- An instruction that is set about and does not fail is carried out. -/
theorem Executes.exists_of_outcome (h : m.Executes op) (done : m.cycle.outcome = .ok signal) :
    m.stepOver.execute op = .ok (signal, m.cycle.machine) := by
  rcases hx : m.stepOver.execute op with fault | ⟨signal', next⟩
  · rw [h.cycle_of_refusal (execute_eq_error_iff.1 hx)] at done
    cases done
  · rw [h.cycle_of_execute hx] at done ⊢
    obtain rfl := Except.ok.inj done
    rfl

/-- **A cycle that succeeds writes what its instruction writes, or what its look at the keypad does.** -/
theorem writes_of_cycle (running : m.fault = none) (done : m.cycle.outcome = .ok signal)
    (changed : ¬ place.Kept m m.cycle.machine) :
    (∃ op, m.Executes op ∧ Writes m.index op place) ∨
      ∃ x, m.keyWait = some x ∧ signal = .proceed ∧ LookWrites x place := by
  rcases executes_or_waits running done with ⟨op, hop⟩ | ⟨x, waiting⟩
  · have hwrites : Writes m.stepOver.index op place :=
      writes_of_execute (hop.exists_of_outcome done) (mt Place.kept_stepOver_iff.1 changed)
    exact .inl ⟨op, hop, hwrites⟩
  · rw [cycle_of_keyWait running waiting] at done changed
    obtain ⟨hfound, hwrites⟩ := lookWrites_of_pollKey changed
    exact .inr ⟨x, waiting, (Except.ok.inj done).symm.trans hfound, hwrites⟩

/-- **A cycle tells of a new display exactly if it carries out `00E0` or `DXYN`.** -/
theorem signal_eq_displayChanged_iff (running : m.fault = none)
    (done : m.cycle.outcome = .ok signal) :
    signal = .displayChanged ↔ m.Executes .clearScreen ∨ ∃ x y n, m.Executes (.draw x y n) := by
  have hsignal (op : Opcode) (hop : m.Executes op) : signal = op.signal :=
    signal_of_execute (hop.exists_of_outcome done)
  constructor
  · rintro rfl
    rcases executes_or_waits running done with ⟨op, hop⟩ | ⟨x, waiting⟩
    · rcases Opcode.signal_eq_displayChanged_iff.1 (hsignal op hop).symm with rfl | ⟨x, y, n, rfl⟩
      · exact .inl hop
      · exact .inr ⟨x, y, n, hop⟩
    · rw [cycle_of_keyWait running waiting] at done
      have hlook : (m.pollKey x).1 ≠ .displayChanged := by
        unfold pollKey
        split <;> exact nofun
      exact absurd (Except.ok.inj done) hlook
  · rintro (hop | ⟨x, y, n, hop⟩) <;> exact hsignal _ hop

/-- **What one cycle may write.** If a machine that has not halted makes a cycle that succeeds, then every
place that is different afterwards is one that the instruction it carries out writes, or one of the
three that a look at the keypad writes when it finds the awaited key. So the display is different only
if the cycle tells of it, which `00E0` and `DXYN` do and nothing else; and neither the fault nor the
keys held are ever different. -/
theorem cycle_writes (running : m.fault = none) (done : m.cycle.outcome = .ok signal) :
    (∀ place : Place, ¬ place.Kept m m.cycle.machine →
      (∃ op, m.Executes op ∧ Writes m.index op place) ∨
        ∃ x, m.keyWait = some x ∧ signal = .proceed ∧ LookWrites x place) ∧
      (m.cycle.machine.display ≠ m.display → signal = .displayChanged) ∧
        (signal = .displayChanged ↔ m.Executes .clearScreen ∨ ∃ x y n, m.Executes (.draw x y n)) ∧
          m.cycle.machine.fault = none ∧ m.cycle.machine.keypad.held = m.keypad.held := by
  have written : ∀ place : Place, ¬ place.Kept m m.cycle.machine →
      (∃ op, m.Executes op ∧ Writes m.index op place) ∨
        ∃ x, m.keyWait = some x ∧ signal = .proceed ∧ LookWrites x place :=
    fun place changed ↦ writes_of_cycle running done changed
  refine ⟨written, fun changed ↦ ?_, signal_eq_displayChanged_iff running done, ?_, ?_⟩
  · rcases written .display changed with ⟨op, hop, hwrites⟩ | ⟨x, -, -, hwrites⟩
    · exact (signal_of_execute (hop.exists_of_outcome done)).trans hwrites.signal_eq
    · cases hwrites
  · refine Decidable.byContradiction fun latched ↦ ?_
    have changed : ¬ Place.fault.Kept m m.cycle.machine := fun kept ↦ latched (kept.trans running)
    rcases written .fault changed with ⟨op, -, hwrites⟩ | ⟨x, -, -, hwrites⟩ <;> cases hwrites
  · refine Decidable.byContradiction fun changed ↦ ?_
    rcases written .held changed with ⟨op, -, hwrites⟩ | ⟨x, -, -, hwrites⟩ <;> cases hwrites

/-- A program subtracts a register from the flag register itself, and the flag is what is different.
Another one stores two registers and changes the last cell it may. A third waits for a key, and after a
press the register is different. -/
theorem flag_cell_and_awaited_register :
    let minus := (powerOn .usual (.ofSeed 0)).run [.load [0x6F, 0x05, 0x8F, 0x15], .cycle]
    let store := (powerOn .usual (.ofSeed 0)).run
      [.load [0xA3, 0x00, 0x61, 0x07, 0xF1, 0x55], .cycle, .cycle]
    let wait := (powerOn .usual (.ofSeed 0)).run [.load [0xF2, 0x0A], .cycle, .key 0x5 true]
    (minus.fault = none ∧ minus.cycle.outcome = .ok .proceed ∧
      ∃ op, minus.Executes op ∧ Writes minus.index op (.register 0xF)) ∧
      (store.fault = none ∧ store.cycle.outcome = .ok .proceed ∧
        ∃ op, store.Executes op ∧ Writes store.index op (.cell (.masked 0x301))) ∧
        wait.fault = none ∧ wait.cycle.outcome = .ok .proceed ∧
          ∃ x, wait.keyWait = some x ∧ LookWrites x (.register 0x2) := by
  intro minus store wait
  have hminus : minus.cycle.outcome = .ok .proceed := by unfold minus; rfl
  have hstore : store.cycle.outcome = .ok .proceed := by unfold store; rfl
  have hwait : wait.cycle.outcome = .ok .proceed := by unfold wait; rfl
  have minusAwake : ∀ x, minus.keyWait ≠ some x := by decide
  have storeAwake : ∀ x, store.keyWait ≠ some x := by decide
  have waitIdle : ∀ op, ¬ wait.Executes op := fun op hop ↦ by
    have hawake := hop.awake
    revert hawake
    decide
  have minusChanged : ¬ (Place.register 0xF).Kept minus minus.cycle.machine := by
    show ¬ _ = _
    decide
  have storeChanged : ¬ (Place.cell (.masked 0x301)).Kept store store.cycle.machine := by
    show ¬ _ = _
    decide
  have waitChanged : ¬ (Place.register 0x2).Kept wait wait.cycle.machine := by
    show ¬ _ = _
    decide
  refine ⟨⟨by decide, hminus, ?_⟩, ⟨by decide, hstore, ?_⟩, by decide, hwait, ?_⟩
  · exact ((cycle_writes (by decide) hminus).1 _ minusChanged).resolve_right
      fun ⟨x, hx, _⟩ ↦ minusAwake x hx
  · exact ((cycle_writes (by decide) hstore).1 _ storeChanged).resolve_right
      fun ⟨x, hx, _⟩ ↦ storeAwake x hx
  · obtain ⟨x, hx, -, hwrites⟩ := ((cycle_writes (by decide) hwait).1 _ waitChanged).resolve_left
      fun ⟨op, hop, _⟩ ↦ waitIdle op hop
    exact ⟨x, hx, hwrites⟩

end Machine

end ChipEight
