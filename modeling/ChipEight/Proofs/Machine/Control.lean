import ChipEight.Proofs.Machine.Assembly
import ChipEight.Proofs.Opcode.Table

/-!
# Where a program goes on

The program counter has moved past an instruction before it is carried out, and most instructions
leave it there. The rows `1NNN`, `2NNN`, `BNNN` and `00EE` put it somewhere else (`Row.turns`), and
six rows pass over one more instruction if what they ask holds (`Skips`).

`GoesOn` says where that is by the **rows of the instruction table**, in numbers that do not wrap. It
looks at the word, the registers, the keys that are held, the program counter and the call stack; it
knows nothing of the reading of words. It names one place and one list of return addresses for every
word, since no word is in two rows (`Opcode.row_eq_of_matches`).

A skip and its opposite ask the same question. To compare them, each is put under the program
counter of one machine (`facing`), and of the two cycles exactly one skips.

**Main statement**: `goesOn_cycle`.
-/

namespace ChipEight

namespace Row

/-- The rows of the instructions that go on elsewhere, whatever they find in the registers. -/
def turns : List Row := [word 0x00EE, kind 0x1, kind 0x2, kind 0xB]

theorem mem_table_of_mem_turns {row : Row} (h : row ∈ turns) : row ∈ table := by
  have hsub : ∀ row ∈ turns, row ∈ table := by decide
  exact hsub row h

end Row

namespace Machine

variable {m next : Machine} {op : Opcode} {signal : Signal} {w : Word} {pc : Nat}
  {frames : List UInt16}

/-- A word is a skip, and what it asks holds. -/
inductive Skips (m : Machine) (w : Word) : Prop where
  /-- `3XNN` -/
  | equalsByte (h : (Row.kind 0x3).Matches w) (same : m.registers.get w.x = w.nn)
  /-- `4XNN` -/
  | differsFromByte (h : (Row.kind 0x4).Matches w) (differs : m.registers.get w.x ≠ w.nn)
  /-- `5XY0` -/
  | equalsRegister (h : (Row.last 0x5 0x0).Matches w)
      (same : m.registers.get w.x = m.registers.get w.y)
  /-- `9XY0` -/
  | differsFromRegister (h : (Row.last 0x9 0x0).Matches w)
      (differs : m.registers.get w.x ≠ m.registers.get w.y)
  /-- `EX9E`. The key is named by the low digit, and a press that is latched is not enough. -/
  | keyHeld (h : (Row.byte 0xE 0x9E).Matches w)
      (held : m.keypad.held.has (.low (m.registers.get w.x).toNat) = true)
  /-- `EXA1` -/
  | keyReleased (h : (Row.byte 0xE 0xA1).Matches w)
      (released : m.keypad.held.has (.low (m.registers.get w.x).toNat) = false)

/-- Where a machine goes on after the word under its program counter, and with which return addresses,
the newest first. -/
inductive GoesOn (m : Machine) (w : Word) : (pc : Nat) → (frames : List UInt16) → Prop where
  /-- `1NNN` -/
  | jump (h : (Row.kind 0x1).Matches w) : GoesOn m w w.nnn.val m.stack.frames
  /-- `2NNN` leaves the address behind it. -/
  | call {back : UInt16} (h : (Row.kind 0x2).Matches w) (behind : back.toNat = m.pc.toNat + 2) :
      GoesOn m w w.nnn.val (back :: m.stack.frames)
  /-- `BNNN` wraps at the end of memory. -/
  | jumpOffset (h : (Row.kind 0xB).Matches w) :
      GoesOn m w ((w.nnn.val + (m.registers.get 0).toNat) % 4096) m.stack.frames
  /-- `00EE` -/
  | ret {back : UInt16} {frames : List UInt16} (h : (Row.word 0x00EE).Matches w)
      (top : m.stack.frames = back :: frames) : GoesOn m w back.toNat frames
  | skip (h : m.Skips w) : GoesOn m w (m.pc.toNat + 4) m.stack.frames
  /-- Every other word, a skip that does not skip and `FX0A` among them. -/
  | next (straight : ∀ row ∈ Row.turns, ¬ row.Matches w) (h : ¬ m.Skips w) :
      GoesOn m w (m.pc.toNat + 2) m.stack.frames

/-! ### Skips -/

/-- **A word skips exactly if it reads as a skip whose condition holds.** -/
theorem skips_iff (reads : Opcode.decode? w = some op) :
    m.Skips w ↔ ∃ condition : Condition, op = .skip condition ∧ condition.holds m = true := by
  have hread {condition : Condition} (h : Opcode.decode? w = some (.skip condition)) :
      op = .skip condition := Option.some.inj (reads.symm.trans h)
  constructor
  · intro h
    cases h with
    | equalsByte hrow same =>
      have h : Opcode.decode? w = some (.skip (.equalsByte w.x w.nn)) := by
        simp [Opcode.decode?, show w.kind = 0x3 from hrow]
      exact ⟨_, hread h, beq_iff_eq.2 same⟩
    | differsFromByte hrow differs =>
      have h : Opcode.decode? w = some (.skip (.differsFromByte w.x w.nn)) := by
        simp [Opcode.decode?, show w.kind = 0x4 from hrow]
      exact ⟨_, hread h, bne_iff_ne.2 differs⟩
    | equalsRegister hrow same =>
      have h : Opcode.decode? w = some (.skip (.equalsRegister w.x w.y)) := by
        simp [Opcode.decode?, hrow.1, hrow.2]
      exact ⟨_, hread h, beq_iff_eq.2 same⟩
    | differsFromRegister hrow differs =>
      have h : Opcode.decode? w = some (.skip (.differsFromRegister w.x w.y)) := by
        simp [Opcode.decode?, hrow.1, hrow.2]
      exact ⟨_, hread h, bne_iff_ne.2 differs⟩
    | keyHeld hrow held =>
      have h : Opcode.decode? w = some (.skip (.keyHeld w.x)) := by
        simp [Opcode.decode?, hrow.1, hrow.2, Opcode.keyInstruction?]
      exact ⟨_, hread h, held⟩
    | keyReleased hrow released =>
      have h : Opcode.decode? w = some (.skip (.keyReleased w.x)) := by
        simp [Opcode.decode?, hrow.1, hrow.2, Opcode.keyInstruction?]
      exact ⟨_, hread h, (Bool.not_eq_true' _).mpr released⟩
  · rintro ⟨condition, rfl, holds⟩
    have hrow := Opcode.matches_row_of_decode? reads
    have hword := Opcode.decode?_eq_some_iff.1 reads
    cases condition with
    | equalsByte x nn =>
      have hx : w.x = x := hword ▸ (Word.fields_ofByte 0x3 x nn).2.1
      have hnn : w.nn = nn := hword ▸ (Word.fields_ofByte 0x3 x nn).2.2
      exact .equalsByte hrow (by rw [hx, hnn]; exact beq_iff_eq.1 holds)
    | differsFromByte x nn =>
      have hx : w.x = x := hword ▸ (Word.fields_ofByte 0x4 x nn).2.1
      have hnn : w.nn = nn := hword ▸ (Word.fields_ofByte 0x4 x nn).2.2
      exact .differsFromByte hrow (by rw [hx, hnn]; exact bne_iff_ne.1 holds)
    | equalsRegister x y =>
      have hx : w.x = x := hword ▸ (Word.fields_ofDigits 0x5 x y 0).2.1
      have hy : w.y = y := hword ▸ (Word.fields_ofDigits 0x5 x y 0).2.2.1
      exact .equalsRegister hrow (by rw [hx, hy]; exact beq_iff_eq.1 holds)
    | differsFromRegister x y =>
      have hx : w.x = x := hword ▸ (Word.fields_ofDigits 0x9 x y 0).2.1
      have hy : w.y = y := hword ▸ (Word.fields_ofDigits 0x9 x y 0).2.2.1
      exact .differsFromRegister hrow (by rw [hx, hy]; exact bne_iff_ne.1 holds)
    | keyHeld x =>
      have hx : w.x = x := hword ▸ (Word.fields_ofByte 0xE x 0x9E).2.1
      exact .keyHeld hrow (by rw [hx]; exact holds)
    | keyReleased x =>
      have hx : w.x = x := hword ▸ (Word.fields_ofByte 0xE x 0xA1).2.1
      exact .keyReleased hrow (by rw [hx]; exact (Bool.not_eq_true' _).mp holds)

/-- Stepping over an instruction is not noticed by what a skip asks. -/
theorem holds_stepOver (condition : Condition) : condition.holds m.stepOver = condition.holds m := by
  cases condition <;> rfl

/-! ### Instructions -/

/-- An instruction that neither turns nor skips leaves the program counter and the call stack alone. -/
theorem pc_of_execute (straight : op.row ∉ Row.turns)
    (passes : ∀ condition : Condition, op = .skip condition → condition.holds m ≠ true)
    (h : m.execute op = .ok (signal, next)) : next.pc = m.pc ∧ next.stack = m.stack := by
  cases op with
  | ret | jump | jumpOffset | call => exact absurd (by simp [Opcode.row, Row.turns]) straight
  | skip condition =>
    obtain ⟨-, rfl⟩ := Prod.mk.inj (Except.ok.inj h)
    rw [if_neg (passes condition rfl)]
    exact ⟨rfl, rfl⟩
  -- These ask something of the machine first, and `h` says that they got an answer.
  | draw | storeDecimal | storeRegisters | loadRegisters =>
    obtain ⟨_, haccess, h⟩ := map_eq_ok_iff.1 h
    obtain ⟨-, rfl⟩ := Prod.mk.inj h
    obtain ⟨_, -, rfl⟩ := map_eq_ok_iff.1 haccess
    exact ⟨rfl, rfl⟩
  | clearScreen | setByte | addByte | arithmetic | random | setIndex | addIndex | pointGlyph
  | awaitKey | readDelay | setDelay | setSound =>
    obtain ⟨-, rfl⟩ := Prod.mk.inj (Except.ok.inj h)
    exact ⟨rfl, rfl⟩

/-- Where the table says that a machine goes on, it does. -/
theorem GoesOn.eq_of_execute (hop : m.Executes op) (done : m.stepOver.execute op = .ok (signal, next))
    (h : m.GoesOn m.current pc frames) :
    next.pc.toNat = pc ∧ next.stack = { m.stack with frames } := by
  have hread {o : Opcode} (h : Opcode.decode? m.current = some o) : op = o :=
    Option.some.inj (hop.reads.symm.trans h)
  cases h with
  | jump hrow =>
    obtain rfl := hread (o := .jump m.current.nnn) (by
      simp [Opcode.decode?, show m.current.kind = 0x1 from hrow])
    obtain ⟨-, rfl⟩ := Prod.mk.inj (Except.ok.inj done)
    exact ⟨m.current.nnn.toNat_toWord, rfl⟩
  | call hrow behind =>
    obtain rfl := hread (o := .call m.current.nnn) (by
      simp [Opcode.decode?, show m.current.kind = 0x2 from hrow])
    obtain ⟨stack, hpush, hnext⟩ := map_eq_ok_iff.1 done
    obtain ⟨-, rfl⟩ := Prod.mk.inj hnext
    obtain ⟨-, rfl⟩ := CallStack.push_eq_ok_iff.1 hpush
    obtain rfl := UInt16.toNat_inj.1 (behind.trans hop.toNat_pc_add_two.symm)
    exact ⟨m.current.nnn.toNat_toWord, rfl⟩
  | jumpOffset hrow =>
    obtain rfl := hread (o := .jumpOffset m.current.nnn) (by
      simp [Opcode.decode?, show m.current.kind = 0xB from hrow])
    obtain ⟨-, rfl⟩ := Prod.mk.inj (Except.ok.inj done)
    exact ⟨(m.current.nnn.advance (m.registers.get 0).toNat).toNat_toWord, rfl⟩
  | ret hrow top =>
    obtain rfl := hread (o := .ret) (by rw [show m.current = 0x00EE from hrow]; rfl)
    obtain ⟨⟨back', stack⟩, hpop, hnext⟩ := map_eq_ok_iff.1 done
    obtain ⟨-, rfl⟩ := Prod.mk.inj hnext
    obtain ⟨hframes, hdepth⟩ := CallStack.pop_eq_ok_iff.1 hpop
    obtain ⟨rfl, rfl⟩ := List.cons.inj (top.symm.trans hframes)
    exact ⟨rfl, congrArg (CallStack.mk · stack.frames) hdepth⟩
  | skip hskip =>
    obtain ⟨condition, rfl, holds⟩ := (skips_iff hop.reads).1 hskip
    obtain ⟨-, rfl⟩ := Prod.mk.inj (Except.ok.inj done)
    rw [if_pos ((holds_stepOver condition).trans holds)]
    have hpc := hop.toNat_pc_add_two
    have hfits := hop.fits
    have hsize : Memory.size = 4096 := rfl
    refine ⟨?_, rfl⟩
    show (m.pc + 2 + 2).toNat = m.pc.toNat + 4
    rw [toNat_add_two (by omega), hpc]
  | next straight hskip =>
    have hrow := Opcode.matches_row_of_decode? hop.reads
    obtain ⟨hpc, hstack⟩ := pc_of_execute (fun hmem ↦ straight _ hmem hrow)
      (fun condition hop' holds ↦ hskip ((skips_iff hop.reads).2
        ⟨condition, hop', (holds_stepOver condition).symm.trans holds⟩)) done
    rw [hpc, hstack]
    exact ⟨hop.toNat_pc_add_two, rfl⟩

/-- The table says of every instruction that is carried out where the machine goes on. -/
theorem exists_goesOn (hop : m.Executes op) (done : m.stepOver.execute op = .ok (signal, next)) :
    ∃ pc frames, m.GoesOn m.current pc frames := by
  have hrow := Opcode.matches_row_of_decode? hop.reads
  by_cases hturn : op.row ∈ Row.turns
  · simp only [Row.turns, List.mem_cons, List.not_mem_nil, or_false] at hturn
    rcases hturn with h | h | h | h <;> rw [h] at hrow
    · -- A return was carried out, so there was a frame to return to.
      obtain rfl : op = .ret := Option.some.inj (hop.reads.symm.trans (by
        rw [show m.current = 0x00EE from hrow]; rfl))
      obtain ⟨⟨back, stack⟩, hpop, -⟩ := map_eq_ok_iff.1 done
      exact ⟨_, _, .ret hrow (CallStack.pop_eq_ok_iff.1 hpop).1⟩
    · exact ⟨_, _, .jump hrow⟩
    · exact ⟨_, _, .call hrow hop.toNat_pc_add_two⟩
    · exact ⟨_, _, .jumpOffset hrow⟩
  · by_cases hskip : m.Skips m.current
    · exact ⟨_, _, .skip hskip⟩
    · refine ⟨_, _, .next (fun row hmem hmatches ↦ hturn ?_) hskip⟩
      rwa [Opcode.row_eq_of_matches hop.reads (Row.mem_table_of_mem_turns hmem) hmatches]

/-- **An instruction that is carried out goes on where the table says, and nowhere else.** -/
theorem goesOn_iff_of_execute (hop : m.Executes op)
    (done : m.stepOver.execute op = .ok (signal, next)) :
    m.GoesOn m.current pc frames ↔ next.pc.toNat = pc ∧ next.stack = { m.stack with frames } := by
  refine ⟨fun h ↦ h.eq_of_execute hop done, fun ⟨hpc, hstack⟩ ↦ ?_⟩
  obtain ⟨pc', frames', h⟩ := exists_goesOn hop done
  obtain ⟨hpc', hstack'⟩ := h.eq_of_execute hop done
  obtain rfl : pc' = pc := hpc'.symm.trans hpc
  obtain rfl : frames' = frames :=
    congrArg CallStack.frames (hstack'.symm.trans hstack)
  exact h

/-! ### A skip and its opposite -/

/-- The machine with a word put under its program counter. -/
def facing (m : Machine) (w : Word) : Machine :=
  { m with memory := m.memory.place m.pc.toNat w.bytes }

/-- A machine that faces the word of an instruction carries it out next. -/
theorem executes_facing (running : m.fault = none) (awake : m.keyWait = none)
    (fits : m.pc.toNat + 2 ≤ Memory.size) (op : Opcode) : (m.facing op.encode).Executes op :=
  ⟨running, awake, fits, (congrArg Opcode.decode? (m.memory.word_place_bytes op.encode fits)).trans
    op.decode?_encode⟩

/-- **A machine that faces a skip skips exactly if its condition holds.** -/
theorem pc_facing_skip_iff (running : m.fault = none) (awake : m.keyWait = none)
    (fits : m.pc.toNat + 2 ≤ Memory.size) (condition : Condition) :
    (m.facing (Opcode.skip condition).encode).cycle.machine.pc.toNat = m.pc.toNat + 4 ↔
      condition.holds m = true := by
  have hop := executes_facing running awake fits (.skip condition)
  have hholds : condition.holds (m.facing (Opcode.skip condition).encode).stepOver =
      condition.holds m := by cases condition <;> rfl
  have hsize : Memory.size = 4096 := rfl
  have hpc : (m.pc + 2).toNat = m.pc.toNat + 2 := toNat_add_two (by omega)
  rw [hop.cycle_of_execute rfl]
  simp only [hholds]
  split
  · rename_i holds
    refine iff_of_true ?_ holds
    show (m.pc + 2 + 2).toNat = m.pc.toNat + 4
    rw [toNat_add_two (by omega), hpc]
  · rename_i holds
    refine iff_of_false ?_ holds
    show (m.pc + 2).toNat ≠ m.pc.toNat + 4
    omega

/-! ### Cycles -/

/-- **Where a program goes on.** If a machine that neither halted nor waits makes a cycle that succeeds,
the program counter and the return addresses afterwards are those that the instruction table gives for
the word under it, and no others. On such a machine with room for a word under its program counter,
exactly one of `3XNN` and `4XNN` skips, of `5XY0` and `9XY0`, and of `EX9E` and `EXA1`. -/
theorem goesOn_cycle (running : m.fault = none) (awake : m.keyWait = none) :
    (∀ signal, m.cycle.outcome = .ok signal → ∀ pc frames,
      m.GoesOn m.current pc frames ↔
        m.cycle.machine.pc.toNat = pc ∧ m.cycle.machine.stack = { m.stack with frames }) ∧
      (m.pc.toNat + 2 ≤ Memory.size →
        let skips w := (m.facing w).cycle.machine.pc.toNat = m.pc.toNat + 4
        ∀ (x y : Digit) (nn : UInt8),
          (skips (.ofByte 0x3 x nn) ↔ ¬ skips (.ofByte 0x4 x nn)) ∧
            (skips (.ofDigits 0x5 x y 0x0) ↔ ¬ skips (.ofDigits 0x9 x y 0x0)) ∧
              (skips (.ofByte 0xE x 0x9E) ↔ ¬ skips (.ofByte 0xE x 0xA1))) := by
  refine ⟨fun signal done pc frames ↦ ?_, fun fits ↦ ?_⟩
  · cases m.beat with
    | halted halted _ => rw [running] at halted; cases halted
    | polled _ waiting _ => rw [awake] at waiting; cases waiting
    | unfetched _ _ _ result | unread _ _ _ _ result | refused _ _ result =>
      rw [result] at done
      cases done
    | done hop hdone result =>
      rw [result]
      exact goesOn_iff_of_execute hop hdone
  · intro skips x y nn
    have hskips (condition : Condition) :
        skips (Opcode.skip condition).encode ↔ condition.holds m = true :=
      pc_facing_skip_iff running awake fits condition
    -- The two conditions of a pair are the two answers to one question.
    have hopposite (c d : Condition) (h : d.holds m = !c.holds m) :
        skips (Opcode.skip c).encode ↔ ¬ skips (Opcode.skip d).encode := by
      rw [hskips, hskips, h]
      cases c.holds m <;> decide
    exact ⟨hopposite (.equalsByte x nn) (.differsFromByte x nn) rfl,
      hopposite (.equalsRegister x y) (.differsFromRegister x y) rfl,
      hopposite (.keyHeld x) (.keyReleased x) rfl⟩

/-- A program writes a skip into the last two cells of memory and goes there: it goes on past the end.
Another one jumps by an offset that wraps, and a third asks for the key that `1A` names, which is A. At
the last word of memory the skips of `3040` and `4040` exclude each other. -/
theorem skip_at_end_and_offset_and_key :
    let m := (powerOn .usual (.ofSeed 0)).run
      [.load [0x60, 0x40, 0x61, 0x00, 0xAF, 0xFE, 0xF1, 0x55, 0x1F, 0xFE],
        .cycle, .cycle, .cycle, .cycle, .cycle]
    let offset := (powerOn .usual (.ofSeed 0)).run [.load [0x60, 0x40, 0xBF, 0xF0], .cycle]
    let key := (powerOn .usual (.ofSeed 0)).run [.load [0x61, 0x1A, 0xE1, 0x9E], .cycle, .key 0xA true]
    (m.fault = none ∧ m.keyWait = none ∧ m.cycle.outcome = .ok .proceed ∧
      m.GoesOn m.current 0x1002 [] ∧ m.cycle.machine.pc.toNat = 0x1002) ∧
      (offset.fault = none ∧ offset.keyWait = none ∧ offset.cycle.outcome = .ok .proceed ∧
        offset.GoesOn offset.current 0x030 [] ∧ offset.cycle.machine.pc.toNat = 0x030) ∧
        (key.fault = none ∧ key.keyWait = none ∧ key.cycle.outcome = .ok .proceed ∧
          key.GoesOn key.current 0x206 [] ∧ key.cycle.machine.pc.toNat = 0x206) ∧
          m.pc.toNat + 2 ≤ Memory.size ∧
            ((m.facing (.ofByte 0x3 0x0 0x40)).cycle.machine.pc.toNat = m.pc.toNat + 4 ↔
              ¬ (m.facing (.ofByte 0x4 0x0 0x40)).cycle.machine.pc.toNat = m.pc.toNat + 4) := by
  intro m offset key
  have hm : m.cycle.outcome = .ok .proceed := by unfold m; rfl
  have hoffset : offset.cycle.outcome = .ok .proceed := by unfold offset; rfl
  have hkey : key.cycle.outcome = .ok .proceed := by unfold key; rfl
  have hskip : m.GoesOn m.current 0x1002 [] := .skip (.differsFromByte (by decide) (by decide))
  have hwraps : offset.GoesOn offset.current 0x030 [] := by
    have hsum : (offset.current.nnn.val + (offset.registers.get 0x0).toNat) % 4096 = 0x030 := by decide
    rw [← hsum]
    exact .jumpOffset (by decide)
  have hheld : key.GoesOn key.current 0x206 [] := .skip (.keyHeld (by decide) (by decide))
  have hpair := (goesOn_cycle (m := m) (by decide) (by decide)).2 (by decide) 0x0 0x0 0x40
  exact ⟨⟨by decide, by decide, hm, hskip,
      (((goesOn_cycle (by decide) (by decide)).1 _ hm _ _).1 hskip).1⟩,
    ⟨by decide, by decide, hoffset, hwraps,
      (((goesOn_cycle (by decide) (by decide)).1 _ hoffset _ _).1 hwraps).1⟩,
    ⟨by decide, by decide, hkey, hheld,
      (((goesOn_cycle (by decide) (by decide)).1 _ hkey _ _).1 hheld).1⟩, by decide, hpair.1⟩

end Machine

end ChipEight
