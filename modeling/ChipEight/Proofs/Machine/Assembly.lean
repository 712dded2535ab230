import ChipEight.Proofs.Machine.Moments

/-!
# Assembled programs

A program is **assembled** by writing the words of its instructions one behind the other, the high byte
of each word first. Loading it puts the word of instruction `k` at `0x200 + 2 * k`, which is where a
machine that has come that far fetches it and reads it back as that instruction. There is room for
1792 instructions, and the word of the last of them ends where memory ends.

An instruction is **straight** if it only computes: it cannot fail, it neither jumps, skips nor waits,
and it writes no memory. A straight program is thus still in memory when it comes to its last
instruction, and each cycle finds the next word of it. So to run such a program is to carry out its
list of instructions, without fetching or reading anything (`carryOut_of_holds`).

**Main statement**: `assembled_program_runs`.
-/

namespace ChipEight

/-! ### Words as bytes -/

namespace Word

/-- The first two digits. -/
def high (w : Word) : UInt8 := UInt8.ofNat (w.toNat / 256)

/-- The bytes of a word, the high one first. -/
def bytes (w : Word) : List UInt8 := [w.high, w.nn]

theorem toNat_high (w : Word) : w.high.toNat = w.toNat / 256 := by
  have := w.toNat_lt
  simp only [high, UInt8.toNat_ofNat']
  omega

/-- **A word is its two bytes.** -/
theorem ofNat_bytes (w : Word) : UInt16.ofNat (256 * w.high.toNat + w.nn.toNat) = w := by
  have := w.toNat_lt
  refine UInt16.toNat_inj.1 ?_
  rw [UInt16.toNat_ofNat', toNat_high, toNat_nn]
  omega

end Word

namespace Opcode

/-- A program as bytes: the words of its instructions, one behind the other. -/
def assemble (program : List Opcode) : List UInt8 := program.flatMap fun op ↦ op.encode.bytes

theorem assemble_cons (op : Opcode) (program : List Opcode) :
    assemble (op :: program) = op.encode.high :: op.encode.nn :: assemble program := rfl

theorem length_assemble (program : List Opcode) :
    (assemble program).length = 2 * program.length := by
  induction program with
  | nil => rfl
  | cons op program ih =>
    rw [assemble_cons, List.length_cons, List.length_cons, List.length_cons, ih]
    omega

/-- A word reads as nothing exactly if it is the word of no instruction. -/
theorem decode?_eq_none_iff_encode_ne {w : Word} : decode? w = none ↔ ∀ op, encode op ≠ w := by
  rw [Option.eq_none_iff_forall_ne_some]
  exact forall_congr' fun op ↦ not_congr decode?_eq_some_iff

/-- Whatever a word reads as, an instruction or nothing, is written as that word. -/
theorem elim_decode? (w : Word) : (decode? w).elim w encode = w := by
  rcases h : decode? w with - | op
  · rfl
  · exact decode?_eq_some_iff.1 h

end Opcode

/-! ### Programs in memory -/

namespace Memory

/-- The words of a program stand in memory from an address on. -/
def Holds (m : Memory) : Nat → List Opcode → Prop
  | _, [] => True
  | a, op :: program => m.word a = op.encode ∧ m.Holds (a + 2) program

variable {m : Memory} {a : Nat} {program : List Opcode}

/-- Where the bytes of a word are placed, that word stands. -/
theorem word_place_bytes (m : Memory) (w : Word) (hend : a + 2 ≤ size) :
    (m.place a w.bytes).word a = w := by
  have hbyte : ∀ c, a ≤ c → c < a + 2 → (m.place a w.bytes).cell c = w.bytes.getD (c - a) 0 :=
    fun c hlow hhigh ↦
      (m.cell_place a w.bytes hend (by omega)).trans (if_pos ⟨hlow, hhigh⟩)
  rw [word, hbyte a (Nat.le_refl a) (by omega), hbyte (a + 1) (by omega) (by omega), Nat.sub_self,
    Nat.add_sub_cancel_left]
  exact w.ofNat_bytes

/-- Instruction `k` of a program stands `2 * k` cells behind the first one. -/
theorem Holds.word_eq (h : m.Holds a program) {k : Nat} (hk : k < program.length) :
    m.word (a + 2 * k) = program[k].encode := by
  induction program generalizing a k with
  | nil => cases hk
  | cons op program ih =>
    cases k with
    | zero => exact h.1
    | succ k =>
      rw [show a + 2 * (k + 1) = a + 2 + 2 * k by omega]
      exact ih h.2 (Nat.lt_of_succ_lt_succ hk)

/-- **Where an assembled program is placed, its words stand.** -/
theorem holds_place_assemble (m : Memory) (hend : a + 2 * program.length ≤ size) :
    (m.place a (Opcode.assemble program)).Holds a program := by
  induction program generalizing m a with
  | nil => trivial
  | cons op program ih =>
    rw [List.length_cons] at hend
    -- The first word is placed, and then the others behind it, which leave it alone.
    let first := m.place a op.encode.bytes
    have hplace : m.place a (Opcode.assemble (op :: program)) =
        first.place (a + 2) (Opcode.assemble program) := rfl
    have hrest : a + 2 + (Opcode.assemble program).length ≤ size := by
      rw [Opcode.length_assemble]
      omega
    have hkept : (first.place (a + 2) (Opcode.assemble program)).word a = first.word a := by
      rw [word, word, cell_place_of_lt hrest (by omega), cell_place_of_lt hrest (by omega)]
    rw [hplace]
    exact ⟨hkept.trans (m.word_place_bytes _ (by omega)), ih first (by omega)⟩

end Memory

/-! ### Straight programs -/

/-- Whether an instruction only computes: `00E0`, `6XNN`, `7XNN`, `8XYN`, `ANNN`, `CXNN`, `FX07`,
`FX15`, `FX18`, `FX1E` or `FX29`. -/
def Opcode.isStraight : Opcode → Bool
  | clearScreen | setByte .. | addByte .. | arithmetic .. | setIndex _ | random .. | readDelay _
  | setDelay _ | setSound _ | addIndex _ | pointGlyph _ => true
  | ret | jump _ | jumpOffset _ | call _ | skip _ | draw .. | awaitKey _ | storeDecimal _
  | storeRegisters _ | loadRegisters _ => false

namespace Machine

variable {m : Machine} {op : Opcode} {program : List Opcode}

/-- Carry out instructions one after the other, the program counter moving past each of them. Nothing
is fetched. The signals are listed in order. -/
def carryOut (m : Machine) : List Opcode → Except Fault (List Signal × Machine)
  | [] => .ok ([], m)
  | op :: program =>
    match m.stepOver.execute op with
    | .error fault => .error fault
    | .ok (signal, next) =>
      (next.carryOut program).map fun (signals, last) ↦ (signal :: signals, last)

/-- **A straight instruction only computes**, on every machine. -/
theorem exists_execute_of_isStraight (m : Machine) (h : op.isStraight = true) :
    ∃ signal display registers index timers generator,
      m.execute op = .ok (signal, { m with display, registers, index, timers, generator }) := by
  cases op with
  | clearScreen | setByte | addByte | arithmetic | setIndex | random | readDelay | setDelay
  | setSound | addIndex | pointGlyph => exact ⟨_, _, _, _, _, _, rfl⟩
  | ret | jump | jumpOffset | call | skip | draw | awaitKey | storeDecimal | storeRegisters
  | loadRegisters => cases h

/-- **To run a straight program is to carry out its instructions**, wherever in memory it stands. -/
theorem carryOut_of_holds (running : m.fault = none) (awake : m.keyWait = none)
    (holds : m.memory.Holds m.pc.toNat program)
    (fits : m.pc.toNat + 2 * program.length ≤ Memory.size)
    (straight : ∀ op ∈ program, op.isStraight = true) :
    let cycles := List.replicate program.length Event.cycle
    ∃ signals, m.carryOut program = .ok (signals, m.run cycles) ∧
      m.outcomes cycles = signals.map .ok := by
  induction program generalizing m with
  | nil => exact ⟨[], rfl, rfl⟩
  | cons op program ih =>
    rw [List.length_cons] at fits ⊢
    obtain ⟨hop, hrest⟩ := List.forall_mem_cons.1 straight
    have hfits : m.pc.toNat + 2 ≤ Memory.size := by omega
    have hexecutes : m.Executes op :=
      ⟨running, awake, hfits, Opcode.decode?_eq_some_iff.2 holds.1.symm⟩
    obtain ⟨signal, display, registers, index, timers, generator, hdone⟩ :=
      m.stepOver.exists_execute_of_isStraight hop
    let next : Machine := { m.stepOver with display, registers, index, timers, generator }
    have hcycle : m.cycle = ⟨.ok signal, [.fetched m.pc m.current (some op)], next⟩ :=
      hexecutes.cycle_of_execute hdone
    -- The next machine stands at the next word of the same program in the same memory.
    have hpc : next.pc.toNat = m.pc.toNat + 2 := hexecutes.toNat_pc_add_two
    obtain ⟨signals, hcarry, houtcomes⟩ := ih (m := next) running awake
      (by rw [hpc]; exact holds.2) (by rw [hpc]; omega) hrest
    have happly : m.apply .cycle = next := congrArg Cycle.machine hcycle
    have houtcome : Moment.outcome? ⟨m, .cycle⟩ = some (.ok signal) := by
      show some m.cycle.outcome = _
      rw [hcycle]
    refine ⟨signal :: signals, ?_, ?_⟩
    · rw [List.replicate_succ, run_cons, happly, carryOut, hdone]
      exact congrArg (Except.map _) hcarry
    · rw [List.replicate_succ, outcomes_cons, happly, houtcome, houtcomes]
      rfl

/-- **What is assembled is loaded, fetched and read back, and runs as it is written.** Reading and
writing are inverse, and a word reads as nothing exactly if it is the word of no instruction. Every
machine takes an assembled program of up to 1792 instructions, and what it then fetches and reads at
`0x200 + 2 * k` is instruction `k`, be it there for a look or to carry it out. If the instructions are
straight, as many cycles leave the machine that carrying them out in order leaves, and come to the same
signals. -/
theorem assembled_program_runs :
    (∀ w : Word, (Opcode.decode? w).elim w Opcode.encode = w ∧
      (Opcode.decode? w = none ↔ ∀ op, Opcode.encode op ≠ w)) ∧
      (∀ op : Opcode, Opcode.decode? op.encode = some op) ∧
        ∀ (m : Machine) (p : List Opcode), p.length ≤ 1792 →
          ∃ loaded, m.load (Opcode.assemble p) = .ok loaded ∧
            (∀ (k : Nat) (hk : k < p.length),
              (loaded.memory.fetch (0x200 + 2 * k)).map Opcode.decode? = .ok (some p[k]) ∧
                { loaded with pc := UInt16.ofNat (0x200 + 2 * k) }.Executes p[k]) ∧
              ((∀ op ∈ p, op.isStraight = true) →
                let cycles := List.replicate p.length Event.cycle
                ∃ signals, loaded.carryOut p = .ok (signals, loaded.run cycles) ∧
                  loaded.outcomes cycles = signals.map .ok) := by
  refine ⟨fun w ↦ ⟨Opcode.elim_decode? w, Opcode.decode?_eq_none_iff_encode_ne⟩,
    Opcode.decode?_encode, fun m p hlength ↦ ?_⟩
  have hsize : Memory.size = 4096 := rfl
  have hfits : (Opcode.assemble p).length ≤ Memory.capacity := by
    rw [Opcode.length_assemble]
    show 2 * p.length ≤ 3584
    omega
  have holds : (Memory.powerOn.place 0x200 (Opcode.assemble p)).Holds 0x200 p :=
    Memory.powerOn.holds_place_assemble (by omega)
  refine ⟨_, m.load_of_fits hfits, fun k hk ↦ ?_, fun straight ↦ ?_⟩
  · have hend : 0x200 + 2 * k + 2 ≤ Memory.size := by omega
    have hread : Opcode.decode? ((Memory.powerOn.place 0x200 (Opcode.assemble p)).word
        (0x200 + 2 * k)) = some p[k] :=
      Opcode.decode?_eq_some_iff.2 (holds.word_eq hk).symm
    have hpc : (UInt16.ofNat (0x200 + 2 * k)).toNat = 0x200 + 2 * k := by
      rw [UInt16.toNat_ofNat']
      omega
    refine ⟨?_, rfl, rfl, ?_, ?_⟩
    · rw [Memory.fetch_eq_ok_iff.2 ⟨hend, rfl⟩]
      exact congrArg Except.ok hread
    · rwa [hpc]
    · rwa [current, hpc]
  · exact carryOut_of_holds rfl rfl holds (by show 0x200 + 2 * p.length ≤ Memory.size; omega) straight

/-- The longest program there is room for, of one addition all the way to the last byte of memory, is
given to a machine that has halted. Its last instruction is found at `0xFFE`, and all of it runs. -/
theorem additions_fill_memory :
    let m := (powerOn .usual (.ofSeed 0)).run [.cycle]
    let p := List.replicate 1792 (Opcode.addByte 0x3 0x02)
    m.fault ≠ none ∧ p.length ≤ 1792 ∧ (∀ op ∈ p, op.isStraight = true) ∧
      ∃ loaded, m.load (Opcode.assemble p) = .ok loaded ∧
        (loaded.memory.fetch 0xFFE).map Opcode.decode? = .ok (some (.addByte 0x3 0x02)) ∧
          ∃ signals, loaded.carryOut p = .ok (signals, loaded.run (List.replicate 1792 .cycle)) := by
  intro m p
  have hlength : p.length = 1792 := List.length_replicate
  have hstraight : ∀ op ∈ p, op.isStraight = true :=
    List.forall_mem_replicate.2 (.inr rfl)
  obtain ⟨loaded, hload, hfetch, hrun⟩ := assembled_program_runs.2.2 m p (Nat.le_of_eq hlength)
  obtain ⟨signals, hcarry, -⟩ := hrun hstraight
  have hlast := (hfetch 1791 (by rw [hlength]; decide)).1
  rw [List.getElem_replicate] at hlast
  rw [hlength] at hcarry
  exact ⟨by decide, Nat.le_of_eq hlength, hstraight, loaded, hload, hlast, signals, hcarry⟩

end Machine

end ChipEight
