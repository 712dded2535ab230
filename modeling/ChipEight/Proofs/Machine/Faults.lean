import ChipEight.Proofs.Machine.Soundness
import ChipEight.Proofs.Opcode.Table

/-!
# When a cycle fails

A machine that waits for a key makes no failing cycle. Otherwise the word under the program counter,
the call stack and the index register decide whether the next cycle fails, and with which fault;
neither the contents of memory beyond that word nor the registers have a say in it.

`Breach` lists what can be wrong with a word by the **rows of the instruction table**, in the numbers the
table is documented with. It mentions neither the reading of words nor the carrying out of
instructions, and its cases exclude each other: an index register below the program area is far from
the end of memory.

**Main statement**: `run_powerOn_outcome`, in both directions for every fault.
-/

namespace ChipEight

namespace Machine

variable {m : Machine} {config : Config} {op : Opcode} {fault : Fault}

/-- What can be wrong with a word that is to be carried out on a machine. -/
inductive Breach (m : Machine) (w : Word) : Fault → Prop where
  /-- No row of the table matches. -/
  | unknown (h : ∀ row ∈ Row.table, ¬ row.Matches w) : Breach m w (.invalidInstruction w)
  /-- `2NNN` with a full call stack. -/
  | callFull (h : (Row.kind 0x2).Matches w) (full : m.stack.frames.length = m.config.stackDepth) :
      Breach m w (.stackOverflow m.config.stackDepth)
  /-- `00EE` with an empty call stack. -/
  | returnEmpty (h : (Row.word 0x00EE).Matches w) (empty : m.stack.frames = []) :
      Breach m w .stackUnderflow
  /-- `FX33` or `FX55` below the program area. -/
  | storeReserved (h : (Row.byte 0xF 0x33).Matches w ∨ (Row.byte 0xF 0x55).Matches w)
      (low : m.index.val < 0x200) : Breach m w (.reservedAddress m.index.val)
  /-- `FX33` with a digit past the end of memory. -/
  | decimalPastEnd (h : (Row.byte 0xF 0x33).Matches w) (past : 0x1000 < m.index.val + 3) :
      Breach m w (.addressOutOfRange 0x1000)
  /-- `FX55` or `FX65` with a register past the end of memory. -/
  | registersPastEnd (h : (Row.byte 0xF 0x55).Matches w ∨ (Row.byte 0xF 0x65).Matches w)
      (past : 0x1000 < m.index.val + w.x.val + 1) : Breach m w (.addressOutOfRange 0x1000)
  /-- `DXYN` with a row past the end of memory, on the screen or not. -/
  | spritePastEnd (h : (Row.kind 0xD).Matches w) (past : 0x1000 < m.index.val + w.n.val) :
      Breach m w (.addressOutOfRange 0x1000)

/-- What the next cycle of a machine that runs and does not wait fails for. -/
inductive FaultDue (m : Machine) : Fault → Prop where
  /-- The word to fetch is not wholly in memory. -/
  | fetch (h : 0xFFE < m.pc.toNat) : FaultDue m (.addressOutOfRange m.pc.toNat)
  | instruction {fault : Fault} (fits : m.pc.toNat ≤ 0xFFE) (h : Breach m m.current fault) :
      FaultDue m fault

/-! ### A failing cycle had something wrong -/

/-- The index register is an address, so the end of memory is the first cell past every range that
runs past it. -/
theorem max_index_size (m : Machine) : max m.index.val Memory.size = 0x1000 :=
  Nat.max_eq_right (Nat.le_of_lt m.index.isLt)

/-- On a sound machine an instruction is refused only for a breach of its word. -/
theorem Sound.breach_of_refusal (h : Sound config m) (hop : m.Executes op)
    (refusal : Refusal m.stepOver op fault) : Breach m m.current fault := by
  have hrow : op.row.Matches m.current := Opcode.matches_row_of_decode? hop.reads
  have hword : op.encode = m.current := Opcode.decode?_eq_some_iff.1 hop.reads
  cases refusal with
  | ret hempty => exact .returnEmpty hrow hempty
  | call hfull =>
    have hroom : m.stack.frames.length ≤ m.config.stackDepth := h.config_eq ▸ h.length_frames_le
    have hfull : ¬ m.stack.frames.length < m.stack.depth := hfull
    show Breach m m.current (.stackOverflow m.stack.depth)
    rw [h.depth_eq_config] at hfull ⊢
    exact .callFull hrow (by omega)
  | @draw x y n _ hslice =>
    obtain ⟨hend, rfl⟩ := Memory.slice_eq_error_iff.1 hslice
    have hn : m.current.n = n := hword ▸ (Word.fields_ofDigits 0xD x y n).2.2.2
    rw [max_index_size]
    exact .spritePastEnd hrow (by rw [hn]; exact Nat.lt_of_not_le hend)
  | @loadRegisters x _ hslice =>
    obtain ⟨hend, rfl⟩ := Memory.slice_eq_error_iff.1 hslice
    have hx : m.current.x = x := hword ▸ (Word.fields_ofByte 0xF x 0x65).2.1
    rw [max_index_size]
    exact .registersPastEnd (.inr hrow) (by rw [hx]; exact Nat.lt_of_not_le hend)
  | @storeDecimal x _ hwrite =>
    obtain ⟨hlow, rfl⟩ | ⟨-, hend, rfl⟩ := Memory.write_eq_error_iff.1 hwrite
    · exact .storeReserved (.inl hrow) hlow
    · rw [max_index_size]
      exact .decimalPastEnd hrow (Nat.lt_of_not_le hend)
  | @storeRegisters x _ hwrite =>
    obtain ⟨hlow, rfl⟩ | ⟨-, hend, rfl⟩ := Memory.write_eq_error_iff.1 hwrite
    · exact .storeReserved (.inr hrow) hlow
    · have hx : m.current.x = x := hword ▸ (Word.fields_ofByte 0xF x 0x55).2.1
      rw [Registers.length_upTo] at hend
      rw [max_index_size]
      exact .registersPastEnd (.inl hrow) (by rw [hx]; exact Nat.lt_of_not_le hend)

/-- **A cycle of a sound machine that has not halted fails only for a fault that is due.** -/
theorem Sound.faultDue_of_outcome (h : Sound config m) (running : m.fault = none)
    (failed : m.cycle.outcome = .error fault) : FaultDue m fault := by
  have hsize : Memory.size = 0x1000 := rfl
  cases m.beat with
  | halted halted _ => rw [running] at halted; cases halted
  | polled _ _ result => rw [result] at failed; cases failed
  | unfetched _ _ hpc result =>
    rw [result] at failed
    obtain rfl := Except.error.inj failed
    exact .fetch (by omega)
  | unread _ _ fits reads result =>
    rw [result] at failed
    obtain rfl := Except.error.inj failed
    exact .instruction (by omega) (.unknown (Opcode.decode?_eq_none_iff.1 reads))
  | refused hop refusal result =>
    rw [result] at failed
    obtain rfl := Except.error.inj failed
    have := hop.fits
    exact .instruction (by omega) (h.breach_of_refusal hop refusal)
  | done _ _ result => rw [result] at failed; cases failed

/-! ### Something wrong makes a cycle fail -/

/-- On a sound machine a word with a breach reads as nothing, or as an instruction that is refused. -/
theorem Sound.refusal_of_breach (h : Sound config m) {w : Word} (breach : Breach m w fault) :
    (Opcode.decode? w = none ∧ fault = .invalidInstruction w) ∨
      ∃ op, Opcode.decode? w = some op ∧ Refusal m.stepOver op fault := by
  cases breach with
  | unknown hrows => exact .inl ⟨Opcode.decode?_eq_none_iff.2 hrows, rfl⟩
  | callFull hrow full =>
    have reads : Opcode.decode? w = some (.call w.nnn) := by
      simp [Opcode.decode?, show w.kind = 0x2 from hrow]
    rw [← h.depth_eq_config] at full ⊢
    exact .inr ⟨_, reads, .call (Nat.not_lt.2 (Nat.le_of_eq full.symm))⟩
  | returnEmpty hrow empty =>
    have reads : Opcode.decode? w = some .ret := by
      rw [show w = 0x00EE from hrow]
      rfl
    exact .inr ⟨_, reads, .ret empty⟩
  | storeReserved hrow low =>
    have refused (bytes : List UInt8) :
        m.memory.write m.index.val bytes = .error (.reservedAddress m.index.val) :=
      Memory.write_eq_error_iff.2 (.inl ⟨low, rfl⟩)
    rcases hrow with hrow | hrow
    · exact .inr ⟨_, Opcode.decode?_of_matches_register hrow, .storeDecimal (refused _)⟩
    · exact .inr ⟨_, Opcode.decode?_of_matches_register hrow, .storeRegisters (refused _)⟩
  | decimalPastEnd hrow past =>
    -- past the end of memory is behind the program area's start, so the second reason applies
    have hstart : Memory.programStart ≤ m.index.val := by
      show 0x200 ≤ m.index.val
      omega
    rw [← max_index_size m]
    exact .inr ⟨_, Opcode.decode?_of_matches_register hrow,
      .storeDecimal (Memory.write_eq_error_iff.2 (.inr ⟨hstart, Nat.not_le.2 past, rfl⟩))⟩
  | registersPastEnd hrow past =>
    have hend : ¬ m.index.val + (w.x.val + 1) ≤ Memory.size := Nat.not_le.2 past
    rw [← max_index_size m]
    rcases hrow with hrow | hrow
    · have hstart : Memory.programStart ≤ m.index.val := by
        have := w.x.isLt
        show 0x200 ≤ m.index.val
        omega
      refine .inr ⟨_, Opcode.decode?_of_matches_register hrow,
        .storeRegisters (Memory.write_eq_error_iff.2 (.inr ⟨hstart, ?_, rfl⟩))⟩
      rwa [Registers.length_upTo]
    · exact .inr ⟨_, Opcode.decode?_of_matches_register hrow,
        .loadRegisters (Memory.slice_eq_error_iff.2 ⟨hend, rfl⟩)⟩
  | spritePastEnd hrow past =>
    have reads : Opcode.decode? w = some (.draw w.x w.y w.n) := by
      simp [Opcode.decode?, show w.kind = 0xD from hrow]
    rw [← max_index_size m]
    exact .inr ⟨_, reads, .draw (Memory.slice_eq_error_iff.2 ⟨Nat.not_le.2 past, rfl⟩)⟩

/-- **A fault that is due makes the cycle of a sound machine fail.** -/
theorem Sound.outcome_of_faultDue (h : Sound config m) (running : m.fault = none)
    (awake : m.keyWait = none) (due : FaultDue m fault) : m.cycle.outcome = .error fault := by
  have hsize : Memory.size = 0x1000 := rfl
  cases due with
  | fetch hpc =>
    rw [cycle_of_not_fits running awake (by omega)]
    rfl
  | instruction hpc breach =>
    have fits : m.pc.toNat + 2 ≤ Memory.size := by omega
    rcases h.refusal_of_breach breach with ⟨reads, rfl⟩ | ⟨op, reads, refusal⟩
    · rw [cycle_of_decode?_eq_none running awake fits reads]
      rfl
    · rw [Executes.cycle_of_refusal ⟨running, awake, fits, reads⟩ refusal]
      rfl

/-! ### The exact conditions -/

/-- **When a cycle fails, and with what.** After any history a machine that has not halted makes no
failing cycle while it waits, and otherwise fails with a fault exactly when that fault is due; it
succeeds when none is. -/
theorem run_powerOn_outcome (config : Config) (generator : Generator) (events : List Event) :
    let m := (powerOn config generator).run events
    m.fault = none →
      (m.keyWait ≠ none → ∃ signal, m.cycle.outcome = .ok signal) ∧
        (m.keyWait = none →
          (∀ fault, m.cycle.outcome = .error fault ↔ FaultDue m fault) ∧
            ((∃ signal, m.cycle.outcome = .ok signal) ↔ ∀ fault, ¬ FaultDue m fault)) := by
  intro m running
  have h : Sound config m := sound_run config generator events
  refine ⟨fun waiting ↦ ?_, fun awake ↦ ?_⟩
  · obtain ⟨x, hx⟩ := Option.ne_none_iff_exists'.1 waiting
    rw [cycle_of_keyWait running hx]
    exact ⟨_, rfl⟩
  · have hiff : ∀ fault, m.cycle.outcome = .error fault ↔ FaultDue m fault := fun fault ↦
      ⟨h.faultDue_of_outcome running, h.outcome_of_faultDue running awake⟩
    refine ⟨hiff, ?_⟩
    simp only [← hiff]
    cases m.cycle.outcome <;> simp

/-- A program draws two rows at the last cell of memory, the second of them below the screen: the cycle
fails although that row would not be seen. Another one waits for a key, and its cycle does not fail. -/
theorem sprite_past_end_and_wait :
    let m := (powerOn .usual (.ofSeed 0)).run
      [.load [0xAF, 0xFF, 0x61, 0x1F, 0xD0, 0x12], .cycle, .cycle]
    let waiting := (powerOn .usual (.ofSeed 0)).run [.load [0xF0, 0x0A], .cycle]
    (m.fault = none ∧ m.keyWait = none ∧ m.cycle.outcome = .error (.addressOutOfRange 0x1000)) ∧
      waiting.fault = none ∧ waiting.keyWait ≠ none ∧
        ∃ signal, waiting.cycle.outcome = .ok signal := by
  refine ⟨⟨by decide, by decide, ?_⟩, by decide, by decide, ?_⟩
  · refine (((run_powerOn_outcome _ _ _ (by decide)).2 (by decide)).1 _).2 ?_
    exact .instruction (by decide) (.spritePastEnd (by decide) (by decide))
  · exact (run_powerOn_outcome _ _ _ (by decide)).1 (by decide)

end Machine

end ChipEight
