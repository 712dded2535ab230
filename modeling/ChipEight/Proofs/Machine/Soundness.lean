import ChipEight.Proofs.Machine.Steps

/-!
# Sound machines

What holds of a machine at all times, whatever program it runs and whatever is done to it from outside.
No program is assumed to behave: it may rewrite itself, run off the end of memory, recurse without end
or jump between the bytes of its own instructions.

The bounds on the program counter rest on each other. A fetch needs a whole word below `0x1000`, so the
program counter lies between 2 and `0x1000` when an instruction is carried out; that is also what a
call pushes and where a wait begins, so a return comes back to such a place and so does a machine that
has waited. A skip adds two at most, and a jump stays below `0x1000`.

**Main statement**: `run_powerOn_bounds`. It follows by `run_of_apply` from what one event preserves
(`Sound.apply`), and that from what one cycle preserves, case by case.
-/

namespace ChipEight

/-- A fault that a running program can meet. A program that is too long does not get to run, and a
machine that has halted runs nothing. -/
def Fault.OfProgram (fault : Fault) : Prop :=
  fault ≠ .halted ∧ ∀ size capacity, fault ≠ .programTooLarge size capacity

/-- A jump stays inside memory. -/
theorem Address.toNat_toWord_le (target : Address) : target.toWord.toNat ≤ 0xFFF := by
  rw [toNat_toWord]
  exact Nat.le_of_lt_succ target.isLt

namespace Machine

variable {m next : Machine} {config : Config} {op : Opcode}

/-- What holds of a machine of some configuration at all times. -/
structure Sound (config : Config) (m : Machine) : Prop where
  config_eq : m.config = config
  depth_eq : m.stack.depth = config.stackDepth
  /-- The program counter is at most two words past the last one. -/
  pc_le : m.pc.toNat ≤ 0x1002
  index_le : m.index.val ≤ 0xFFF
  length_frames_le : m.stack.frames.length ≤ config.stackDepth
  /-- Every return address lies right behind a word of memory. -/
  frames_bounds : ∀ address ∈ m.stack.frames, 2 ≤ address.toNat ∧ address.toNat ≤ 0x1000
  /-- A machine that has halted does not wait. -/
  running_or_awake : m.fault = none ∨ m.keyWait = none
  /-- A machine that waits stands right behind the instruction that made it wait. -/
  waiting_bounds : m.keyWait ≠ none → 2 ≤ m.pc.toNat ∧ m.pc.toNat ≤ 0x1000
  fault_ofProgram : ∀ fault, m.fault = some fault → fault.OfProgram

/-- The call stack is as deep as the machine's own configuration says. -/
theorem Sound.depth_eq_config (h : Sound config m) : m.stack.depth = m.config.stackDepth := by
  rw [h.depth_eq, h.config_eq]

/-! ### The program counter -/

/-- A fetched instruction is stepped over to a place right behind a word of memory. -/
theorem stepOver_bounds (fits : m.pc.toNat + 2 ≤ Memory.size) :
    2 ≤ m.stepOver.pc.toNat ∧ m.stepOver.pc.toNat ≤ 0x1000 := by
  have hsize : Memory.size = 4096 := rfl
  have hpc : m.stepOver.pc.toNat = m.pc.toNat + 2 := toNat_add_two (by omega)
  omega

/-! ### What is carried out -/

/-- What an instruction is refused for is a fault of the program. -/
theorem Refusal.ofProgram {fault : Fault} (h : Refusal m op fault) : fault.OfProgram := by
  cases h with
  | ret | call => exact ⟨nofun, nofun⟩
  | draw h | loadRegisters h =>
    obtain ⟨-, rfl⟩ := Memory.slice_eq_error_iff.1 h
    exact ⟨nofun, nofun⟩
  | storeDecimal h | storeRegisters h =>
    obtain ⟨-, rfl⟩ | ⟨-, -, rfl⟩ := Memory.write_eq_error_iff.1 h <;> exact ⟨nofun, nofun⟩

/-- **A machine that has not halted fails with a fault of its program**, whatever is wrong. -/
theorem ofProgram_of_outcome {fault : Fault} (running : m.fault = none)
    (failed : m.cycle.outcome = .error fault) : fault.OfProgram := by
  cases m.beat with
  | halted halted _ => rw [running] at halted; cases halted
  | polled _ _ result | done _ _ result => rw [result] at failed; cases failed
  | unfetched _ _ _ result | unread _ _ _ _ result =>
    rw [result] at failed
    obtain rfl := Except.error.inj failed
    exact ⟨nofun, nofun⟩
  | refused _ refusal result =>
    rw [result] at failed
    obtain rfl := Except.error.inj failed
    exact refusal.ofProgram

/-- What an instruction makes of a sound machine that stands right behind it is sound. -/
theorem Sound.effect (h : Sound config m) (running : m.fault = none) (awake : m.keyWait = none)
    (bounds : 2 ≤ m.pc.toNat ∧ m.pc.toNat ≤ 0x1000) (effect : Effect m op next) :
    Sound config next := by
  -- Each case shows what its effect changes; whatever an effect leaves alone comes from `h`.
  cases effect with
  | compute display registers index timers generator =>
    exact { h with index_le := Nat.le_of_lt_succ index.isLt }
  | goTo target =>
    exact { h with
      pc_le := Nat.le_trans target.toNat_toWord_le (by decide)
      waiting_bounds := fun waiting ↦ absurd awake waiting }
  | skip =>
    have hpc := toNat_add_two (Nat.le_trans bounds.2 (by decide))
    exact { h with
      pc_le := by
        rw [hpc]
        omega
      waiting_bounds := fun waiting ↦ absurd awake waiting }
  | @call target _ hpush =>
    obtain ⟨hroom, rfl⟩ := CallStack.push_eq_ok_iff.1 hpush
    refine { h with
      pc_le := Nat.le_trans target.toNat_toWord_le (by decide)
      length_frames_le := h.depth_eq ▸ hroom
      frames_bounds := fun address hmem ↦ ?_
      waiting_bounds := fun waiting ↦ absurd awake waiting }
    rcases List.mem_cons.1 hmem with rfl | hmem
    · exact bounds
    · exact h.frames_bounds address hmem
  | ret hpop =>
    obtain ⟨hframes, hdepth⟩ := CallStack.pop_eq_ok_iff.1 hpop
    -- The bounds on frames are there for this: a return goes back to where a call was made.
    have hback := h.frames_bounds _ (hframes ▸ List.mem_cons_self)
    have hlength := h.length_frames_le
    rw [hframes, List.length_cons] at hlength
    exact { h with
      depth_eq := hdepth.trans h.depth_eq
      pc_le := Nat.le_trans hback.2 (by decide)
      length_frames_le := Nat.le_of_succ_le hlength
      frames_bounds := fun address hmem ↦
        h.frames_bounds address (hframes ▸ List.mem_cons_of_mem _ hmem)
      waiting_bounds := fun waiting ↦ absurd awake waiting }
  | await x =>
    exact { h with
      running_or_awake := .inl running
      waiting_bounds := fun _ ↦ bounds }
  | store => exact { h with }

/-- A machine that waits stays where it is. -/
theorem Sound.pollKey (h : Sound config m) (x : Digit) : Sound config (m.pollKey x).2 := by
  unfold Machine.pollKey
  split
  · exact { h with
      running_or_awake := .inr rfl
      waiting_bounds := fun waiting ↦ absurd rfl waiting }
  · exact h

/-- A sound machine that was not waiting halts as a sound machine. -/
theorem Sound.halt (h : Sound config m) (awake : m.keyWait = none) {fault : Fault}
    (hfault : fault.OfProgram) (journal : List JournalEntry) :
    Sound config (m.halt fault journal).machine :=
  { h with
    running_or_awake := .inr awake
    fault_ofProgram := fun _ hlatched ↦ Option.some.inj hlatched ▸ hfault }

theorem Sound.stepOver (h : Sound config m) (awake : m.keyWait = none)
    (fits : m.pc.toNat + 2 ≤ Memory.size) : Sound config m.stepOver :=
  { h with
    pc_le := Nat.le_trans (stepOver_bounds fits).2 (by decide)
    waiting_bounds := fun waiting ↦ absurd awake waiting }

/-! ### What happens -/

/-- **A cycle keeps a machine sound.** -/
theorem Sound.cycle (h : Sound config m) : Sound config m.cycle.machine := by
  cases m.beat with
  | halted _ result => rw [result]; exact h
  | @polled x _ _ result => rw [result]; exact h.pollKey x
  | unfetched running awake _ result =>
    rw [result]
    refine h.halt awake ?_ _
    exact ⟨nofun, nofun⟩
  | unread running awake fits _ result =>
    rw [result]
    refine (h.stepOver awake fits).halt awake ?_ _
    exact ⟨nofun, nofun⟩
  | refused hop refusal result =>
    rw [result]
    exact (h.stepOver hop.awake hop.fits).halt hop.awake refusal.ofProgram _
  | done hop done result =>
    rw [result]
    exact (h.stepOver hop.awake hop.fits).effect hop.running hop.awake (stepOver_bounds hop.fits)
      (effect_of_execute done)

/-- A machine is switched on sound. -/
theorem sound_powerOn (config : Config) (generator : Generator) :
    Sound config (powerOn config generator) where
  config_eq := rfl
  depth_eq := rfl
  pc_le := by
    show (UInt16.ofNat Memory.programStart).toNat ≤ 0x1002
    decide
  index_le := Nat.zero_le _
  length_frames_le := Nat.zero_le _
  frames_bounds := nofun
  running_or_awake := .inl rfl
  waiting_bounds := fun waiting ↦ absurd rfl waiting
  fault_ofProgram := nofun

theorem Sound.reset (h : Sound config m) : Sound config m.reset := by
  obtain rfl := h.config_eq
  exact sound_powerOn m.config m.generator

/-- **Whatever happens keeps a machine sound.** -/
theorem Sound.apply (h : Sound config m) (event : Event) : Sound config (m.apply event) := by
  cases event with
  | load program =>
    rw [Machine.apply]
    split
    · rename_i loaded hload
      obtain ⟨memory, -, rfl⟩ := map_eq_ok_iff.1 hload
      exact { h.reset with }
    · exact h
  | reset => exact h.reset
  | cycle => exact h.cycle
  | tick => exact { h with }
  | key k down => exact { h with }

/-- Every history from power-on leads to a sound machine. -/
theorem sound_run (config : Config) (generator : Generator) (events : List Event) :
    Sound config ((powerOn config generator).run events) :=
  run_of_apply (fun _ event h ↦ h.apply event) (sound_powerOn config generator) events

/-- **Whatever happens to a new machine, it is sound, and its program counter never wraps**: neither
when it steps over an instruction nor when a skip passes over one more. The generator is any, since a
machine without a seed starts anywhere in any random stream. -/
theorem run_powerOn_bounds (config : Config) (generator : Generator) (events : List Event) :
    let m := (powerOn config generator).run events
    Sound config m ∧ m.stepOver.pc.toNat = m.pc.toNat + 2 ∧
      ∀ condition : Condition, ∃ after,
        m.stepOver.execute (.skip condition) = .ok (.proceed, after) ∧
          after.pc.toNat = m.pc.toNat + if condition.holds m.stepOver then 4 else 2 := by
  intro m
  have h : Sound config m := sound_run config generator events
  have hover : m.stepOver.pc.toNat = m.pc.toNat + 2 :=
    toNat_add_two (Nat.le_trans h.pc_le (by decide))
  refine ⟨h, hover, fun condition ↦ ⟨_, rfl, ?_⟩⟩
  split
  · have hpc := h.pc_le
    show (m.stepOver.pc + 2).toNat = m.pc.toNat + 4
    rw [toNat_add_two (by omega), hover]
  · exact hover

end Machine

end ChipEight
