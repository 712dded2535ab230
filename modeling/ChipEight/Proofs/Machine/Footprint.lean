import ChipEight.Proofs.Machine.Moments

/-!
# What instructions leave behind

Three parts of a machine are written by a few instructions each: the display is cleared and drawn on,
the timers are set, and the place in the random stream moves on with every byte drawn. What has to be
said of such a part at the end of a history is said of the instructions that were **carried out** in
it, which are those that were fetched and whose cycle did not fail.

A moment at which no instruction is carried out, and which is no restart, leaves all three alone but
for a tick of the timers (`after_of_not_carried`). At the others the three are what the instruction
makes of them (`outputs_of_carried`).
-/

namespace ChipEight

namespace Machine

variable {m next : Machine} {op : Opcode} {signal : Signal}

/-! ### The outputs of an instruction -/

/-- What an instruction makes of the display. -/
def displayAfter (m : Machine) : Opcode → Framebuffer
  | .clearScreen => .blank
  | .draw x y n =>
    (m.display.draw (m.registers.get x) (m.registers.get y) (m.memory.cells m.index.val n.val)).1
  | _ => m.display

/-- What an instruction makes of the timers. -/
def timersAfter (m : Machine) : Opcode → Timers
  | .setDelay x => { m.timers with delay := m.registers.get x }
  | .setSound x => { m.timers with sound := m.registers.get x }
  | _ => m.timers

/-- What an instruction makes of the place in the random stream. -/
def generatorAfter (m : Machine) : Opcode → Generator
  | .random .. => m.generator.advance
  | _ => m.generator

/-- **An instruction leaves behind what it makes of the display, the timers and the random stream.** -/
theorem outputs_of_execute (h : m.execute op = .ok (signal, next)) :
    next.display = m.displayAfter op ∧ next.timers = m.timersAfter op ∧
      next.generator = m.generatorAfter op := by
  cases op with
  | draw x y n =>
    obtain ⟨_, hdraw, h⟩ := map_eq_ok_iff.1 h
    obtain ⟨-, rfl⟩ := Prod.mk.inj h
    obtain ⟨sprite, hslice, rfl⟩ := map_eq_ok_iff.1 hdraw
    obtain ⟨-, rfl⟩ := Memory.slice_eq_ok_iff.1 hslice
    exact ⟨rfl, rfl, rfl⟩
  | ret | call target =>
    obtain ⟨_, -, h⟩ := map_eq_ok_iff.1 h
    obtain ⟨-, rfl⟩ := Prod.mk.inj h
    exact ⟨rfl, rfl, rfl⟩
  | storeDecimal x | storeRegisters x | loadRegisters x =>
    obtain ⟨_, haccess, h⟩ := map_eq_ok_iff.1 h
    obtain ⟨-, rfl⟩ := Prod.mk.inj h
    obtain ⟨_, -, rfl⟩ := map_eq_ok_iff.1 haccess
    exact ⟨rfl, rfl, rfl⟩
  | skip condition =>
    obtain ⟨-, rfl⟩ := Prod.mk.inj (Except.ok.inj h)
    split <;> exact ⟨rfl, rfl, rfl⟩
  | clearScreen | jump target | jumpOffset base | setByte x nn | addByte x nn | arithmetic op x y
  | random x mask | setIndex target | addIndex x | pointGlyph x | awaitKey x | readDelay x
  | setDelay x | setSound x =>
    obtain ⟨-, rfl⟩ := Prod.mk.inj (Except.ok.inj h)
    exact ⟨rfl, rfl, rfl⟩

end Machine

namespace Moment

variable {t : Moment} {op : Opcode}

/-! ### The instruction of a moment -/

/-- The instruction that is carried out at a moment, if one is: it is fetched, and its cycle does not
fail. -/
def carried? (t : Moment) : Option Opcode :=
  (Opcode.decode? t.machine.current).filter fun op ↦ decide (t.Executes op ∧ t.failure? = none)

theorem carried?_eq_some_iff : t.carried? = some op ↔ t.Executes op ∧ t.failure? = none := by
  rw [carried?, Option.filter_eq_some_iff, decide_eq_true_iff]
  exact and_iff_right_of_imp fun h ↦ h.1.2.reads

/-- What is carried out leads to the machine afterwards. -/
theorem execute_of_carried (h : t.carried? = some op) :
    ∃ signal, t.machine.stepOver.execute op = .ok (signal, t.after) := by
  obtain ⟨⟨hcycle, hop⟩, hdone⟩ := carried?_eq_some_iff.1 h
  obtain ⟨m, event⟩ := t
  subst hcycle
  rcases hx : m.stepOver.execute op with fault | ⟨signal, next⟩
  · -- Then the cycle fails, and the instruction is not carried out.
    have hcycle := hop.cycle_of_refusal (Machine.execute_eq_error_iff.1 hx)
    have hfailure : (some fault : Option Fault) = none := by
      rw [← hdone, failure?, Cycle.failure?, hcycle]
      rfl
    cases hfailure
  · refine ⟨signal, ?_⟩
    rw [after, Machine.apply, hop.cycle_of_execute hx]

/-- An instruction that is set about and succeeds is carried out. -/
theorem carried_of_execute {m next : Machine} {signal : Signal} (hop : m.Executes op)
    (done : m.stepOver.execute op = .ok (signal, next)) :
    carried? ⟨m, .cycle⟩ = some op := by
  refine carried?_eq_some_iff.2 ⟨⟨rfl, hop⟩, ?_⟩
  rw [failure?, Cycle.failure?, hop.cycle_of_execute done]

/-- **What an instruction that is carried out leaves behind.** -/
theorem outputs_of_carried (h : t.carried? = some op) :
    t.after.display = t.machine.displayAfter op ∧ t.after.timers = t.machine.timersAfter op ∧
      t.after.generator = t.machine.generatorAfter op := by
  obtain ⟨_, hdone⟩ := execute_of_carried h
  obtain ⟨hdisplay, htimers, hgenerator⟩ := Machine.outputs_of_execute hdone
  exact ⟨hdisplay, htimers, hgenerator⟩

/-- **Where no instruction is carried out and nothing starts again**, all that moves is the program
counter, the register that a key was awaited for, the keypad with the wait, the fault, and the timers
by a tick. -/
theorem after_of_not_carried (h : t.carried? = none) (hrestart : ¬ t.event.restarts) :
    ∃ pc registers keypad keyWait fault, t.after =
      { t.machine with
        pc, registers, keypad, keyWait, fault
        timers := if t.event = .tick then t.machine.timers.tick else t.machine.timers } := by
  obtain ⟨m, event⟩ := t
  cases event with
  | load program =>
    rw [after, Machine.apply_load_of_not_restarts hrestart]
    exact ⟨_, _, _, _, _, rfl⟩
  | reset => exact absurd rfl hrestart
  | tick | key => exact ⟨_, _, _, _, _, rfl⟩
  | cycle =>
    show ∃ pc registers keypad keyWait fault, m.cycle.machine = _
    cases m.beat with
    | halted _ result | unfetched _ _ _ result | unread _ _ _ _ result | refused _ _ result =>
      rw [result]
      exact ⟨_, _, _, _, _, rfl⟩
    | @polled x _ _ result =>
      obtain ⟨_, _, _, hpoll⟩ := m.pollKey_frame x
      rw [result, hpoll]
      exact ⟨_, _, _, _, _, rfl⟩
    | done hop done _ =>
      rw [carried_of_execute hop done] at h
      cases h

end Moment

end ChipEight
