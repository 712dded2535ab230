import ChipEight.Proofs.Machine.Moments
import ChipEight.Proofs.Machine.Restart
import ChipEight.Proofs.Machine.Trapping

/-!
# Nothing traps

No procedure of a machine traps, whatever the machine. What that rests on lies elsewhere each time:

* a digit is less than sixteen, so registers and keys exist, and the bytes up to a register do;
* the index register has twelve bits and no instruction asks for more than sixteen bytes, so the end of
  a range can be computed;
* an access that is allowed has a range as long as the bytes that are copied;
* a fetch looks at the program counter before it adds to it;
* two bytes have a sum of nine bits, and what is cut out of a word has four;
* a latch that is not empty has a key in it, and a sprite starts on the screen.

Where the machine comes from matters for what a reset leaves behind, and for nothing else. In place the
call stack keeps its depth, which has been that of the configuration from the beginning
(`Machine.Sound`).

**Main statement**: `undergoAll_powerOn`. It follows by induction over the history from what a single
event comes to (`on_undergo`).
-/

namespace ChipEight

open Checked

namespace Trapping

variable {α : Type} {m : Machine}

/-! ### Registers, the call stack and memory -/

theorem on_register (x : Digit) : (register x).on m = .ok (.ok (m.registers.get x), m) := by
  rw [register, index_eq]
  rfl

theorem on_assign (x : Digit) (value : UInt8) :
    (assign x value).on m = .ok (.ok ⟨⟩, m.setRegister x value) := by
  rw [assign, index_eq]
  rfl

theorem register_bind (x : Digit) (k : UInt8 → Trapping α) :
    (register x >>= k).on m = (k (m.registers.get x)).on m := bind_of_ok (on_register x) k

theorem assign_bind (x : Digit) (value : UInt8) (k : PUnit → Trapping α) :
    (assign x value >>= k).on m = (k ⟨⟩).on (m.setRegister x value) :=
  bind_of_ok (on_assign x value) k

theorem on_push (address : UInt16) : (push address).on m = .ok ((InPlace.push address).on m) := by
  rw [push, get_bind, InPlace.on_push]
  by_cases hroom : m.stack.frames.length < m.stack.depth
  · rw [refuseIf_bind_of_not (Nat.not_le.2 hroom), check_bind (index_eq ⟨_, hroom⟩),
      CallStack.push_eq_ok_iff.2 ⟨hroom, rfl⟩]
    rfl
  · rw [refuseIf_bind_of (Nat.not_lt.1 hroom), CallStack.push_eq_error_iff.2 ⟨hroom, rfl⟩]
    rfl

theorem on_pop : pop.on m = .ok (InPlace.pop.on m) := by
  obtain ⟨config, memory, display, pc, index, registers, ⟨depth, frames⟩, _⟩ := m
  cases frames <;> rfl

/-- The end of a range of memory that an instruction asks for can be computed. -/
theorem index_add_lt {length : Nat} (a : Address) (h : length ≤ 16) :
    a.val + length < addressLimit := by
  have ha := a.isLt
  rw [addressLimit]
  omega

theorem on_slice {a length : Nat} (h : a + length < addressLimit) :
    (slice a length).on m = .ok ((InPlace.look fun m ↦ m.memory.slice a length).on m) := by
  rw [slice, check_bind (plus_eq h), InPlace.on_look, Memory.slice]
  by_cases hend : a + length ≤ Memory.size
  · rw [refuseIf_bind_of_not (Nat.not_lt.2 hend), get_bind, if_pos hend, Nat.add_sub_cancel_left]
    rfl
  · rw [refuseIf_bind_of (Nat.lt_of_not_le hend), if_neg hend]
    rfl

/-- A write needs the end of its range only if it does not start below the program area. -/
theorem on_write {a : Nat} {bytes : List UInt8} (h : a + bytes.length < addressLimit) :
    (write a bytes).on m =
      .ok (InPlace.leaving m ((m.memory.write a bytes).map fun memory ↦ (⟨⟩, { m with memory }))) := by
  rw [write, Memory.write]
  by_cases hlow : a < Memory.programStart
  · rw [refuseIf_bind_of hlow, if_pos hlow]
    rfl
  · rw [refuseIf_bind_of_not hlow, check_bind (plus_eq h), if_neg hlow]
    by_cases hend : a + bytes.length ≤ Memory.size
    · rw [refuseIf_bind_of_not (Nat.not_lt.2 hend), if_pos hend,
        check_bind (copied_eq (Nat.add_sub_cancel_left ..).symm)]
      rfl
    · rw [refuseIf_bind_of (Nat.lt_of_not_le hend), if_neg hend]
      rfl

theorem on_store {bytes : List UInt8} (h : bytes.length ≤ 16) :
    (store bytes).on m = .ok ((InPlace.store bytes).on m) := by
  rw [store, get_bind, on_write (index_add_lt m.index h), InPlace.on_store, Machine.store]
  cases m.memory.write m.index.val bytes <;> rfl

/-! ### Arithmetic -/

theorem on_combine (op : Arithmetic) (x y : Digit) :
    (combine op x y).on m = .ok ((InPlace.combine op x y).on m) := by
  have hsum : (m.registers.get x).toNat + (m.registers.get y).toNat < 0x10000 := by
    have hx := (m.registers.get x).toNat_lt
    have hy := (m.registers.get y).toNat_lt
    omega
  have hone : places 8 1 = .ok 1 := places_eq (by decide)
  have hseven : places 8 7 = .ok 7 := places_eq (by decide)
  have hfirst : UInt8.ofNat 7 = 7 := rfl
  rw [InPlace.on_combine]
  cases op with
  | copy | or | and | xor =>
    simp only [combine, register_bind, on_assign]
    rfl
  | add =>
    simp only [combine, register_bind, check_bind (plus_eq hsum), assign_bind, on_assign,
      ofNat_sum_and]
    rfl
  | subtract | subtractFrom =>
    simp only [combine, register_bind, assign_bind, on_assign]
    rfl
  | shiftRight =>
    simp only [combine, register_bind, check_bind hone, assign_bind, on_assign, and_one_eq]
    rfl
  | shiftLeft =>
    simp only [combine, register_bind, check_bind hone, check_bind hseven, assign_bind, on_assign,
      hfirst, shiftRight_seven_and_one_eq]
    rfl

theorem on_draw (x y n : Digit) : (draw x y n).on m = .ok ((InPlace.draw x y n).on m) := by
  rw [draw, get_bind, InPlace.draw]
  refine bind_eq (on_slice (index_add_lt m.index (Nat.le_of_lt n.isLt))) fun sprite next _ ↦ ?_
  rw [get_bind, register_bind, register_bind, check_bind (drawSprite_eq ..), modify_bind, on_assign]
  rfl

/-! ### Instructions -/

theorem on_asks (condition : Condition) :
    (asks condition).on m = .ok (.ok (condition.holds m), m) := by
  cases condition with
  | equalsByte x nn | differsFromByte x nn | equalsRegister x y | differsFromRegister x y =>
    simp only [asks, register_bind]
    rfl
  | keyHeld x | keyReleased x =>
    rw [asks, register_bind, check_bind (index_eq _)]
    rfl

theorem plus_digit (x : Digit) : plus addressLimit x.val 1 = .ok (x.val + 1) := by
  have hx := x.isLt
  exact plus_eq (by rw [addressLimit]; omega)

/-- A range that has been read has the length it was asked for. -/
theorem length_of_look {a length : Nat} {bytes : List UInt8} {next : Machine}
    (h : (InPlace.look fun m ↦ m.memory.slice a length).on m = (.ok bytes, next)) :
    bytes.length = length := by
  rw [InPlace.on_look] at h
  cases hslice : m.memory.slice a length with
  | error fault =>
    rw [hslice] at h
    cases h
  | ok found =>
    rw [hslice] at h
    cases h
    rw [(Memory.slice_eq_ok_iff.1 hslice).2, Memory.length_cells]

/-- **Every instruction is free of traps**, on every machine. -/
theorem on_perform (op : Opcode) : (perform op).on m = .ok ((InPlace.perform op).on m) := by
  cases op with
  -- Nothing is asked for.
  | clearScreen | jump target | setIndex target | awaitKey x => rfl
  -- Registers only, and an address that is computed from one.
  | jumpOffset base | addIndex x | setDelay x | setSound x =>
    rw [perform, register_bind]
    rfl
  | skip condition =>
    rw [perform, bind_of_ok (on_asks condition), InPlace.on_perform, skipIf, Machine.execute]
    cases condition.holds m <;> rfl
  | setByte x nn =>
    rw [perform, assign_bind]
    rfl
  | readDelay x =>
    rw [perform, get_bind, assign_bind]
    rfl
  | random x mask =>
    rw [perform, get_bind, modify_bind, assign_bind]
    rfl
  | addByte x nn =>
    rw [perform, register_bind, assign_bind]
    rfl
  | pointGlyph x =>
    rw [perform, register_bind, check_bind (glyphAddress_eq _)]
    rfl
  -- A procedure of its own, which may fail, and what follows it.
  | ret => exact bind_eq on_pop fun _ _ _ ↦ rfl
  | call target =>
    rw [perform, get_bind]
    exact bind_eq (on_push m.pc) fun _ _ _ ↦ rfl
  | arithmetic op x y => exact bind_eq (on_combine op x y) fun _ _ _ ↦ rfl
  | draw x y n => exact bind_eq (on_draw x y n) fun _ _ _ ↦ rfl
  | storeDecimal x =>
    have hlength : (Machine.decimalDigits (m.registers.get x)).length = 3 := rfl
    rw [perform, register_bind, check_bind (decimalDigits_eq _), InPlace.perform, InPlace.on_bind,
      InPlace.on_get]
    exact bind_eq (on_store (hlength.trans_le (by decide))) fun _ _ _ ↦ rfl
  | storeRegisters x =>
    have hlength : (m.registers.upTo x).length ≤ 16 := by
      rw [m.registers.length_upTo]
      exact x.isLt
    rw [perform, check_bind (plus_digit x), check_bind (rangeEnd_eq x.isLt), get_bind]
    exact bind_eq (on_store hlength) fun _ _ _ ↦ rfl
  | loadRegisters x =>
    rw [perform, check_bind (plus_digit x), get_bind]
    refine bind_eq (on_slice (index_add_lt m.index x.isLt)) fun bytes next hread ↦ ?_
    rw [check_bind (rangeEnd_eq x.isLt), check_bind (copied_eq (length_of_look hread))]
    rfl

/-! ### Cycles -/

theorem read_bind {a : Nat} (h : a < Memory.size) (k : UInt8 → Trapping α) :
    (read a >>= k).on m = (k (m.memory.cell a)).on m := by
  rw [read, refuseIf, if_neg (Nat.not_le.2 h)]
  rfl

/-- A fetch adds one to the program counter when there is one more cell, and not before. -/
theorem on_fetch : fetch.on m = .ok ((InPlace.look fun m ↦ m.memory.fetch m.pc.toNat).on m) := by
  have hsize : Memory.size = 4096 := rfl
  have hlast : minus Memory.size 2 = .ok (Memory.size - 2) := minus_eq (by decide)
  rw [fetch, get_bind, check_bind hlast, InPlace.on_look, Memory.fetch]
  by_cases hfits : m.pc.toNat + 2 ≤ Memory.size
  · have hnext : plus addressLimit m.pc.toNat 1 = .ok (m.pc.toNat + 1) :=
      plus_eq (by rw [addressLimit]; omega)
    rw [refuseIf_bind_of_not (by omega), read_bind (by omega), check_bind hnext,
      read_bind (by omega), if_pos hfits]
    rfl
  · rw [refuseIf_bind_of (by omega), if_neg hfits]
    rfl

theorem on_dispatch (word : Word) (reading : Option Opcode) :
    (dispatch word reading).on m = .ok ((InPlace.dispatch word reading).on m) := by
  cases reading with
  | none => rfl
  | some op => exact on_perform op

theorem on_pollKey (x : Digit) : (pollKey x).on m = .ok ((InPlace.pollKey x).on m) := by
  rw [pollKey, get_bind, check_bind (takePress_eq _), InPlace.on_pollKey, Machine.pollKey]
  cases m.keypad.takePress with
  | none => rfl
  | some found =>
    obtain ⟨k, keypad⟩ := found
    simp only
    rw [modify_bind, assign_bind]
    rfl

theorem on_attempt : attempt.on m = .ok (InPlace.attempt.on m) := by
  rw [attempt, get_bind, InPlace.attempt, InPlace.on_bind, InPlace.on_get]
  cases hwait : m.keyWait with
  | some x =>
    simp only [hwait]
    exact on_pollKey x
  | none =>
    simp only [hwait]
    refine bind_eq on_fetch fun word next _ ↦ ?_
    rw [check_bind (decode_eq word)]
    exact on_dispatch word _

/-- **Every cycle is free of traps**, on every machine. -/
theorem on_cycle : cycle.on m = .ok (m.cycle.outcome, m.cycle.machine) := by
  rw [← InPlace.on_cycle, cycle, get_bind, InPlace.cycle, InPlace.on_bind, InPlace.on_get]
  cases hfault : m.fault with
  | some fault =>
    simp only [hfault, Option.isSome_some, if_true]
    rfl
  | none =>
    simp only [hfault, Option.isSome_none, Bool.false_eq_true, if_false]
    exact tryCatch_eq on_attempt fun fault next ↦ rfl

theorem on_cycle_of_ok {signal : Signal} (h : m.cycle.outcome = .ok signal) :
    cycle.on m = .ok (.ok signal, m.cycle.machine) := by
  rw [on_cycle, h]

/-! ### What happens from outside -/

theorem on_reset : reset.on m = .ok (InPlace.reset.on m) := by
  have hend : rangeEnd Memory.size Memory.fontEnd = .ok Memory.fontEnd := rangeEnd_eq (by decide)
  have hfont : copied (Memory.fontEnd - Memory.fontStart) Font.glyphs = .ok Font.glyphs :=
    copied_eq (by decide)
  -- Only the copying of the font asks for anything; what comes after it is as in place.
  rw [reset, resetMemory, bind_assoc, modify_bind, bind_assoc, check_bind hend, bind_assoc,
    check_bind hfont]
  rfl

/-- The longest program ends where memory does. -/
theorem minus_capacity : minus Memory.size Memory.programStart = .ok Memory.capacity :=
  minus_eq (by decide)

theorem on_loadProgram {program : List UInt8}
    (h : Memory.programStart + program.length < addressLimit) :
    (loadProgram program).on m = .ok ((InPlace.loadProgram program).on m) := by
  rw [loadProgram, check_bind (plus_eq h), check_bind minus_capacity, InPlace.loadProgram]
  by_cases hroom : Memory.size < Memory.programStart + program.length
  · rw [refuseIf_bind_of hroom, if_pos hroom]
    rfl
  · rw [refuseIf_bind_of_not hroom, check_bind (copied_eq (Nat.add_sub_cancel_left ..).symm),
      if_neg hroom]
    rfl

theorem on_load (program : List UInt8) :
    (load program).on m = .ok ((InPlace.load program).on m) := by
  rw [load, check_bind minus_capacity, InPlace.load]
  by_cases hfits : program.length ≤ Memory.capacity
  · rw [refuseIf_bind_of_not (Nat.not_lt.2 hfits), if_neg (Nat.not_lt.2 hfits)]
    refine bind_eq on_reset fun _ _ _ ↦ on_loadProgram ?_
    exact Nat.lt_of_le_of_lt (Nat.add_le_add_left hfits _) (by decide)
  · rw [refuseIf_bind_of (Nat.lt_of_not_le hfits), if_pos (Nat.lt_of_not_le hfits)]
    rfl

/-- **Whatever happens to a machine is free of traps**, if its call stack has the depth of its
configuration. -/
theorem on_undergo (hdepth : m.stack.depth = m.config.stackDepth) (event : Event) :
    (undergo event).on m = .ok (m.reply event, m.apply event) := by
  cases event with
  | load program =>
    have hload := (on_load program).trans (congrArg Except.ok (InPlace.on_load hdepth program))
    rw [undergo, on_bind_pure hload fun _ ↦ none, Machine.reply, Machine.apply]
    cases m.load program <;> rfl
  | reset =>
    rw [undergo, bind_of_ok (on_reset.trans (congrArg Except.ok (InPlace.on_reset hdepth)))]
    rfl
  | cycle => exact on_bind_pure on_cycle some
  | tick => rfl
  | key k down =>
    rw [undergo, get_bind, check_bind (setKey_eq ..)]
    rfl

theorem undergoAll_of_sound {config : Config} {m : Machine} (h : Machine.Sound config m)
    (events : List Event) :
    undergoAll m events =
      .ok ((m.moments events).map fun t ↦ t.machine.reply t.event, m.run events) := by
  induction events generalizing m with
  | nil => rfl
  | cons event events ih =>
    rw [undergoAll, on_undergo h.depth_eq_config, bind_ok]
    simp only [ih (h.apply event)]
    rfl

/-- **No history of a machine that is switched on traps**, whatever its configuration, its programs and
the order of what happens to it. Each event gets its reply, which may be a fault, and the machine at the
end is the one that the history leads to. -/
theorem undergoAll_powerOn (config : Config) (generator : Generator) (events : List Event) :
    undergoAll (.powerOn config generator) events =
      .ok (((Machine.powerOn config generator).moments events).map fun t ↦ t.machine.reply t.event,
        (Machine.powerOn config generator).run events) :=
  undergoAll_of_sound (Machine.sound_powerOn config generator) events

end Trapping

end ChipEight
