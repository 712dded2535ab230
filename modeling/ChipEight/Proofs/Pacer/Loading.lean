import ChipEight.Proofs.Memory.Law
import ChipEight.Proofs.Pacer.Requests

/-!
# Loading a program

A program is measured twice. A machine compares its length with the room that memory has before it
starts anew, and memory compares the place where the program would end with its own end before it
copies it. Between the two everything the machine had is thrown away, so if the second came to another
answer than the first, the machine would be left without its old program and without the new one. They
are written in different ways and agree for every length, so a load is **all or nothing**: behind a
refusal stands the machine as it was, whatever it was doing, and behind a success one that is switched
on with the program in memory.

A pacer that loads in place lets the machine inside load and then sets its clocks back, which it does
not come to if the machine refuses. A procedure on the machine inside is a procedure on the pacer
(`Driving.inside`).

All that a load keeps of the past is the place in the random stream. A machine that has thrown dice is
therefore not the machine it was when it was switched on (`dice_not_thrown_again`).

**Main statement**: `load_all_or_nothing`.
-/

namespace ChipEight

open Checked

namespace Memory

variable {program : List UInt8}

/-- A program that is copied to where programs start stands there, and nothing else has changed. -/
theorem cells_place_program (m : Memory) (hfits : program.length ≤ capacity) :
    (m.place programStart program).cells programStart program.length = program ∧
      ∀ a < size, ¬ (programStart ≤ a ∧ a < programStart + program.length) →
        (m.place programStart program).cell a = m.cell a := by
  have hend : programStart + program.length ≤ size := Nat.add_le_add_left hfits programStart
  constructor
  · have hwrite : m.write programStart program = .ok (m.place programStart program) :=
      write_eq_ok_iff.2 ⟨Nat.le_refl _, hend, rfl⟩
    exact (slice_eq_ok_iff.1 (slice_of_write hwrite)).2.symm
  · intro a ha hout
    rw [m.cell_place _ _ hend ha, if_neg hout]

end Memory

namespace Trapping

variable {m : Machine} {program : List UInt8}

/-- Memory has room for every program that a machine lets through. -/
theorem on_loadProgram_of_fits (hfits : program.length ≤ Memory.capacity) :
    (loadProgram program).on m =
      .ok (.ok ⟨⟩, { m with memory := m.memory.place Memory.programStart program }) := by
  have hend : Memory.programStart + program.length < addressLimit :=
    Nat.lt_of_le_of_lt (Nat.add_le_add_left hfits _) (by decide)
  rw [on_loadProgram hend, InPlace.on_loadProgram, Memory.load_eq_ok_iff.2 ⟨hfits, rfl⟩]
  rfl

theorem on_load_of_fits (hdepth : m.stack.depth = m.config.stackDepth)
    (hfits : program.length ≤ Memory.capacity) :
    (load program).on m = .ok (.ok ⟨⟩,
      { m.reset with memory := Memory.powerOn.place Memory.programStart program }) := by
  rw [on_load, InPlace.on_load hdepth, m.load_of_fits hfits]
  rfl

/-- A program that is too long is refused by every machine, which stays as it is. -/
theorem on_load_of_not_fits (m : Machine) (hfits : ¬ program.length ≤ Memory.capacity) :
    (load program).on m =
      .ok (.error (.programTooLarge program.length Memory.capacity), m) := by
  rw [load, check_bind minus_capacity, refuseIf_bind_of (Nat.lt_of_not_le hfits)]

end Trapping

/-! ### Pacers that are changed in place -/

/-- A procedure on a pacer that is changed in place, which may trap. -/
abbrev Driving := ExceptT Fault (StateT Pacer Checked)

namespace Driving

variable {α β : Type} {p : Pacer} {program : List UInt8}

/-- What comes of a procedure on a pacer, and the pacer it leaves behind, unless it traps. -/
def on (procedure : Driving α) (p : Pacer) : Checked (Except Fault α × Pacer) := procedure.run.run p

/-- Let the machine inside go through a procedure. -/
def inside (procedure : Trapping α) : Driving α :=
  ExceptT.mk fun p ↦ do
    let (reply, machine) ← procedure.on p.machine
    return (reply, { p with machine })

/-- Let the machine inside load a program, and start both clocks anew. -/
def load (program : List UInt8) : Driving Unit := do
  inside (Trapping.load program)
  modify fun p ↦ { p with cycleClock := 0 }
  modify fun p ↦ { p with tickClock := 0 }

/-- What follows a procedure on the machine inside is made if the procedure succeeds. -/
theorem on_inside_bind_of_ok {procedure : Trapping α} {a : α} {machine : Machine}
    (h : procedure.on p.machine = .ok (.ok a, machine)) (k : α → Driving β) :
    (inside procedure >>= k).on p = (k a).on { p with machine } := by
  show ((procedure.on p.machine >>= fun r ↦ _) >>= fun r ↦ _ : Checked (Except Fault β × Pacer)) = _
  rw [h]
  rfl

theorem on_inside_bind_of_error {procedure : Trapping α} {fault : Fault} {machine : Machine}
    (h : procedure.on p.machine = .ok (.error fault, machine)) (k : α → Driving β) :
    (inside procedure >>= k).on p = .ok (.error fault, { p with machine }) := by
  show ((procedure.on p.machine >>= fun r ↦ _) >>= fun r ↦ _ : Checked (Except Fault β × Pacer)) = _
  rw [h]
  rfl

theorem on_load_of_fits (hdepth : p.machine.stack.depth = p.machine.config.stackDepth)
    (hfits : program.length ≤ Memory.capacity) :
    (load program).on p = .ok (.ok ⟨⟩, .new
      { p.machine.reset with memory := Memory.powerOn.place Memory.programStart program }) := by
  rw [load, on_inside_bind_of_ok (Trapping.on_load_of_fits hdepth hfits)]
  rfl

theorem on_load_of_not_fits (p : Pacer) (hfits : ¬ program.length ≤ Memory.capacity) :
    (load program).on p =
      .ok (.error (.programTooLarge program.length Memory.capacity), p) := by
  rw [load, on_inside_bind_of_error (Trapping.on_load_of_not_fits p.machine hfits)]

end Driving

namespace Pacer

/-- **A program is loaded wholly or not at all**, by a machine with any history and by a pacer with any
history of such a machine. It is refused exactly if it is longer than 3584 bytes, and then all is as it
was. Otherwise the machine is as it is switched on, with the program in memory and its place in the
random stream kept, and both clocks of the pacer start anew. What comes after the reset cannot fail, and
nothing traps. -/
theorem load_all_or_nothing (config : Config) (generator : Generator) (events : List Event)
    (requests : List Request) (program : List UInt8) :
    let m := (Machine.powerOn config generator).run events
    let p := (new m).run requests
    let refusal := Fault.programTooLarge program.length 3584
    (∀ fault, m.load program = .error fault ↔ 3584 < program.length ∧ fault = refusal) ∧
      (3584 < program.length →
        (Trapping.load program).on m = .ok (.error refusal, m) ∧
          p.load program = .error refusal ∧ (Driving.load program).on p = .ok (.error refusal, p)) ∧
      (program.length ≤ 3584 →
        ∃ memory : Memory, memory.cells 0x200 program.length = program ∧
          (∀ a < 4096, ¬ (0x200 ≤ a ∧ a < 0x200 + program.length) →
            memory.cell a = Memory.powerOn.cell a) ∧
          (let fresh := Machine.powerOn config m.generator
            let loaded := { fresh with memory }
            m.load program = .ok loaded ∧ (Trapping.load program).on m = .ok (.ok ⟨⟩, loaded) ∧
              Trapping.reset.on m = .ok (.ok ⟨⟩, fresh) ∧
                (Trapping.loadProgram program).on fresh = .ok (.ok ⟨⟩, loaded)) ∧
          let loaded : Pacer :=
            { machine := { Machine.powerOn config p.machine.generator with memory }
              cycleClock := 0
              tickClock := 0 }
          p.load program = .ok loaded ∧ (Driving.load program).on p = .ok (.ok ⟨⟩, loaded)) := by
  intro m p refusal
  have hcapacity : Memory.capacity = 3584 := by decide
  have hm : Machine.Sound config m := Machine.sound_run config generator events
  have hp : Machine.Sound config p.machine := by
    rw [machine_run]
    exact Machine.run_of_apply (fun _ event h ↦ h.apply event) hm _
  have hreset : Trapping.reset.on m = .ok (.ok ⟨⟩, m.reset) := by
    rw [Trapping.on_reset, InPlace.on_reset hm.depth_eq_config]
  have hfresh : m.reset = .powerOn config m.generator := by rw [Machine.reset, hm.config_eq]
  have hfresh' : p.machine.reset = .powerOn config p.machine.generator := by
    rw [Machine.reset, hp.config_eq]
  have hload (n : Machine) (hlong : 3584 < program.length) : n.load program = .error refusal :=
    n.load_of_not_fits (Nat.not_le.2 hlong)
  refine ⟨fun fault ↦ ?_, fun hlong ↦ ?_, fun hfits ↦ ?_⟩
  · constructor
    · intro herror
      obtain ⟨hlong, hfault⟩ := Memory.load_eq_error_iff.1 (map_eq_error_iff.1 herror)
      exact ⟨Nat.lt_of_not_le hlong, hfault⟩
    · rintro ⟨hlong, rfl⟩
      exact hload m hlong
  · exact ⟨Trapping.on_load_of_not_fits m (Nat.not_le.2 hlong),
      map_eq_error_iff.2 (hload p.machine hlong), Driving.on_load_of_not_fits p (Nat.not_le.2 hlong)⟩
  · obtain ⟨hprogram, hothers⟩ := Memory.powerOn.cells_place_program hfits
    have hmachine := Trapping.on_load_of_fits hm.depth_eq_config hfits
    have hpacer := Driving.on_load_of_fits hp.depth_eq_config hfits
    rw [hfresh] at hmachine hreset
    rw [hfresh'] at hpacer
    refine ⟨_, hprogram, hothers, ⟨?_, hmachine, hreset, Trapping.on_loadProgram_of_fits hfits⟩, ?_,
      hpacer⟩
    · rw [m.load_of_fits hfits, hfresh]
    · rw [load, p.machine.load_of_fits hfits, hfresh']
      rfl

/-- A machine has thrown dice and failed, its clocks stand in the middle of a period, and a key is held.
A program one byte too long changes nothing about it, and one that fits is loaded. -/
theorem too_long_for_failed_machine :
    let config := { Config.usual with cpuHz := 100 }
    let m := (Machine.powerOn config (.ofSeed 7)).run [.load [0xC0, 0xFF, 0x51, 0x21], .key 3 true]
    let p := (new m).run [.update 25000000]
    let long := List.replicate 3585 (0x12 : UInt8)
    p.machine.fault = some (.invalidInstruction 0x5121) ∧ p.tickClock = 8333334 ∧
      3584 < long.length ∧ (Driving.load long).on p = .ok (.error (.programTooLarge 3585 3584), p) ∧
        ∃ loaded, (Driving.load [0x12, 0x00]).on p = .ok (.ok ⟨⟩, loaded) ∧
          loaded.machine.memory.cells 0x200 2 = [0x12, 0x00] ∧ loaded.machine.fault = none ∧
            loaded.tickClock = 0 := by
  intro config m p long
  have hlength : long.length = 3585 := List.length_replicate
  have hlong : 3584 < long.length := by rw [hlength]; decide
  have hfailed : p.machine.fault = some (.invalidInstruction 0x5121) := by decide
  have hclock : p.tickClock = 8333334 := by decide
  obtain ⟨-, hrefused, -⟩ := load_all_or_nothing config (.ofSeed 7)
    [.load [0xC0, 0xFF, 0x51, 0x21], .key 3 true] [.update 25000000] long
  obtain ⟨-, -, haccepted⟩ := load_all_or_nothing config (.ofSeed 7)
    [.load [0xC0, 0xFF, 0x51, 0x21], .key 3 true] [.update 25000000] [0x12, 0x00]
  obtain ⟨memory, hprogram, -, -, -, hloaded⟩ := haccepted (by decide)
  have hrefused := (hrefused hlong).2.2
  rw [hlength] at hrefused
  exact ⟨hfailed, hclock, hlong, hrefused, _, hloaded, hprogram, rfl, rfl⟩

/-- A machine that has thrown dice throws others after a load than it threw after it was switched on. -/
theorem dice_not_thrown_again :
    let config := { Config.usual with seed := some 7 }
    let m := (Machine.new config).run [.load [0xC0, 0xFF], .cycle]
    ∃ loaded, m.load [0xC0, 0xFF] = .ok loaded ∧
      ∀ memory, loaded ≠ { Machine.new config with memory } := by
  intro config m
  have hgenerator : m.generator ≠ (Machine.new config).generator := by decide
  refine ⟨_, m.load_of_fits (by decide), fun memory hsame ↦ hgenerator ?_⟩
  have hkept := congrArg Machine.generator hsame
  exact hkept

end Pacer

end ChipEight
